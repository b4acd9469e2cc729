import TestSkeleton.Template.Basic
import TestSkeleton.Text.Class

/-! Reading templates.

Tags stand between `\x7b%` and `%\x7d`, expressions to show between double braces, comments between
`\x7b#` and `#\x7d`. The blanks in front of a tag or comment that begins its line are left out, and
so is the line end right behind one. -/

namespace TestSkeleton.Template

open Text

inductive Lexeme where
  | name (t : Text)
  | text (t : Text)
  | mark (c : Char)
  deriving DecidableEq, Repr

/-- A stretch of a template. -/
inductive Piece where
  | text (t : Text)
  | output (inside : List Lexeme)
  | tag (inside : List Lexeme)
  deriving DecidableEq, Repr

/-! Lexemes -/

def unescaped? : Char → Option Char
  | 'n' => some '\n'
  | 't' => some '\t'
  | 'r' => some '\r'
  | '\\' => some '\\'
  | '\'' => some '\''
  | '"' => some '"'
  | _ => none

/-- A text literal up to its closing quote, and what follows it. -/
def cutLiteral? (quote : Char) : Text → Option (Text × Text)
  | [] => none
  | ['\\'] => none
  | '\\' :: c :: r =>
    (cutLiteral? quote r).map fun (t, rest) => match unescaped? c with
      | some e => (e :: t, rest)
      | none => ('\\' :: c :: t, rest)
  | c :: r =>
    if c == quote then some ([], r) else (cutLiteral? quote r).map fun (t, rest) => (c :: t, rest)

def marks : List Char := ['.', '|', '(', ')']

/-- The lexemes up to the end of a tag or output, whether a hyphen asks to leave out the blanks
behind it, and what follows. -/
def readInside (close : Char) : Nat → Text → Option (List Lexeme × Bool × Text)
  | 0, _ => none
  | steps + 1, t =>
    match t with
    | [] => none
    | c :: r =>
      let go (l : Lexeme) (rest : Text) := (readInside close steps rest).map
        fun (ls, trims, rest) => (l :: ls, trims, rest)
      if let some rest := dropPrefix? [close, '\x7d'] t then some ([], false, rest)
      else if let some rest := dropPrefix? ['-', close, '\x7d'] t then some ([], true, rest)
      else if isBlank c then readInside close steps r
      else if c == '\'' || c == '"' then do
        let (literal, rest) ← cutLiteral? c r
        go (.text literal) rest
      else if isWord c then
        if c.isDigit then none else go (.name (t.takeWhile isWord)) (t.dropWhile isWord)
      else if marks.contains c then go (.mark c) r
      else none

/-! Pieces -/

/-- The text in front of a tag without the blanks behind its last line end, when nothing else
stands there. -/
def withoutIndent (lineStart : Bool) (t : Text) : Text :=
  let kept := dropEndWhile (· != '\n') t
  if (!kept.isEmpty || lineStart) && (t.drop kept.length).all isBlank then kept else t

/-- The text behind the end of a tag, without blanks or without one line end. -/
def behindTag (trims : Bool) (t : Text) : Text :=
  if trims then trimStart t else match t with
    | '\n' :: r => r
    | t => t

/-- Whether the text that was passed over between two places ends a line. -/
def endsLine (before behind : Text) : Bool :=
  endsWith ['\n'] (before.take (before.length - behind.length))

/-- The opening of a piece that is no text: the character behind the brace, and whether a hyphen
asks to leave out the blanks in front of it. -/
def opening? : Text → Option (Char × Bool × Text)
  | '\x7b' :: c :: r =>
    if c == '%' || c == '#' || c == '\x7b' then
      match r with
      | '-' :: r => some (c, true, r)
      | r => some (c, false, r)
    else none
  | _ => none

/-- The text in front of the next opening, and the text from there on. -/
def cutAtOpening : Text → Text × Text
  | [] => ([], [])
  | c :: r =>
    if (opening? (c :: r)).isSome then ([], c :: r)
    else
      let (before, rest) := cutAtOpening r
      (c :: before, rest)

/-- The text behind a comment. -/
def skipComment : Text → Option (Bool × Text)
  | [] => none
  | '-' :: '#' :: '\x7d' :: r => some (true, r)
  | '#' :: '\x7d' :: r => some (false, r)
  | _ :: r => skipComment r

def pieceOfText (t : Text) : List Piece := if t.isEmpty then [] else [.text t]

/-- The pieces of a template. -/
def readPieces : Nat → (lineStart : Bool) → Text → Option (List Piece)
  | 0, _, _ => none
  | steps + 1, lineStart, t =>
    let (before, rest) := cutAtOpening t
    match opening? rest with
    | none => some (pieceOfText t)
    | some (kind, trimsFront, inside) =>
      let front := if trimsFront then trimEnd before
        else if kind == '\x7b' then before
        else withoutIndent lineStart before
      if kind == '#' then do
        let (trims, r) ← skipComment inside
        let behind := behindTag trims r
        return pieceOfText front ++ (← readPieces steps (endsLine rest behind) behind)
      else if kind == '%' then do
        let (ls, trims, r) ← readInside '%' (inside.length + 1) inside
        let behind := behindTag trims r
        return pieceOfText front ++ .tag ls :: (← readPieces steps (endsLine rest behind) behind)
      else do
        let (ls, trims, r) ← readInside '\x7d' (inside.length + 1) inside
        let behind := if trims then trimStart r else r
        return pieceOfText front ++ .output ls :: (← readPieces steps (endsLine rest behind) behind)

/-! Expressions -/

def word (t : String) : Lexeme := .name t.toList

/-- What a name means on its own. -/
def ofName (n : Text) : Expr :=
  if n = "true".toList ∨ n = "True".toList then .literal (.flag true)
  else if n = "false".toList ∨ n = "False".toList then .literal (.flag false)
  else if n = "none".toList ∨ n = "None".toList then .literal .null
  else .name n

def reserved : List Text :=
  ["and", "or", "not", "if", "else", "in", "is"].map String.toList

mutual

/-- An expression with a choice of two values or without. -/
def readChoice : Nat → List Lexeme → Option (Expr × List Lexeme)
  | 0, _ => none
  | steps + 1, ls => do
    let (yes, ls) ← readOr steps ls
    match ls with
    | .name n :: rest =>
      if n = "if".toList then
        let (cond, rest) ← readOr steps rest
        match rest with
        | .name m :: more =>
          if m = "else".toList then
            let (no, more) ← readChoice steps more
            return (.choose cond yes no, more)
          else return (.choose cond yes (.literal .undefined), rest)
        | _ => return (.choose cond yes (.literal .undefined), rest)
      else return (yes, ls)
    | _ => return (yes, ls)

def readOr : Nat → List Lexeme → Option (Expr × List Lexeme)
  | 0, _ => none
  | steps + 1, ls => do
    let (a, ls) ← readAnd steps ls
    match ls with
    | .name n :: rest =>
      if n = "or".toList then
        let (b, rest) ← readOr steps rest
        return (.or a b, rest)
      else return (a, ls)
    | _ => return (a, ls)

def readAnd : Nat → List Lexeme → Option (Expr × List Lexeme)
  | 0, _ => none
  | steps + 1, ls => do
    let (a, ls) ← readNot steps ls
    match ls with
    | .name n :: rest =>
      if n = "and".toList then
        let (b, rest) ← readAnd steps rest
        return (.and a b, rest)
      else return (a, ls)
    | _ => return (a, ls)

def readNot : Nat → List Lexeme → Option (Expr × List Lexeme)
  | 0, _ => none
  | steps + 1, ls =>
    match ls with
    | .name n :: rest =>
      if n = "not".toList then (readNot steps rest).map fun (e, rest) => (.not e, rest)
      else if reserved.contains n then none
      else readFields steps (ofName n) rest
    | .text t :: rest => readFields steps (.literal (.text t)) rest
    | .mark '(' :: rest => do
      let (e, rest) ← readChoice steps rest
      match rest with
      | .mark ')' :: rest => readFields steps e rest
      | _ => none
    | _ => none

/-- The fields of an expression, then its filters. -/
def readFields : Nat → Expr → List Lexeme → Option (Expr × List Lexeme)
  | 0, _, _ => none
  | steps + 1, e, ls =>
    match ls with
    | .mark '.' :: .name n :: rest => readFields steps (.field e n) rest
    | ls => readFilters steps e ls

/-- Filters, of which there is one: it joins items, with a text between them. -/
def readFilters : Nat → Expr → List Lexeme → Option (Expr × List Lexeme)
  | 0, _, _ => none
  | steps + 1, e, ls =>
    match ls with
    | .mark '|' :: .name n :: rest =>
      if n ≠ "join".toList then none
      else match rest with
        | .mark '(' :: .mark ')' :: rest => readFilters steps (.join e (.literal (.text []))) rest
        | .mark '(' :: rest => do
          let (separator, rest) ← readChoice steps rest
          match rest with
          | .mark ')' :: rest => readFilters steps (.join e separator) rest
          | _ => none
        | rest => readFilters steps (.join e (.literal (.text []))) rest
    | ls => some (e, ls)

end

/-- More steps than an expression of that many lexemes takes. -/
def stepsFor (ls : List Lexeme) : Nat := 8 * ls.length + 8

/-- An expression that takes up all lexemes. -/
def readWhole (read : Nat → List Lexeme → Option (Expr × List Lexeme)) (ls : List Lexeme) :
    Option Expr := do
  let (e, rest) ← read (stepsFor ls) ls
  if rest.isEmpty then some e else none

/-! Nodes -/

/-- What ends a list of nodes. -/
inductive Stop where
  | finish
  | otherwise
  | otherwiseIf (cond : Expr)
  | endLoop
  | endChoice

/-- A tag. -/
inductive Tag where
  | loop (name : Text) (items : Expr)
  | choice (cond : Expr)
  | stop (s : Stop)

def readTag (ls : List Lexeme) : Option Tag :=
  match ls with
  | [.name n] =>
    if n = "else".toList then some (.stop .otherwise)
    else if n = "endfor".toList then some (.stop .endLoop)
    else if n = "endif".toList then some (.stop .endChoice)
    else none
  | .name n :: rest =>
    if n = "if".toList then (readWhole readChoice rest).map .choice
    else if n = "elif".toList then (readWhole readChoice rest).map fun e => .stop (.otherwiseIf e)
    else if n = "for".toList then
      match rest with
      | .name item :: .name m :: rest =>
        if m = "in".toList then (readWhole readOr rest).map (.loop item) else none
      | _ => none
    else none
  | _ => none

mutual

/-- Nodes up to a tag that ends them. -/
def readNodes : Nat → List Piece → Option (List Node × Stop × List Piece)
  | 0, _ => none
  | steps + 1, pieces =>
    match pieces with
    | [] => some ([], .finish, [])
    | .text t :: rest => do
      let (nodes, stop, rest) ← readNodes steps rest
      return (.text t :: nodes, stop, rest)
    | .output ls :: rest => do
      let e ← readWhole readChoice ls
      let (nodes, stop, rest) ← readNodes steps rest
      return (.output e :: nodes, stop, rest)
    | .tag ls :: rest => do
      match ← readTag ls with
      | .stop s => return ([], s, rest)
      | .loop name items =>
        let (body, stop, rest) ← readNodes steps rest
        let (absent, rest) ← match stop with
          | .endLoop => some ([], rest)
          | .otherwise => do
            let (absent, stop, rest) ← readNodes steps rest
            match stop with
            | .endLoop => some (absent, rest)
            | _ => none
          | _ => none
        let (nodes, stop, rest) ← readNodes steps rest
        return (.loop name items body absent :: nodes, stop, rest)
      | .choice cond =>
        let (node, rest) ← readBranches steps cond rest
        let (nodes, stop, rest) ← readNodes steps rest
        return (node :: nodes, stop, rest)

/-- A choice, given its condition, and what follows it. -/
def readBranches : Nat → Expr → List Piece → Option (Node × List Piece)
  | 0, _, _ => none
  | steps + 1, cond, pieces => do
    let (yes, stop, rest) ← readNodes steps pieces
    match stop with
    | .endChoice => return (.choice cond yes [], rest)
    | .otherwise =>
      let (no, stop, rest) ← readNodes steps rest
      match stop with
      | .endChoice => return (.choice cond yes no, rest)
      | _ => none
    | .otherwiseIf next =>
      let (no, rest) ← readBranches steps next rest
      return (.choice cond yes [no], rest)
    | _ => none

end

/-- The nodes of a template, without the line end behind its last line. -/
def read (t : Text) : Except Fault (List Node) :=
  let t := match dropSuffix? ['\n'] t with
    | some t => t
    | none => t
  let nodes := do
    let pieces ← readPieces (t.length + 1) true t
    let (nodes, stop, _) ← readNodes (2 * pieces.length + 2) pieces
    match stop with
    | .finish => some nodes
    | _ => none
  match nodes with
  | some nodes => .ok nodes
  | none => .error .malformed

end TestSkeleton.Template
