import TestSkeleton.Document.Numeral

/-! The tokens of YAML.

Indentation opens and closes blocks, and a key is known as one only when its colon is met: places
where a key may begin are kept until then. -/

namespace TestSkeleton.Yaml

/-- What a directive line says. -/
inductive Directive where
  | version (major : Nat)
  | tagHandle (handle expansion : Text)
  | other
  deriving DecidableEq, Repr

inductive Token where
  | directive (d : Directive)
  | documentStart
  | documentEnd
  | blockSequence
  | blockMapping
  | blockEnd
  | openSequence
  | closeSequence
  | openMapping
  | closeMapping
  | flowEntry
  | blockEntry
  | key
  | value
  | reference (name : Text)
  | anchor (name : Text)
  | tag (handle : Option Text) (suffix : Text)
  | scalar (text : Text) (plain : Bool)
  deriving DecidableEq, Repr

/-! Characters -/

/-- The characters that a document may hold. -/
def isAllowed (c : Char) : Bool :=
  let n := c.toNat
  n == 0x9 || n == 0xA || n == 0xD || (0x20 ≤ n && n ≤ 0x7E) || n == 0x85 ||
    (0xA0 ≤ n && n ≤ 0xD7FF) || (0xE000 ≤ n && n ≤ 0xFFFD) || 0x10000 ≤ n

def isBreak (c : Char) : Bool :=
  c == '\n' || c == '\r' || c == '\u0085' || c == '\u2028' || c == '\u2029'

def isGap (c : Char) : Bool := c == ' ' || c == '\t' || isBreak c

/-- Whether a place is followed by a blank, a line end or nothing. -/
def endsHere : Option Char → Bool
  | none => true
  | some c => isGap c

/-- The same without the tab. -/
def endsOrSpace : Option Char → Bool
  | none => true
  | some c => c == ' ' || isBreak c

def isNameChar (c : Char) : Bool := c.isAlphanum || c == '-' || c == '_'

/-! Places in a text -/

structure Cursor where
  rest : Text
  index : Nat := 0
  line : Nat := 0
  column : Nat := 0
  deriving Repr

namespace Cursor

def peek? (c : Cursor) : Option Char := c.rest.head?

def next (c : Cursor) : Cursor :=
  match c.rest with
  | [] => c
  | ch :: r =>
    if isBreak ch && !(ch == '\r' && r.head? == some '\n') then
      ⟨r, c.index + 1, c.line + 1, 0⟩
    else ⟨r, c.index + 1, c.line, if ch == '\uFEFF' then c.column else c.column + 1⟩

def skip : Nat → Cursor → Cursor
  | 0, c => c
  | n + 1, c => skip n c.next

/-- Takes the longest front of characters that satisfy `p`. -/
def takeWhile (p : Char → Bool) (c : Cursor) : Text × Cursor :=
  let taken := c.rest.takeWhile p
  (taken, c.skip taken.length)

def skipWhile (p : Char → Bool) (c : Cursor) : Cursor := (c.takeWhile p).2

def skipSpaces (c : Cursor) : Cursor := c.skipWhile (· == ' ')

/-- Takes one line end, if there is one, in its uniform form. -/
def takeBreak (c : Cursor) : Text × Cursor :=
  match c.rest with
  | '\r' :: '\n' :: _ => (['\n'], c.skip 2)
  | ch :: _ =>
    if ch == '\u2028' || ch == '\u2029' then ([ch], c.next)
    else if isBreak ch then (['\n'], c.next)
    else ([], c)
  | [] => ([], c)

def atBreak (c : Cursor) : Bool := c.peek?.any isBreak

/-- Whether three given characters stand alone here. -/
def atMark (mark : Text) (c : Cursor) : Bool :=
  c.rest.take 3 == mark && endsHere (c.rest[3]?)

def documentMarks : List Text := ["---".toList, "...".toList]

def atDocumentMark (c : Cursor) : Bool := documentMarks.any c.atMark

/-- The rest of a line that may hold only spaces and a comment. -/
def skipLineEnd (c : Cursor) : Option Cursor :=
  let c := c.skipSpaces
  let c := if c.peek? == some '#' then c.skipWhile (!isBreak ·) else c
  if c.peek?.all isBreak then some c.takeBreak.2 else none

/-- Passes over spaces, comments and line ends, and tells whether a line ended. -/
def skipToToken : Nat → Cursor → Bool × Cursor
  | 0, c => (false, c)
  | steps + 1, c =>
    let c := c.skipSpaces
    let c := if c.peek? == some '#' then c.skipWhile (!isBreak ·) else c
    if c.atBreak then (true, (skipToToken steps c.takeBreak.2).2) else (false, c)

end Cursor

/-! Plain scalars -/

/-- The characters that end a plain scalar between brackets. -/
def isFlowMark (c : Char) : Bool := c ∈ [',', '[', ']', '\x7b', '\x7d']

/-- The front of a plain scalar up to a blank or a mark. -/
def plainFront (flow : Bool) : Text → Text
  | [] => []
  | c :: r =>
    let colonEnds := c == ':' && (endsHere r.head? || (flow && r.head?.any isFlowMark))
    if isGap c || colonEnds || (flow && (isFlowMark c || c == '?')) then []
    else c :: plainFront flow r

/-- Line ends and spaces of a plain scalar; `none` at a document mark. -/
def plainBreaks : Nat → Cursor → Option Text × Cursor
  | 0, c => (some [], c)
  | steps + 1, c =>
    if c.peek? == some ' ' then plainBreaks steps c.next
    else if c.atBreak then
      let (mark, c) := c.takeBreak
      if c.atDocumentMark then (none, c)
      else match plainBreaks steps c with
        | (some more, c) => (some (mark ++ more), c)
        | ended => ended
    else (some [], c)

/-- A line end between two parts of a scalar is a space, unless empty lines follow it. -/
def foldBreak (mark more : Text) : Text :=
  (if mark ≠ ['\n'] then mark else if more.isEmpty then [' '] else []) ++ more

/-- What joins two parts of a plain scalar, and whether a line ended there. Nothing is joined
before a document mark. -/
def plainGap (c : Cursor) : Text × Bool × Cursor :=
  let (spaces, c) := c.takeWhile (· == ' ')
  if c.atBreak then
    let (mark, c) := c.takeBreak
    if c.atDocumentMark then ([], true, c)
    else match plainBreaks (c.rest.length + 1) c with
      | (some more, c) => (foldBreak mark more, true, c)
      | (none, c) => ([], true, c)
  else (spaces, false, c)

/-- The rest of a plain scalar behind a gap, and whether a line ended at last. -/
def scanPlainWithin (flow : Bool) (indent : Int) :
    Nat → (gap : Text) → (broken : Bool) → Cursor → Text × Bool × Cursor
  | 0, _, broken, c => ([], broken, c)
  | steps + 1, gap, broken, c =>
    let front := if c.peek? == some '#' then [] else plainFront flow c.rest
    if front.isEmpty then ([], broken, c)
    else
      let (next, brokenNext, c) := plainGap (c.skip front.length)
      if next.isEmpty || c.peek? == some '#' || (!flow && c.column < indent) then
        (gap ++ front, brokenNext, c)
      else
        let (more, brokenLast, c) := scanPlainWithin flow indent steps next brokenNext c
        (gap ++ front ++ more, brokenLast, c)

def scanPlain (flow : Bool) (indent : Int) (c : Cursor) : Text × Bool × Cursor :=
  scanPlainWithin flow indent (c.rest.length + 1) [] false c

/-! Quoted scalars -/

/-- What a backslash and a character stand for between double quotes. -/
def escaped? : Char → Option Char
  | '0' => some '\x00'
  | 'a' => some '\x07'
  | 'b' => some '\x08'
  | 't' | '\t' => some '\t'
  | 'n' => some '\n'
  | 'v' => some '\x0b'
  | 'f' => some '\x0c'
  | 'r' => some '\r'
  | 'e' => some '\x1b'
  | ' ' => some ' '
  | '"' => some '"'
  | '\\' => some '\\'
  | '/' => some '/'
  | 'N' => some '\u0085'
  | '_' => some '\u00a0'
  | 'L' => some '\u2028'
  | 'P' => some '\u2029'
  | _ => none

/-- The number of hexadecimal digits behind a backslash and a letter. -/
def codeWidth? : Char → Option Nat
  | 'x' => some 2
  | 'u' => some 4
  | 'U' => some 8
  | _ => none

/-- Line ends inside a quoted scalar. A document mark may not follow one. -/
def quotedBreaks : Nat → Cursor → Option (Text × Cursor)
  | 0, c => some ([], c)
  | steps + 1, c =>
    if c.atDocumentMark then none
    else
      let c := c.skipWhile fun ch => ch == ' ' || ch == '\t'
      if c.atBreak then
        let (mark, c) := c.takeBreak
        (quotedBreaks steps c).map fun (more, c) => (mark ++ more, c)
      else some ([], c)

/-- An escape, given the place behind its backslash. -/
def scanEscape (c : Cursor) : Option (Text × Cursor) :=
  match c.peek? with
  | none => none
  | some ch =>
    match escaped? ch, codeWidth? ch with
    | some e, _ => some ([e], c.next)
    | none, some width =>
      let digits := c.next.rest.take width
      if digits.length < width then none
      else do
        let n ← digits? 16 digits
        if n.isValidChar then some ([Char.ofNat n], c.next.skip width) else none
    | none, none =>
      if isBreak ch then
        let c := c.takeBreak.2
        quotedBreaks (c.rest.length + 1) c
      else none

/-- The rest of a quoted scalar, up to and with its closing quote. -/
def scanQuotedWithin (quote : Char) : Nat → Cursor → Option (Text × Cursor)
  | 0, _ => none
  | steps + 1, c =>
    let go (piece : Text) (c : Cursor) : Option (Text × Cursor) :=
      (scanQuotedWithin quote steps c).map fun (more, c) => (piece ++ more, c)
    match c.rest with
    | [] => none
    | ch :: r =>
      if ch == quote then
        if quote == '\'' && r.head? == some '\'' then go ['\''] (c.skip 2) else some ([], c.next)
      else if quote == '"' && ch == '\\' then do
        let (piece, c) ← scanEscape c.next
        go piece c
      else if isGap ch then
        let (spaces, c) := c.takeWhile fun ch => ch == ' ' || ch == '\t'
        if c.rest.isEmpty then none
        else if c.atBreak then do
          let (mark, c) := c.takeBreak
          let (more, c) ← quotedBreaks (c.rest.length + 1) c
          go (foldBreak mark more) c
        else go spaces c
      else go [ch] c.next

/-- A quoted scalar, given the place of its opening quote. -/
def scanQuoted (quote : Char) (c : Cursor) : Option (Text × Cursor) :=
  scanQuotedWithin quote (c.rest.length + 1) c.next

/-! Block scalars -/

/-- What becomes of the line ends behind the last line. -/
inductive Chomping where
  | strip
  | clip
  | keep
  deriving DecidableEq, Repr

def chomping? : Char → Option Chomping
  | '+' => some .keep
  | '-' => some .strip
  | _ => none

/-- The depth that a digit gives; none is zero. -/
def depth? (c : Char) : Option Nat :=
  if c.isDigit ∧ c ≠ '0' then some (c.toNat - '0'.toNat) else none

/-- The marks behind the sign of a block scalar, in either order. -/
def scanBlockHeader (c : Cursor) : Option (Chomping × Option Nat × Cursor) := do
  let first ← match c.peek? with
    | none => some (Chomping.clip, none, c)
    | some ch => match chomping? ch with
      | some mode =>
        let c := c.next
        match c.peek? with
        | some d =>
          if d.isDigit then (depth? d).map fun n => (mode, some n, c.next)
          else some (mode, none, c)
        | none => some (mode, none, c)
      | none =>
        if ch.isDigit then do
          let n ← depth? ch
          let c := c.next
          match c.peek?.bind chomping? with
          | some mode => some (mode, some n, c.next)
          | none => some (.clip, some n, c)
        else some (.clip, none, c)
  if endsOrSpace first.2.2.peek? then some first else none

/-- Empty lines in front of a block scalar, and the deepest column among them. -/
def blockIndentation : Nat → (deepest : Nat) → Cursor → Text × Nat × Cursor
  | 0, deepest, c => ([], deepest, c)
  | steps + 1, deepest, c =>
    if c.atBreak then
      let (mark, c) := c.takeBreak
      let (more, deepest, c) := blockIndentation steps deepest c
      (mark ++ more, deepest, c)
    else if c.peek? == some ' ' then
      let c := c.next
      blockIndentation steps (max deepest c.column) c
    else ([], deepest, c)

def skipIndent : Nat → Cursor → Cursor
  | 0, c => c
  | n + 1, c => if c.peek? == some ' ' then skipIndent n c.next else c

/-- Empty lines up to the next line of the scalar. -/
def blockBreaks (indent : Nat) : Nat → Cursor → Text × Cursor
  | 0, c => ([], c)
  | steps + 1, c =>
    let c := skipIndent (indent - c.column) c
    if c.atBreak then
      let (mark, c) := c.takeBreak
      let (more, c) := blockBreaks indent steps c
      (mark ++ more, c)
    else ([], c)

/-- The lines of a block scalar: their text, the last line end, and the line ends behind it. -/
def blockLines (folded : Bool) (indent : Nat) :
    Nat → (breaks : Text) → (last : Text) → Cursor → Text × Text × Text × Cursor
  | 0, breaks, last, c => ([], last, breaks, c)
  | steps + 1, breaks, last, c =>
    if c.column = indent ∧ !c.rest.isEmpty then
      let solid := !c.peek?.any fun ch => ch == ' ' || ch == '\t'
      let (line, c) := c.takeWhile (!isBreak ·)
      let (mark, c) := c.takeBreak
      let (more, c) := blockBreaks indent (c.rest.length + 1) c
      if c.column = indent ∧ !c.rest.isEmpty then
        let joins := folded && mark == ['\n'] && solid &&
          !c.peek?.any fun ch => ch == ' ' || ch == '\t'
        let joint : Text := if joins then if more.isEmpty then [' '] else [] else mark
        let (text, last, behind, c) := blockLines folded indent steps more mark c
        (breaks ++ line ++ joint ++ text, last, behind, c)
      else (breaks ++ line, mark, more, c)
    else ([], last, breaks, c)

/-- A block scalar, given the place of its sign and the column of the block around it. -/
def scanBlock (outer : Int) (c : Cursor) : Option (Text × Cursor) := do
  let folded := c.peek? == some '>'
  let (chomping, depth, c) ← scanBlockHeader c.next
  let c ← c.skipLineEnd
  let least := (max 1 (outer + 1)).toNat
  let steps := c.rest.length + 1
  let (indent, breaks, c) := match depth with
    | some n =>
      let indent := least + n - 1
      let (breaks, c) := blockBreaks indent steps c
      (indent, breaks, c)
    | none =>
      let (breaks, deepest, c) := blockIndentation steps 0 c
      (max least deepest, breaks, c)
  let (text, last, behind, c) := blockLines folded indent steps breaks [] c
  return (text ++ (if chomping = .strip then [] else last) ++
    (if chomping = .keep then behind else []), c)

/-! Names, tags and directives -/

/-- The name of an anchor or alias, given the place of its sign. -/
def scanName (c : Cursor) : Option (Text × Cursor) :=
  let (name, c) := c.next.takeWhile isNameChar
  let ends := endsHere c.peek? || c.peek?.any (· ∈ ['?', ':', ',', ']', '\x7d', '%', '@', '\x60'])
  if name.isEmpty || !ends then none else some (name, c)

def isUriChar (c : Char) : Bool :=
  c.isAlphanum || c ∈ "-;/?:@&=+$,_.!~*'()[]%".toList

/-- The bytes of consecutive percent escapes. -/
def percentBytes : Nat → Text → Option (Bytes × Text)
  | 0, t => some ([], t)
  | steps + 1, t =>
    match t with
    | '%' :: a :: b :: r => do
      let n ← digits? 16 [a, b]
      let (more, rest) ← percentBytes steps r
      return (UInt8.ofNat n :: more, rest)
    | '%' :: _ => none
    | t => some ([], t)

/-- The text of an address, percent escapes replaced. -/
def unescapeUri : Nat → Text → Option Text
  | 0, _ => some []
  | steps + 1, t =>
    match t with
    | [] => some []
    | '%' :: _ => do
      let (bytes, rest) ← percentBytes t.length t
      let text ← (Utf8.decode bytes).toOption
      return text ++ (← unescapeUri steps rest)
    | c :: r => (unescapeUri steps r).map (c :: ·)

def scanUri (c : Cursor) : Option (Text × Cursor) := do
  let (uri, c) := c.takeWhile isUriChar
  if uri.isEmpty then none else return (← unescapeUri (uri.length + 1) uri, c)

/-- A handle: an exclamation mark, or a name between two. -/
def scanHandle (c : Cursor) : Option (Text × Cursor) :=
  if c.peek? != some '!' then none
  else
    let (name, after) := c.next.takeWhile isNameChar
    if after.peek? == some '!' then some (['!'] ++ name ++ ['!'], after.next)
    else if name.isEmpty && after.peek? == some ' ' then some (['!'], c.next)
    else none

/-- A tag, given the place of its exclamation mark. -/
def scanTag (c : Cursor) : Option (Token × Cursor) := do
  let (token, c) ← match c.rest[1]? with
    | some '<' => do
      let (uri, c) ← scanUri (c.skip 2)
      if c.peek? == some '>' then some (Token.tag none uri, c.next) else none
    | second =>
      if endsHere second then some (.tag none ['!'], c.next)
      else
        let word := (c.rest.drop 1).takeWhile fun ch => !(ch == ' ' || isBreak ch)
        if '!' ∈ word then do
          let (handle, c) ← scanHandle c
          let (suffix, c) ← scanUri c
          some (.tag (some handle) suffix, c)
        else do
          let (suffix, c) ← scanUri c.next
          some (.tag (some ['!']) suffix, c)
  if endsOrSpace c.peek? then some (token, c) else none

def scanNumber (c : Cursor) : Option (Nat × Cursor) :=
  let (digits, c) := c.takeWhile Char.isDigit
  if digits.isEmpty then none else some (ofDigits 10 digits, c)

/-- A directive line, given the place of its percent sign. -/
def scanDirective (c : Cursor) : Option (Directive × Cursor) := do
  let (name, c) := c.next.takeWhile isNameChar
  if name.isEmpty || !endsOrSpace c.peek? then none
  let (directive, c) ←
    if name = "YAML".toList then do
      let (major, c) ← scanNumber c.skipSpaces
      if c.peek? != some '.' then none
      let (_, c) ← scanNumber c.next
      if endsOrSpace c.peek? then some (Directive.version major, c) else none
    else if name = "TAG".toList then do
      let (handle, c) ← scanHandle c.skipSpaces
      if c.peek? != some ' ' then none
      let (expansion, c) ← scanUri c.skipSpaces
      if endsOrSpace c.peek? then some (.tagHandle handle expansion, c) else none
    else some (.other, c.skipWhile (!isBreak ·))
  let c ← c.skipLineEnd
  return (directive, c)

/-! The scanner -/

/-- A place where a key may have begun. One at the left edge of a block must turn out to be one. -/
structure KeyPlace where
  position : Nat
  required : Bool
  index : Nat
  line : Nat
  column : Nat
  deriving Repr

structure Scan where
  cursor : Cursor
  tokens : Array Token := #[]
  flowLevel : Nat := 0
  indent : Int := -1
  outerIndents : List Int := []
  keyAllowed : Bool := true
  keyPlaces : List (Nat × KeyPlace) := []

namespace Scan

def push (s : Scan) (t : Token) : Scan := { s with tokens := s.tokens.push t }

def inFlow (s : Scan) : Bool := s.flowLevel != 0

/-- The most characters of a key that is not marked as one. -/
def keyLimit : Nat := 1024

def dropKeyPlaces (s : Scan) (gone : Nat → KeyPlace → Bool) : Option Scan :=
  if s.keyPlaces.any fun (level, k) => gone level k && k.required then none
  else some { s with keyPlaces := s.keyPlaces.filter fun (level, k) => !gone level k }

/-- A key is on one line and not too long. -/
def dropStale (s : Scan) : Option Scan :=
  s.dropKeyPlaces fun _ k =>
    k.line != s.cursor.line || keyLimit < s.cursor.index - k.index

def dropKeyPlace (s : Scan) : Option Scan := s.dropKeyPlaces fun level _ => level == s.flowLevel

/-- Notes that a key may begin here. -/
def noteKey (s : Scan) : Option Scan :=
  if s.keyAllowed then do
    let c := s.cursor
    let required := !s.inFlow && s.indent == (c.column : Int)
    let s ← s.dropKeyPlace
    return { s with keyPlaces :=
      (s.flowLevel, ⟨s.tokens.size, required, c.index, c.line, c.column⟩) :: s.keyPlaces }
  else some s

/-- Closes the blocks that lie deeper than a column. -/
def closeBlocks (s : Scan) (column : Int) : Scan :=
  if s.inFlow then s
  else
    let closed := (s.indent :: s.outerIndents).takeWhile (column < ·)
    match (s.indent :: s.outerIndents).drop closed.length with
    | [] => s
    | indent :: outer =>
      { s with indent, outerIndents := outer
               tokens := s.tokens ++ Array.replicate closed.length Token.blockEnd }

/-- Opens a block at a column, unless one is open there. -/
def openBlock (s : Scan) (column : Nat) (start : Token) : Scan :=
  if !s.inFlow && s.indent < (column : Int) then
    { s with indent := column, outerIndents := s.indent :: s.outerIndents
             tokens := s.tokens.push start }
  else s

/-- Takes characters for a token. -/
def take (s : Scan) (n : Nat) (t : Token) : Scan :=
  { s with cursor := s.cursor.skip n, tokens := s.tokens.push t }

def allow (s : Scan) (b : Bool) : Scan := { s with keyAllowed := b }

def documentMark (s : Scan) (t : Token) : Option Scan := do
  let s ← (s.closeBlocks (-1)).dropKeyPlace
  return (s.allow false).take 3 t

def openFlow (s : Scan) (t : Token) : Option Scan := do
  let s ← s.noteKey
  return ({ s with flowLevel := s.flowLevel + 1 }.allow true).take 1 t

/-- A closing bracket without an opening one is refused. -/
def closeFlow (s : Scan) (t : Token) : Option Scan := do
  let s ← s.dropKeyPlace
  match s.flowLevel with
  | 0 => none
  | level + 1 => return ({ s with flowLevel := level }.allow false).take 1 t

def flowEntry (s : Scan) : Option Scan := do
  let s ← (s.allow true).dropKeyPlace
  return s.take 1 .flowEntry

def blockEntry (s : Scan) : Option Scan := do
  if !s.inFlow && !s.keyAllowed then none
  let s ← ((s.openBlock s.cursor.column .blockSequence).allow true).dropKeyPlace
  return s.take 1 .blockEntry

def explicitKey (s : Scan) : Option Scan := do
  if !s.inFlow && !s.keyAllowed then none
  let s ← ((s.openBlock s.cursor.column .blockMapping).allow (!s.inFlow)).dropKeyPlace
  return s.take 1 .key

/-- A colon: what began at the noted place is the key, and opens a block if it lies deeper. -/
def mapValue (s : Scan) : Option Scan := do
  match s.keyPlaces.lookup s.flowLevel with
  | some k =>
    let s := { s with keyPlaces := s.keyPlaces.filter fun (level, _) => level != s.flowLevel }
    let before := s.tokens.extract 0 k.position
    let behind := s.tokens.extract k.position s.tokens.size
    let opened := ({ s with tokens := before }.openBlock k.column .blockMapping).push .key
    return ({ opened with tokens := opened.tokens ++ behind }.allow false).take 1 .value
  | none =>
    if !s.inFlow && !s.keyAllowed then none
    let s ← ((s.openBlock s.cursor.column .blockMapping).allow (!s.inFlow)).dropKeyPlace
    return s.take 1 .value

/-- A token that may begin a key, made by a scanner of its own. -/
def note (s : Scan) (scanner : Cursor → Option (Token × Cursor)) : Option Scan := do
  let s ← s.noteKey
  let (token, cursor) ← scanner s.cursor
  return { s.allow false with cursor, tokens := s.tokens.push token }

def blockScalar (s : Scan) : Option Scan := do
  let s ← (s.allow true).dropKeyPlace
  let (text, cursor) ← scanBlock s.indent s.cursor
  return { s with cursor, tokens := s.tokens.push (.scalar text false) }

def plain (s : Scan) : Option Scan := do
  let s ← s.noteKey
  let (text, broken, cursor) := scanPlain s.inFlow (s.indent + 1) s.cursor
  return { s with cursor, keyAllowed := broken, tokens := s.tokens.push (.scalar text true) }

def directive (s : Scan) : Option Scan := do
  let s ← (s.closeBlocks (-1)).dropKeyPlace
  let (d, cursor) ← scanDirective s.cursor
  return { s.allow false with cursor, tokens := s.tokens.push (.directive d) }

/-- Whether a plain scalar can begin with these characters. -/
def plainBegins (flow : Bool) (c : Char) (next : Option Char) : Bool :=
  !(isGap c || c ∈ "-?:,[]\x7b\x7d#&*!|>'\"%@\x60".toList) ||
    (!endsHere next && (c == '-' || (!flow && (c == '?' || c == ':'))))

/-- The next token; `c` and `next` are the characters at hand. -/
def step (s : Scan) (c : Char) (next : Option Char) : Option Scan :=
  let atEdge := s.cursor.column == 0
  if atEdge && c == '%' then s.directive
  else if atEdge && s.cursor.atMark "---".toList then s.documentMark .documentStart
  else if atEdge && s.cursor.atMark "...".toList then s.documentMark .documentEnd
  else if c == '[' then s.openFlow .openSequence
  else if c == '\x7b' then s.openFlow .openMapping
  else if c == ']' then s.closeFlow .closeSequence
  else if c == '\x7d' then s.closeFlow .closeMapping
  else if c == ',' then s.flowEntry
  else if c == '-' && endsHere next then s.blockEntry
  else if c == '?' && (s.inFlow || endsHere next) then s.explicitKey
  else if c == ':' && (s.inFlow || endsHere next) then s.mapValue
  else if c == '*' then s.note fun c => (scanName c).map fun (name, c) => (.reference name, c)
  else if c == '&' then s.note fun c => (scanName c).map fun (name, c) => (.anchor name, c)
  else if c == '!' then s.note scanTag
  else if (c == '|' || c == '>') && !s.inFlow then s.blockScalar
  else if c == '\'' || c == '"' then
    s.note fun cursor => (scanQuoted c cursor).map fun (text, c) => (.scalar text false, c)
  else if plainBegins s.inFlow c next then s.plain
  else none

def run : Nat → Scan → Option (Array Token)
  | 0, _ => none
  | steps + 1, s => do
    let (broken, cursor) := s.cursor.skipToToken (s.cursor.rest.length + 1)
    let s := { s with cursor, keyAllowed := s.keyAllowed || (broken && !s.inFlow) }
    let s ← s.dropStale
    let s := s.closeBlocks s.cursor.column
    match s.cursor.rest with
    | [] => return (← (s.closeBlocks (-1)).dropKeyPlace).tokens
    | c :: r => run steps (← s.step c r.head?)

end Scan

/-- The tokens of a document, if it has a reading. A byte order mark in front is passed over. -/
def tokens? (t : Text) : Option (List Token) :=
  if t.all isAllowed then
    let start : Cursor := { rest := t }
    let start := if t.head? == some '\uFEFF' then start.next else start
    (Scan.run (t.length + 2) { cursor := start }).map Array.toList
  else none

end TestSkeleton.Yaml
