import TestSkeleton.Document.Yaml.Scalar
import TestSkeleton.Document.Yaml.Token
import TestSkeleton.Text.Quoted
import TestSkeleton.Workspace.FileTree

/-! Writing values as YAML.

Tables and lists are blocks, one entry a line, keys in order. A text is written plain where it reads
back as itself, else between single quotes, and between double quotes when it holds characters
that need escapes. Long texts continue on further lines. -/

namespace TestSkeleton.Yaml

open Text

/-! Pages -/

/-- What was written so far, backwards, the column where it ends, and whether its last line holds
nothing but spaces and the marks of blocks. -/
structure Page where
  back : Text := []
  column : Nat := 0
  fresh : Bool := true

namespace Page

def text (p : Page) : Text := p.back.reverse

def mark (p : Page) (t : Text) : Page :=
  { p with back := t.reverse ++ p.back, column := p.column + t.length }

def write (p : Page) (t : Text) : Page := { p.mark t with fresh := false }

def breakLine (p : Page) : Page := ⟨'\n' :: p.back, 0, true⟩

/-- Goes to a column, on a new line unless this one is fresh and the column not yet passed. -/
def moveTo (p : Page) (column : Nat) : Page :=
  let p := if p.fresh && p.column ≤ column then p else p.breakLine
  p.mark (List.replicate (column - p.column) ' ')

/-- A space behind a mark. -/
def space (p : Page) : Page := if p.back.head?.all isGap then p else p.mark [' ']

end Page

/-- Lines are continued on the next one behind this column. -/
def lineWidth : Nat := 80

/-! Styles -/

inductive Style where
  | plain
  | single
  | double
  deriving DecidableEq, Repr

def isAsciiPrintable (c : Char) : Bool := 0x20 ≤ c.toNat && c.toNat ≤ 0x7E

/-- Two characters side by side, of which one is a space and the other a line end. -/
def hasSpaceAtBreak : Text → Bool
  | a :: b :: r => (a == ' ' && b == '\n') || (a == '\n' && b == ' ') || hasSpaceAtBreak (b :: r)
  | _ => false

/-- A text of one line or more that single quotes can hold: no escapes, and no line begins or ends
with a space inside. -/
def fitsSingle (t : Text) : Bool :=
  t.all (fun c => c == '\n' || isAsciiPrintable c) && !hasSpaceAtBreak t

/-- Marks inside a text that would end a plain scalar or begin a comment. -/
def hasInnerMark : Text → Bool
  | a :: b :: r =>
    (a == ' ' && b == '#') || (b == ':' && endsHere r.head?) || hasInnerMark (b :: r)
  | _ => false

/-- Whether a text begins as another kind of node does. -/
def beginsAsMark : Text → Bool
  | [] => false
  | c :: r =>
    c ∈ "#,[]\x7b\x7d&*!|>'\"%@\x60".toList || (c ∈ ['?', ':', '-'] && endsHere r.head?)

def fitsPlain (t : Text) : Bool :=
  fitsSingle t && '\n' ∉ t && t.head? != some ' ' && t.getLast? != some ' ' &&
    !Cursor.documentMarks.any (startsWith · t) && !beginsAsMark t && !hasInnerMark t

/-- The style of a text that is not empty or that stands as a value. -/
def Style.ofText (t : Text) : Style :=
  if fitsPlain t && Kind.ofPlain t = .text then .plain
  else if fitsSingle t then .single
  else .double

/-! Texts -/

/-- The maximal runs of spaces, of line ends, and of other characters. -/
def runs : Text → List Text
  | [] => []
  | c :: r =>
    let kind (c : Char) : Nat := if c == ' ' then 0 else if c == '\n' then 1 else 2
    match runs r with
    | (d :: run) :: rest =>
      if kind c = kind d then (c :: d :: run) :: rest else [c] :: (d :: run) :: rest
    | other => [c] :: other

/-- A run between quotes: quotes are doubled, and one line end more stands for line ends. -/
def writeRun (indent : Nat) (p : Page) (run : Text) : Page :=
  if run.head? == some '\n' then
    ((run ++ ['\n']).foldl (fun p _ => p.breakLine) p).moveTo indent
  else p.write (run.flatMap fun c => if c == '\'' then ['\'', '\''] else [c])

/-- Writes runs. A single space between two of them may become a line end. -/
def writeRuns (fold : Bool) (indent : Nat) (put : Page → Text → Page) :
    (first : Bool) → Page → List Text → Page
  | _, p, [] => p
  | first, p, run :: rest =>
    let breaks := fold && run == [' '] && lineWidth < p.column && !first && !rest.isEmpty
    writeRuns fold indent put false (if breaks then p.breakLine.moveTo indent else put p run) rest

def escapeLetters : List (Char × Char) :=
  [('\x00', '0'), ('\x07', 'a'), ('\x08', 'b'), ('\t', 't'), ('\n', 'n'), ('\x0b', 'v'),
    ('\x0c', 'f'), ('\r', 'r'), ('\x1b', 'e'), ('"', '"'), ('\\', '\\'), ('\u0085', 'N'),
    ('\u00a0', '_'), ('\u2028', 'L'), ('\u2029', 'P')]

/-- The escape of a character that cannot stand between double quotes as it is. -/
def escape? (c : Char) : Option Text :=
  let code (letter : Char) (width : Nat) : Text :=
    '\\' :: letter :: (hexOfWidth width c.toNat).map Char.toUpper
  match escapeLetters.lookup c with
  | some letter => some ['\\', letter]
  | none =>
    if isAsciiPrintable c then none
    else if c.toNat ≤ 0xFF then some (code 'x' 2)
    else if c.toNat ≤ 0xFFFF then some (code 'u' 4)
    else some (code 'U' 8)

/-- The rest of a text between double quotes; `pending` is not written yet. A line may be broken
before a space and around escapes, never at either end of the text. -/
def writeEscaped (fold : Bool) (indent : Nat) (first : Bool) (pending : Text) (p : Page) :
    Text → Page
  | [] => p.write pending
  | c :: r =>
    let found := escape? c
    let p := match found with
      | some e => (p.write pending).write e
      | none => p
    let pending := if found.isSome then [] else pending
    let reached := if found.isSome then p.column - 1 else p.column + pending.length
    let mayBreak := c == ' ' || found.isSome || pending.isEmpty
    let breaks := fold && !first && !r.isEmpty && mayBreak && lineWidth < reached
    let p := if breaks then
        let p := ((p.write pending).write ['\\']).breakLine.moveTo indent
        let next := if found.isSome then r.head? else some c
        if next == some ' ' then p.write ['\\'] else p
      else p
    let pending := if breaks then [] else pending
    writeEscaped fold indent false (if found.isSome then pending else pending ++ [c]) p r

/-- A text in a style. Keys stay on one line. -/
def writeText (style : Style) (fold : Bool) (indent : Nat) (p : Page) (t : Text) : Page :=
  match style with
  | .plain => writeRuns fold indent Page.write false p.space (runs t)
  | .single =>
    (writeRuns fold indent (writeRun indent) true (p.space.write ['\'']) (runs t)).write ['\'']
  | .double => (writeEscaped fold indent true [] (p.space.write ['"']) t).write ['"']

/-! Values -/

/-- The plain text of a scalar that is no text. -/
def plainForm : Scalar → Text
  | .null => "null".toList
  | .flag b => (if b then "true" else "false").toList
  | .int i => ofInt i
  | .float .notANumber => ".nan".toList
  | .float (.infinite negative) => (if negative then "-.inf" else ".inf").toList
  | .float f => f.text
  | .moment m => m.text
  | .text t => t

def writeScalar (fold : Bool) (indent : Nat) (p : Page) (s : Scalar) : Page :=
  match s with
  | .text t => writeText (Style.ofText t) fold indent p t
  | s => writeText .plain fold indent p (plainForm s)

/-- The most characters of a key on one line with its value, and one more. -/
def keyLimit : Nat := 123

/-- Whether a key needs no mark in front of it. -/
def isSimpleKey (s : Scalar) : Bool :=
  let t := plainForm s
  !t.isEmpty && !t.any (fun c => isBreak c && c != '\r') && t.length < keyLimit

/-- A key up to the mark of its value. -/
def writeKey (column : Nat) (p : Page) (key : Scalar) : Page :=
  let p := p.moveTo column
  if isSimpleKey key then (writeScalar false (column + 2) p key).write [':']
  else ((writeScalar true (column + 2) (p.mark ['?']) key).moveTo column).mark [':']

mutual

/-- A value behind a mark, in a block at a column. -/
def writeValue (column : Nat) (inPair : Bool) (p : Page) : Value → Page
  | .scalar s => writeScalar true (column + 2) p s
  | .list [] => p.space.write ['[', ']']
  | .list items => writeItems (if inPair && !p.fresh then column else column + 2) p items
  | .table [] => p.space.write ['\x7b', '\x7d']
  | .table pairs => writePairs (column + 2) p pairs

def writeItems (column : Nat) (p : Page) : List Value → Page
  | [] => p
  | item :: rest =>
    writeItems column (writeValue column false ((p.moveTo column).mark ['-']) item) rest

def writePairs (column : Nat) (p : Page) : List (Scalar × Value) → Page
  | [] => p
  | (key, value) :: rest =>
    writePairs column (writeValue column true (writeKey column p key) value) rest

end

/-- Puts a pair in front of the first whose key does not come before its own. -/
def insertPair (pair : Scalar × Value) : Entries → Entries
  | [] => [pair]
  | other :: rest =>
    if FileTree.nameLe (plainForm pair.1) (plainForm other.1) then pair :: other :: rest
    else other :: insertPair pair rest

/-- Keys in order. -/
def sortPairs (pairs : Entries) : Entries := pairs.foldr insertPair []

mutual

/-- The value with the keys of every table inside in order. -/
def inOrder : Value → Value
  | .scalar s => .scalar s
  | .list items => .list (itemsInOrder items)
  | .table pairs => .table (sortPairs (pairsInOrder pairs))

def itemsInOrder : List Value → List Value
  | [] => []
  | item :: rest => inOrder item :: itemsInOrder rest

def pairsInOrder : List (Scalar × Value) → List (Scalar × Value)
  | [] => []
  | (key, value) :: rest => (key, inOrder value) :: pairsInOrder rest

end

/-- The text of a document whose root is a table. -/
def print (root : Entries) : Text :=
  if root.isEmpty then "\x7b\x7d\n".toList
  else (writePairs 0 {} (sortPairs (pairsInOrder root))).breakLine.text

end TestSkeleton.Yaml
