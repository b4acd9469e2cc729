import TestSkeleton.Text.Class

/-! The texts of types: their names, their normal spelling and their parts. -/

namespace TestSkeleton.Signature

open Text

/-! Names inside type texts: the nominal part, the last segment of a path, and snake case. -/

/-- A type text without its generic arguments and array part: `a::b::Foo<T>` gives `a::b::Foo`. -/
def baseName (t : Text) : Text := trim (beforeFirst '[' (beforeFirst '<' (trim t)))

/-- The part of a path after its last separator. An empty text separates nothing. -/
def lastSegmentBy? (separator path : Text) : Option Text :=
  if separator.isEmpty then none else some ((afterLast? separator path).getD path)

/-- The part of a path after its last double colon. -/
def lastSegment (path : Text) : Text := (afterLast? "::".toList path).getD path

/-- Whether the last segment of the nominal part begins with an upper case letter. -/
def isNominal (t : Text) : Bool := (lastSegment (baseName t)).head?.any isUpper

def isAsciiLowerOrDigit (c : Char) : Bool := c.isLower || c.isDigit

/-- Puts an underscore between a small letter or digit and a capital that follows it. -/
def separateCapitals : Text → Text
  | [] => []
  | [c] => [c]
  | c :: d :: r =>
    if isAsciiLowerOrDigit c && d.isUpper then c :: '_' :: separateCapitals (d :: r)
    else c :: separateCapitals (d :: r)

/-- Replaces each run of characters outside words by one underscore. The flag says whether the
last character read belongs to such a run. -/
def joinWordsFrom : Bool → Text → Text
  | _, [] => []
  | inGap, c :: r =>
    if isWord c then c :: joinWordsFrom false r
    else if inGap then joinWordsFrom true r
    else '_' :: joinWordsFrom true r

/-- Words in lower case with underscores between them and none at the ends. -/
def toSnakeCase (name : Text) : Text :=
  lower (trimMatches (· == '_') (joinWordsFrom false (separateCapitals name)))

/-! The normal spelling of a type.

Two spellings of one type differ in blanks that carry no meaning. The normal spelling has single
spaces, none inside brackets or after an ampersand, and exactly one after each comma. -/

/-- Drops the blanks that follow a character satisfying `p`. The flag says whether the last
character kept satisfies `p`. -/
def tightenAfterFrom (p : Char → Bool) : Bool → Text → Text
  | _, [] => []
  | tight, c :: r =>
    if tight && isBlank c then tightenAfterFrom p true r else c :: tightenAfterFrom p (p c) r

def tightenAfter (p : Char → Bool) (t : Text) : Text := tightenAfterFrom p false t

/-- Drops the blanks that stand before a character satisfying `p`. -/
def tightenBefore (p : Char → Bool) (t : Text) : Text := (tightenAfter p t.reverse).reverse

/-- Drops the blanks between a word and an opening angle bracket. The flag says whether the last
character kept belongs to a word. -/
def tightenAngleFrom : Bool → Text → Text
  | _, [] => []
  | word, c :: r =>
    if word && isBlank c && (r.dropWhile isBlank).head? == some '<' then tightenAngleFrom true r
    else c :: tightenAngleFrom (isWord c) r

def tightenAngle (t : Text) : Text := tightenAngleFrom false t

/-- Each comma takes exactly one space after it and none before it. -/
def spaceCommas (t : Text) : Text :=
  (tightenAfter (· == ',') (tightenBefore (· == ',') t)).flatMap fun c =>
    if c == ',' then [',', ' '] else [c]

def isOpening (c : Char) : Bool := c == '<' || c == '(' || c == '['

def isClosing (c : Char) : Bool := c == '>' || c == ')' || c == ']'

/-- The normal spelling of a type as written in a source file. -/
def normalize (t : Text) : Text :=
  let spaced := join [' '] (words t)
  let bracketed := tightenAngle (tightenBefore isClosing (tightenAfter isOpening spaced))
  trim (tightenAfter (· == '&') (spaceCommas bracketed))

/-! Cutting a type at the separators that stand outside all brackets. -/

def opensDepth (c : Char) : Bool := c == '<' || c == '(' || c == '[' || c == '\x7b'

def closesDepth (c : Char) : Bool := c == '>' || c == ')' || c == ']' || c == '\x7d'

/-- The depth after `c`; the head of an arrow closes nothing, and depth stops at zero. -/
def depthAfter (depth : Nat) (previous : Option Char) (c : Char) : Nat :=
  if opensDepth c then depth + 1
  else if closesDepth c && !(c == '>' && previous == some '-') then depth - 1
  else depth

/-- The raw pieces of the rest of a text. `current` is the piece so far, read backwards. -/
def piecesFrom (separator : Text) : Nat → Option Char → Text → Text → List Text
  | _, _, current, [] => [current.reverse]
  | depth, previous, current, c :: r =>
    let depth := depthAfter depth previous c
    if [c] == separator && depth == 0 then
      current.reverse :: piecesFrom separator depth (some c) [] r
    else piecesFrom separator depth (some c) (c :: current) r

/-- The trimmed parts of a text between separators outside all brackets. A blank text has none. -/
def splitTopLevel (t : Text) (separator : Text := [',']) : List Text :=
  match (piecesFrom separator 0 none [] t).map trim with
  | [[]] => []
  | parts => parts

/-- The first of a list of generic arguments, and the empty text when there is none. -/
def firstGenericArgument (arguments : Text) : Text := (splitTopLevel arguments).headD []

/-- The text between the brackets of `outer<...>`. The outer name is matched as a plain prefix and
the closing bracket as a plain suffix, one level deep. -/
def stripGeneric? (t outer : Text) (opening : Text := ['<']) (closing : Text := ['>']) :
    Option Text :=
  let t := trim t
  match dropPrefix? (outer ++ opening) t with
  | some (c :: r) =>
    if endsWith closing t then
      some (trim (if closing.isEmpty then [] else (c :: r).take ((c :: r).length - closing.length)))
    else none
  | _ => none

end TestSkeleton.Signature
