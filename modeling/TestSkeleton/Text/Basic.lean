/-! Text as a list of characters: blanks, trimming, splitting and searching.

Every rule of this library on text is a recursion on the list or a list operation, so that laws
about it are inductions on the list. -/

namespace TestSkeleton

/-- A text is the list of its characters. -/
abbrev Text := List Char

instance : LawfulBEq Text := inferInstanceAs (LawfulBEq (List Char))

namespace Text

/-- The blank characters: the ASCII spaces and separators, and the spaces of Unicode. -/
def isBlank (c : Char) : Bool :=
  let n := c.toNat
  (0x9 ≤ n && n ≤ 0xD) || (0x1C ≤ n && n ≤ 0x20) || n == 0x85 || n == 0xA0 || n == 0x1680 ||
    (0x2000 ≤ n && n ≤ 0x200A) || n == 0x2028 || n == 0x2029 || n == 0x202F || n == 0x205F ||
    n == 0x3000

def trimStart (t : Text) : Text := t.dropWhile isBlank

/-- The text without its last characters that satisfy `p`. -/
def dropEndWhile (p : Char → Bool) (t : Text) : Text := (t.reverse.dropWhile p).reverse

def trimEnd (t : Text) : Text := dropEndWhile isBlank t

/-- The text without the blanks at both ends. -/
def trim (t : Text) : Text := trimEnd (trimStart t)

/-- The text without the characters that satisfy `p` at both ends. -/
def trimMatches (p : Char → Bool) (t : Text) : Text := dropEndWhile p (t.dropWhile p)

/-- Cuts at every character that satisfies `p`; a text without one is a single piece. -/
def splitWhere (p : Char → Bool) : Text → List Text
  | [] => [[]]
  | c :: r =>
    if p c then [] :: splitWhere p r
    else match splitWhere p r with
      | [] => [[c]]
      | piece :: rest => (c :: piece) :: rest

def splitOn (sep : Char) (t : Text) : List Text := splitWhere (· == sep) t

/-- The maximal runs of characters that are not blank. -/
def words (t : Text) : List Text := (splitWhere isBlank t).filter (· ≠ [])

/-- The pieces with `sep` between neighbours. -/
def join (sep : Text) : List Text → Text
  | [] => []
  | [piece] => piece
  | piece :: next :: rest => piece ++ sep ++ join sep (next :: rest)

/-- The ends of a text that are left when characters that satisfy `p` are taken from its front,
from the whole text on. -/
def endsAfter (p : Char → Bool) : Text → List Text
  | [] => [[]]
  | c :: r => (c :: r) :: if p c then endsAfter p r else []

/-- The text before the first character that satisfies `p`, and the text after it. -/
def cutAt? (p : Char → Bool) : Text → Option (Text × Text)
  | [] => none
  | c :: r => if p c then some ([], r) else (cutAt? p r).map fun (a, b) => (c :: a, b)

def beforeFirst (sep : Char) (t : Text) : Text := t.takeWhile (· ≠ sep)

/-- What follows `lead`, when the text starts with it. -/
def dropPrefix? : Text → Text → Option Text
  | [], t => some t
  | _ :: _, [] => none
  | a :: lead, c :: t => if a = c then dropPrefix? lead t else none

def startsWith (lead t : Text) : Bool := (dropPrefix? lead t).isSome

def endsWith (tail t : Text) : Bool := startsWith tail.reverse t.reverse

/-- What precedes `tail`, when the text ends with it. -/
def dropSuffix? (tail t : Text) : Option Text :=
  (dropPrefix? tail.reverse t.reverse).map List.reverse

/-- Whether `part` occurs in the text at any place. -/
def contains (part : Text) : Text → Bool
  | [] => part.isEmpty
  | c :: r => startsWith part (c :: r) || contains part r

/-- What follows the last occurrence of `sep`. -/
def afterLast? (sep : Text) : Text → Option Text
  | [] => dropPrefix? sep []
  | c :: r => (afterLast? sep r).or (dropPrefix? sep (c :: r))

/-- The text before the first occurrence of `sep`, and the text after it. -/
def cutAtText? (sep : Text) : Text → Option (Text × Text)
  | [] => (dropPrefix? sep []).map fun r => ([], r)
  | c :: r => match dropPrefix? sep (c :: r) with
    | some rest => some ([], rest)
    | none => (cutAtText? sep r).map fun (a, b) => (c :: a, b)

/-- The numeral of a natural number in base ten. -/
def ofNat (n : Nat) : Text := Nat.toDigits 10 n

/-- The numeral of an integer in base ten, with a minus sign below zero. -/
def ofInt : Int → Text
  | .ofNat n => ofNat n
  | .negSucc n => '-' :: ofNat (n + 1)

end Text

end TestSkeleton
