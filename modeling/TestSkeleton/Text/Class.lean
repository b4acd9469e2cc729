import TestSkeleton.Text.Basic
import TestSkeleton.Text.WordRanges
import TestSkeleton.Text.IdentifierRanges
import TestSkeleton.Text.CaseRanges
import TestSkeleton.Text.DigitRanges

/-! Classes of characters: words, identifiers, letter case and digits.

Each class is spelled out for ASCII and looked up in a table of runs above it. -/

namespace TestSkeleton.Text

def inRanges (ranges : List (Nat × Nat)) (n : Nat) : Bool :=
  ranges.any fun (first, last) => first ≤ n && n ≤ last

/-- Letters, numbers and the underscore. -/
def isWord (c : Char) : Bool :=
  if c.toNat < 0x80 then c.isAlphanum || c == '_' else inRanges wordRanges c.toNat

def isAsciiIdentifierStart (c : Char) : Bool := c.isAlpha || c == '_'

def isAsciiIdentifierContinue (c : Char) : Bool := c.isAlphanum || c == '_'

/-- A letter or an underscore, then letters, digits and underscores, all of ASCII. -/
def isIdentifier : Text → Bool
  | [] => false
  | c :: r => isAsciiIdentifierStart c && r.all isAsciiIdentifierContinue

def isIdentifierStart (c : Char) : Bool :=
  if c.toNat < 0x80 then isAsciiIdentifierStart c else inRanges identifierStartRanges c.toNat

def isIdentifierContinue (c : Char) : Bool :=
  if c.toNat < 0x80 then isAsciiIdentifierContinue c else inRanges identifierContinueRanges c.toNat

def isUpper (c : Char) : Bool :=
  if c.toNat < 0x80 then c.isUpper
  else upperRuns.any fun (first, last, step) =>
    first ≤ c.toNat && c.toNat ≤ last && (c.toNat - first) % step == 0

/-- A character that has case and that the end of a word does not look through. -/
def isCased (c : Char) : Bool :=
  if c.toNat < 0x80 then c.isAlpha else inRanges casedRanges c.toNat

/-- A character that the end of a word looks through, such as an apostrophe. -/
def isCaseIgnorable (c : Char) : Bool :=
  if c.toNat < 0x80 then c ∈ ['\'', '.', ':', '^', '\x60'] else inRanges caseIgnorableRanges c.toNat

/-- Whether a sigma between `before`, read backwards, and `after` ends a word. -/
def isFinalSigma (before after : Text) : Bool :=
  (before.dropWhile isCaseIgnorable).head?.any isCased &&
    !(after.dropWhile isCaseIgnorable).head?.any isCased

/-- The lower case form of one character of one character. -/
def lowerChar (c : Char) : Char :=
  if c.toNat < 0x80 then c.toLower
  else match lowerRuns.find? fun (first, last, step, _) =>
      first ≤ c.toNat && c.toNat ≤ last && (c.toNat - first) % step == 0 with
    | some (_, _, _, distance) => Char.ofNat (c.toNat + distance).toNat
    | none => c

/-- Lower case of the rest of a text, whose earlier part is `before`, read backwards. -/
def lowerFrom (before : Text) : Text → Text
  | [] => []
  | c :: r =>
    let here : Text :=
      if c == 'Σ' then [if isFinalSigma before r then 'ς' else 'σ']
      else if c == 'İ' then ['i', '\u0307']
      else [lowerChar c]
    here ++ lowerFrom (c :: before) r

/-- The text in lower case; a capital sigma at the end of a word becomes the final small sigma. -/
def lower (t : Text) : Text := lowerFrom [] t

/-- The value of a decimal digit of any script. -/
def decimalValue? (c : Char) : Option Nat :=
  if c.isDigit then some (c.toNat - '0'.toNat)
  else if c.toNat < 0x80 then none
  else
    (decimalZeros.find? fun nought => nought ≤ c.toNat && c.toNat < nought + 10).map (c.toNat - ·)

/-- Decimal digits of any script, and digits such as superscripts. -/
def isDigit (c : Char) : Bool :=
  (decimalValue? c).isSome || (0x80 ≤ c.toNat && inRanges otherDigitRanges c.toNat)

def isPrintable (c : Char) : Bool :=
  if c.toNat < 0x80 then 0x20 ≤ c.toNat && c.toNat < 0x7F else !inRanges unprintableRanges c.toNat

end TestSkeleton.Text
