import TestSkeleton.Text.Class
import TestSkeleton.Text.Utf8

/-! Reading numerals. -/

namespace TestSkeleton

/-- Whether a character is a digit of a base up to sixteen. -/
def isDigitOf (base : Nat) (c : Char) : Bool :=
  if c.isDigit then c.toNat - '0'.toNat < base
  else if 'a' ≤ c ∧ c ≤ 'f' then c.toNat - 'a'.toNat + 10 < base
  else if 'A' ≤ c ∧ c ≤ 'F' then c.toNat - 'A'.toNat + 10 < base
  else false

def digitValue (c : Char) : Nat :=
  if c.isDigit then c.toNat - '0'.toNat
  else if 'a' ≤ c then c.toNat - 'a'.toNat + 10
  else c.toNat - 'A'.toNat + 10

/-- The number that digits of a base stand for. -/
def ofDigits (base : Nat) (digits : Text) : Nat :=
  digits.foldl (fun n c => base * n + digitValue c) 0

/-- The number of a text of digits of a base and nothing else. -/
def digits? (base : Nat) (t : Text) : Option Nat :=
  if !t.isEmpty && t.all (isDigitOf base) then some (ofDigits base t) else none

/-- A sign, and the text behind it. -/
def cutSign : Text → Bool × Text
  | '-' :: r => (true, r)
  | '+' :: r => (false, r)
  | t => (false, t)

def signed (negative : Bool) (n : Nat) : Int := if negative then -n else n

/-- Splits off the longest front of digits of a base in which single underscores separate digits,
and leaves the underscores out. -/
def cutGrouped (base : Nat) : Text → Text × Text
  | c :: '_' :: d :: r =>
    if isDigitOf base c then
      if isDigitOf base d then
        let (digits, rest) := cutGrouped base (d :: r)
        (c :: digits, rest)
      else ([c], '_' :: d :: r)
    else ([], c :: '_' :: d :: r)
  | c :: r =>
    if isDigitOf base c then
      let (digits, rest) := cutGrouped base r
      (c :: digits, rest)
    else ([], c :: r)
  | [] => ([], [])

/-- The most digits of a decimal numeral that is read as an integer. -/
def numeralLimit : Nat := 4300

/-- An integer in base ten, with digits of any script, a sign and blanks around it; single
underscores may separate digits. -/
def readInteger? (t : Text) : Option Int := do
  let (negative, body) := cutSign (Text.trim t)
  let groups := Text.splitOn '_' body
  if groups.any List.isEmpty then none
  let values ← groups.flatten.mapM Text.decimalValue?
  if numeralLimit < values.length then none
  return signed negative (values.foldl (fun n d => 10 * n + d) 0)

end TestSkeleton
