import TestSkeleton.Text.Class

/-! Text between quotes, as messages show it. -/

namespace TestSkeleton.Text

/-- The hexadecimal numeral of a number, padded with zeros to a width. -/
def hexOfWidth (width n : Nat) : Text :=
  let digits := Nat.toDigits 16 n
  List.replicate (width - digits.length) '0' ++ digits

/-- A character inside quotes; what has no printed form is written as an escape. -/
def quotedChar (quote c : Char) : Text :=
  if c == quote || c == '\\' then ['\\', c]
  else if c == '\t' then "\\t".toList
  else if c == '\n' then "\\n".toList
  else if c == '\r' then "\\r".toList
  else if isPrintable c then [c]
  else if c.toNat < 0x100 then "\\x".toList ++ hexOfWidth 2 c.toNat
  else if c.toNat < 0x10000 then "\\u".toList ++ hexOfWidth 4 c.toNat
  else "\\U".toList ++ hexOfWidth 8 c.toNat

/-- The text between single quotes, or between double quotes when it holds single ones alone. -/
def quoted (t : Text) : Text :=
  let quote := if '\'' ∈ t ∧ '"' ∉ t then '"' else '\''
  quote :: t.flatMap (quotedChar quote) ++ [quote]

end TestSkeleton.Text
