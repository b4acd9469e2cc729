import TestSkeleton.Literal.V
import TestSkeleton.Assertion.Basic

/-! The assertion on the result of a V function, chosen by the text of its return type. -/

namespace TestSkeleton.V

open Text Signature

/-- The assertion on a result whose type is given in normal spelling. A float is compared with
itself because only a value that is no number differs from itself. -/
def assertionOfNormal (type : Text) : Text :=
  if type.isEmpty then "// Function returns nothing".toList
  else if startsWith ['!'] type || startsWith ['?'] type then
    "// Errors and none values panic in the `or` block above".toList
  else if startsWith "[]".toList type || type == "string".toList then
    "assert result.len > 0".toList
  else if type ∈ integerTypes then "assert result >= 0".toList
  else if type ∈ floatTypes then "assert result == result".toList
  else if type == "bool".toList then
    "// Boolean result - add specific assertion based on expected behavior".toList
  else Assertion.manual type

/-- The assertion on a result of a V type in any spelling. -/
def assertion (type : Text) : Text := assertionOfNormal (normalize type)

end TestSkeleton.V
