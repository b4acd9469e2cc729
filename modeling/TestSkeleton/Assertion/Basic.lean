import TestSkeleton.Text.Basic

/-! The assertion for a type about which nothing is known. -/

namespace TestSkeleton.Assertion

/-- A comment that names the type and leaves the assertion to the reader. -/
def manual (type : Text) : Text :=
  "// TODO: Add appropriate assertion for type: ".toList ++ type

end TestSkeleton.Assertion
