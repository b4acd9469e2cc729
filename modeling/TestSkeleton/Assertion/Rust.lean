import TestSkeleton.Literal.Rust
import TestSkeleton.Assertion.Basic

/-! The assertion on the result of a Rust function, chosen by the text of its return type. -/

namespace TestSkeleton.Rust

open Text Signature

/-- The assertion on a library type. No generic type is known here. -/
def wellKnownAssertion? (type : Text) : Option Text :=
  if '<' ∈ type then none
  else
    let isReference := startsWith ['&'] type
    let name := lastSegment (baseName (type.dropWhile (· == '&')))
    if name == (if isReference then "Path" else "PathBuf").toList then
      some "assert!(result.exists(), \"Function should return existing path\");".toList
    else if name == "Uuid".toList && !isReference then
      some "assert!(!result.is_nil(), \"Function should return valid UUID\");".toList
    else if name == "Url".toList && !isReference then
      some "assert!(result.scheme() != \"\", \"Function should return valid URL\");".toList
    else none

/-- The assertion on a result whose type is given in normal spelling. -/
def assertionOfNormal (type : Text) : Text :=
  let text := dropLifetime type
  if text == "()".toList then "// Function returns unit type - no assertion needed".toList
  else if startsWith "Result<".toList text then
    "assert!(result.is_ok(), \"Function should succeed\");".toList
  else if startsWith "Option<".toList text then
    "assert!(result.is_some(), \"Function should return Some value\");".toList
  else if startsWith "Vec<".toList text then
    "assert!(!result.is_empty(), \"Function should return non-empty vector\");".toList
  else if text ∈ textTypes then
    "assert!(!result.is_empty(), \"Function should return non-empty string\");".toList
  else if text ∈ integerTypes then
    "assert!(result >= 0, \"Function should return non-negative number\");".toList
  else if text ∈ floatTypes then
    "assert!(!result.is_nan(), \"Function should return valid float\");".toList
  else if text == "bool".toList then
    "// Boolean result - add specific assertion based on expected behavior".toList
  else (wellKnownAssertion? text).getD (Assertion.manual type)

/-- The assertion on a result of a Rust type in any spelling. -/
def assertion (type : Text) : Text := assertionOfNormal (normalize type)

end TestSkeleton.Rust
