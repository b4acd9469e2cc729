import TestSkeleton.Policy
import TestSkeleton.Function
import TestSkeleton.Text.Utf8
import TestSkeleton.Workspace.Error

/-! What the extraction of signatures shares across languages. -/

namespace TestSkeleton

/-- Why a source file yields no signatures. -/
inductive ExtractionError where
  | unexpectedBracket (bracket : Char) (line : Nat)
  | unclosedBracket (bracket : Char) (line : Nat)
  | syntaxError (line : Nat)
  | unreadable (cause : ReadError)
  deriving DecidableEq, Repr

namespace ExtractionError

def reason : ExtractionError → Text
  | unexpectedBracket b line =>
    "unexpected '".toList ++ [b] ++ "' on line ".toList ++ Text.ofNat line
  | unclosedBracket b line =>
    "unclosed '".toList ++ [b] ++ "' opened on line ".toList ++ Text.ofNat line
  | syntaxError line => "syntax error near line ".toList ++ Text.ofNat line
  | unreadable cause => "cannot read file: ".toList ++ cause.message

end ExtractionError

namespace Signature

/-- The receiver of a method, by how it is taken. -/
def receiver (isReference isMutable : Bool) : Parameter :=
  let type := if isMutable then "&mut Self" else if isReference then "&Self" else "Self"
  ⟨"self".toList, type.toList⟩

/-- A parameter whose type is given in any spelling. -/
def parameter (name type : Text) : Parameter := ⟨name, normalize type⟩

end Signature

end TestSkeleton
