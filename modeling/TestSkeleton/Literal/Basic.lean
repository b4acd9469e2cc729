import TestSkeleton.Signature

/-! What the literals of both languages share: the table of overrides and the nesting limit. -/

namespace TestSkeleton

/-- Why no literal was found for a type. -/
inductive LiteralError where
  /-- The type part is nested below the limit. -/
  | tooDeep (type : Text)
  deriving DecidableEq, Repr

namespace LiteralError

def type : LiteralError → Text
  | tooDeep t => t

def reason : LiteralError → Text
  | tooDeep _ => "type nesting is too deep to synthesize".toList

end LiteralError

namespace Literal

/-- The literal that replaces the synthesized one, for a type text. -/
abbrev Overrides := Text → Option Text

/-- How many levels of a type are visited: the type itself and 32 levels of parts. -/
def levels : Nat := 33

end Literal

end TestSkeleton
