import TestSkeleton.Literal.Basic

/-! Literals of V types, recognised by the shape of their text. -/

namespace TestSkeleton.V

open Text Signature

def integerTypes : List Text :=
  ["int", "i8", "i16", "i32", "i64", "u8", "u16", "u32", "u64", "byte", "isize", "usize"].map
    String.toList

def floatTypes : List Text := ["f32", "f64"].map String.toList

def primitive? (type : Text) : Option Text :=
  if type == "time.Time".toList then some "time.now()".toList
  else if type == "string".toList then some "'test'".toList
  else if type ∈ integerTypes then some "0".toList
  else if type ∈ floatTypes then some "0.0".toList
  else if type == "bool".toList then some "false".toList
  else if type == "rune".toList then some "`a`".toList
  else none

/-- The option, result, mutable and variadic markers. Each wraps a plain value. -/
def wrappers : List Text := ["?", "!", "mut ", "..."].map String.toList

/-- The type under a marker. A marker alone wraps nothing. -/
def wrapped? (type : Text) : Option Text :=
  wrappers.findSome? fun marker => match dropPrefix? marker type with
    | some (c :: r) => some (trim (c :: r))
    | _ => none

/-- Numeric types whose elements need a conversion inside an array literal, because an untyped
number there is an `int` or an `f64`. -/
def needsConversion (type : Text) : Bool :=
  (type ∈ integerTypes && type != "int".toList) || type == "f32".toList

/-- The literal of a type in normal spelling, visiting at most the given number of levels. -/
def literalWithin (overrides : Literal.Overrides) : Nat → Text → Except LiteralError Text
  | 0, type => .error (.tooDeep type)
  | level + 1, type =>
    let part := literalWithin overrides level
    if let some literal := overrides type then .ok literal
    else if let some literal := primitive? type then .ok literal
    else if let some inner := wrapped? type then part inner
    else match type with
      | '[' :: ']' :: c :: r => do
        let element := trim (c :: r)
        let literal ← part element
        if needsConversion element then
          return ['['] ++ element ++ ['('] ++ literal ++ ")]".toList
        else return ['['] ++ literal ++ [']']
      | '&' :: c :: r => return '&' :: (← part (trim (c :: r)))
      | _ => .ok (type ++ "\x7b\x7d".toList)

/-- The literal of a V type in any spelling. -/
def literal (overrides : Literal.Overrides) (type : Text) : Except LiteralError Text :=
  literalWithin overrides Literal.levels (normalize type)

end TestSkeleton.V
