import TestSkeleton.Literal.Basic
import TestSkeleton.Signature

/-! Literals of Rust types.

A type is recognised by its shape alone, through an ordered list of rules; the first rule that
knows the shape gives the literal. No name is resolved. -/

namespace TestSkeleton.Rust

open Text Signature

def integerTypes : List Text :=
  ["i8", "i16", "i32", "i64", "i128", "isize", "u8", "u16", "u32", "u64", "u128", "usize"].map
    String.toList

def floatTypes : List Text := ["f32", "f64"].map String.toList

def textTypes : List Text := ["String", "&str"].map String.toList

/-- A reference without its lifetime: `&'a T` gives `&T`. -/
def dropLifetime : Text → Text
  | '&' :: '\'' :: r =>
    if r.head?.any isWord then '&' :: trimStart (r.dropWhile isWord) else '&' :: '\'' :: r
  | t => t

/-- Library types with a literal of their own, by the last segment of their path. -/
def wellKnownTypes : List (Text × Text) :=
  [("PathBuf", "std::path::PathBuf::from(\".\")"),
   ("Path", "std::path::Path::new(\".\")"),
   ("Uuid", "uuid::Uuid::new_v4()"),
   ("Url", "url::Url::parse(\"https://example.com\").unwrap()"),
   ("DateTime", "chrono::Utc::now()"),
   ("NaiveDate", "chrono::NaiveDate::from_ymd_opt(2024, 1, 1).unwrap()"),
   ("Duration", "std::time::Duration::from_secs(1)")].map fun (k, v) => (k.toList, v.toList)

/-- The literal of a library type. Only `DateTime` is known with generic arguments, and a reference
only to `Path`. -/
def wellKnown? (type : Text) : Option Text :=
  let text := match type with
    | '&' :: r => if lastSegment r == "Path".toList then r else type
    | _ => type
  let name := baseName text
  let short := lastSegment name
  match wellKnownTypes.lookup short with
  | none => none
  | some literal =>
    if name ≠ text ∧ short ≠ "DateTime".toList then none
    else if short == "Duration".toList && startsWith "chrono::".toList name then
      some "chrono::Duration::seconds(1)".toList
    else some literal

def primitive? (type : Text) : Option Text :=
  let text := dropLifetime type
  if text == "String".toList then some "\"test\".to_string()".toList
  else if text == "&str".toList then some "\"test\"".toList
  else if text ∈ integerTypes then some "0".toList
  else if text ∈ floatTypes then some "0.0".toList
  else if text == "bool".toList then some "false".toList
  else if text == "char".toList then some "'a'".toList
  else if text == "()".toList then some "()".toList
  else none

/-- The text between two brackets that open and close the whole type. -/
def enclosed? (opening closing : Char) : Text → Option Text
  | [] => none
  | c :: r => if c = opening ∧ r.getLast? = some closing then some r.dropLast else none

/-- The marker and the target of a reference type. -/
def referenceParts? (type : Text) : Option (Text × Text) :=
  match dropLifetime type with
  | '&' :: r =>
    let target := trim r
    match dropPrefix? "mut ".toList target with
    | some rest => some ("&mut ".toList, trim rest)
    | none => some (['&'], target)
  | _ => none

/-- Element and length of the inside of an array type, cut at its last semicolon. -/
def arrayParts? (inside : Text) : Option (Text × Text) :=
  match cutAt? (· == ';') inside.reverse with
  | some (length, element) =>
    if length ≠ [] ∧ ']' ∉ length ∧ element ≠ [] then
      some (trim element.reverse, trim length.reverse)
    else none
  | none => none

/-- The default value of a type that looks user-defined. -/
def nominal? (type : Text) : Option Text :=
  if isNominal type then
    if '<' ∈ type then some (['<'] ++ type ++ ">::default()".toList)
    else some (type ++ "::default()".toList)
  else none

def fallback : Text := "Default::default()".toList

/-- A tuple of the given literals. -/
def tupleOf : List Text → Text
  | [literal] => ['('] ++ literal ++ ",)".toList
  | literals => ['('] ++ join ", ".toList literals ++ [')']

/-- The literal of a type in normal spelling, visiting at most the given number of levels. -/
def literalWithin (overrides : Literal.Overrides) : Nat → Text → Except LiteralError Text
  | 0, type => .error (.tooDeep type)
  | level + 1, type =>
    let part := literalWithin overrides level
    if let some literal := overrides type then .ok literal
    else if let some literal := wellKnown? type then .ok literal
    else if let some literal := primitive? type then .ok literal
    else if let some inner := stripGeneric? type "Option".toList then
      return "Some(".toList ++ (← part inner) ++ [')']
    else if let some inner := stripGeneric? type "Result".toList then
      let first := firstGenericArgument inner
      return "Ok(".toList ++ (← part (if first.isEmpty then "()".toList else first)) ++ [')']
    else if let some inner := stripGeneric? type "Vec".toList then
      return "vec![".toList ++ (← part inner) ++ [']']
    else if let some (marker, target) := referenceParts? type then
      return marker ++ "\x7b ".toList ++ (← part target) ++ " \x7d".toList
    else if let some inside := enclosed? '(' ')' type then
      return tupleOf (← ((splitTopLevel inside).filter (· ≠ [])).mapM part)
    else if let some inside := enclosed? '[' ']' type then
      match arrayParts? inside with
      | some (element, length) => return ['['] ++ (← part element) ++ "; ".toList ++ length ++ [']']
      | none => return ['['] ++ (← part (trim inside)) ++ [']']
    else .ok ((nominal? type).getD fallback)

/-- The literal of a Rust type in any spelling. -/
def literal (overrides : Literal.Overrides) (type : Text) : Except LiteralError Text :=
  literalWithin overrides Literal.levels (normalize type)

end TestSkeleton.Rust
