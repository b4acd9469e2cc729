import TestSkeleton.Text.Basic

/-! Patterns for one name: `*` stands for any characters, `?` for one, and brackets for one
character of a class. -/

namespace TestSkeleton

/-- A member of a bracketed class. -/
inductive ClassItem where
  | single (c : Char)
  | range (first last : Char)
  deriving DecidableEq, Repr

namespace ClassItem

def has (c : Char) : ClassItem → Bool
  | single d => c == d
  | range first last => first ≤ c && c ≤ last

/-- A range that runs backwards holds no character. -/
def isEmpty : ClassItem → Bool
  | single _ => false
  | range first last => last < first

/-- The members between two brackets. A hyphen between two characters is a range. -/
def read : Text → List ClassItem
  | a :: '-' :: b :: r => range a b :: read r
  | a :: r => single a :: read r
  | [] => []

end ClassItem

inductive NamePiece where
  | many
  | one
  | char (c : Char)
  | oneOf (negated : Bool) (items : List ClassItem)
  deriving DecidableEq, Repr

/-- A pattern for one name. -/
abbrev NamePattern := List NamePiece

namespace NamePiece

/-- The class with that content. The exclamation mark that negates a class is looked for again
among the members that are left when backward ranges are dropped. -/
def ofClass (content : Text) : NamePiece :=
  match Text.dropPrefix? ['!'] content with
  | some r => oneOf true ((ClassItem.read r).filter (!·.isEmpty))
  | none => match (ClassItem.read content).filter (!·.isEmpty) with
    | .single '!' :: items => oneOf true items
    | .range '!' last :: items => oneOf true (.single '-' :: .single last :: items)
    | items => oneOf false items

/-- Whether a piece other than `many` stands for that character. -/
def admitsChar (c : Char) : NamePiece → Bool
  | many => false
  | one => true
  | char d => c == d
  | oneOf negated items => items.any (·.has c) != negated

end NamePiece

namespace NamePattern

/-- The content of a class and the text behind it, given the text behind the opening bracket. A
closing bracket that comes first, or first after an exclamation mark, is a member. -/
def cutClass? (t : Text) : Option (Text × Text) :=
  let lead := match t with
    | '!' :: ']' :: _ => ['!', ']']
    | '!' :: _ => ['!']
    | ']' :: _ => [']']
    | _ => []
  (Text.cutAt? (· == ']') (t.drop lead.length)).map fun (content, rest) => (lead ++ content, rest)

/-- Reads a pattern of which every step takes one character at least. -/
def readWithin : Nat → Text → NamePattern
  | 0, _ => []
  | _ + 1, [] => []
  | steps + 1, c :: r =>
    match c with
    | '*' => .many :: readWithin steps r
    | '?' => .one :: readWithin steps r
    | '[' => match cutClass? r with
      | some (content, rest) => NamePiece.ofClass content :: readWithin steps rest
      | none => .char '[' :: readWithin steps r
    | _ => .char c :: readWithin steps r

def read (t : Text) : NamePattern := readWithin t.length t

def admits : NamePattern → Text → Bool
  | [], name => name.isEmpty
  | .many :: p, name => (Text.endsAfter (fun _ => true) name).any (admits p)
  | piece :: p, name => match name with
    | [] => false
    | c :: r => piece.admitsChar c && admits p r

end NamePattern

end TestSkeleton
