import TestSkeleton.Proofs.Signature.Normal
import TestSkeleton.Literal.Rust
import TestSkeleton.Table
import Mathlib.Data.List.Forall2

/-! Rust types as terms, their text, and their literals by recursion over the term. -/

namespace TestSkeleton.Rust

open Text Signature

/-- A name without a path: a letter or an underscore, then letters, digits and underscores. -/
structure TypeName where
  text : Text
  start : text.head?.any isIdentifierStart = true
  rest : text.tail.all isIdentifierContinue = true

/-- The length of an array, a number or a name. -/
structure ArrayLength where
  text : Text
  filled : text ≠ []
  plain : text.all isIdentifierContinue = true

def optionName : Text := "Option".toList

def resultName : Text := "Result".toList

def vecName : Text := "Vec".toList

/-- The names that wrap their arguments. -/
def wrapperNames : List Text := [optionName, resultName, vecName]

/-- A type. A generic name lists its arguments in angle brackets, and a tuple has one part at
least. -/
inductive TypeTerm where
  | unit
  | name (name : TypeName)
  | generic (name : TypeName) (plain : name.text ∉ wrapperNames) (arguments : List TypeTerm)
  | option (part : TypeTerm)
  | result (success : TypeTerm)
  | resultOr (success error : TypeTerm)
  | vec (part : TypeTerm)
  | reference (target : TypeTerm)
  | mutableReference (target : TypeTerm)
  | tuple (first : TypeTerm) (others : List TypeTerm)
  | array (element : TypeTerm) (length : ArrayLength)
  | slice (element : TypeTerm)

namespace TypeTerm

@[induction_eliminator]
theorem induction {motive : TypeTerm → Prop} (unit : motive .unit) (name : ∀ n, motive (.name n))
    (generic : ∀ n plain arguments, (∀ t ∈ arguments, motive t) → motive (.generic n plain arguments))
    (option : ∀ t, motive t → motive (.option t)) (result : ∀ t, motive t → motive (.result t))
    (resultOr : ∀ t e, motive t → motive e → motive (.resultOr t e))
    (vec : ∀ t, motive t → motive (.vec t)) (reference : ∀ t, motive t → motive (.reference t))
    (mutableReference : ∀ t, motive t → motive (.mutableReference t))
    (tuple : ∀ t ts, motive t → (∀ u ∈ ts, motive u) → motive (.tuple t ts))
    (array : ∀ t n, motive t → motive (.array t n)) (slice : ∀ t, motive t → motive (.slice t)) :
    ∀ t, motive t := by
  intro t
  refine TypeTerm.rec (motive_1 := motive) (motive_2 := fun ts => ∀ t ∈ ts, motive t) unit name
    generic option result resultOr vec reference mutableReference tuple array slice ?_ ?_ t
  · simp
  · intro head tail first others t member
    rcases List.mem_cons.mp member with rfl | member
    · exact first
    · exact others t member

/-- A name with arguments in angle brackets. -/
def applied (name : Text) (arguments : List Text) : Text :=
  name ++ ['<'] ++ join [',', ' '] arguments ++ ['>']

/-- A tuple of parts, with `gap` behind the comma when there is only one. -/
def tupleText (gap : Text) : List Text → Text
  | [part] => ['('] ++ part ++ [','] ++ gap ++ [')']
  | parts => ['('] ++ join [',', ' '] parts ++ [')']

mutual

/-- The text of a type, with `gap` behind the comma of a tuple of one part. -/
def spelled (gap : Text) : TypeTerm → Text
  | unit => ['(', ')']
  | name n => n.text
  | generic n _ arguments => applied n.text (spelledAll gap arguments)
  | option t => applied optionName [spelled gap t]
  | result t => applied resultName [spelled gap t]
  | resultOr t e => applied resultName [spelled gap t, spelled gap e]
  | vec t => applied vecName [spelled gap t]
  | reference t => ['&'] ++ spelled gap t
  | mutableReference t => ['&', 'm', 'u', 't', ' '] ++ spelled gap t
  | tuple t ts => tupleText gap (spelled gap t :: spelledAll gap ts)
  | array t n => ['['] ++ spelled gap t ++ [';', ' '] ++ n.text ++ [']']
  | slice t => ['['] ++ spelled gap t ++ [']']

def spelledAll (gap : Text) : List TypeTerm → List Text
  | [] => []
  | t :: ts => spelled gap t :: spelledAll gap ts

end

/-- A type as it is written. -/
def text (t : TypeTerm) : Text := t.spelled []

/-- A type in normal spelling, which has a space behind every comma. -/
def normal (t : TypeTerm) : Text := t.spelled [' ']

theorem spelledAll_eq_map (gap : Text) (ts : List TypeTerm) :
    spelledAll gap ts = ts.map (spelled gap) := by
  induction ts with
  | nil => rfl
  | cons t ts ih => simp [spelledAll, ih]

/-- The built-in types with a literal of their own. -/
def primitiveLiterals : List (Text × Text) :=
  ("String".toList, "\"test\".to_string()".toList) ::
    (integerTypes.map (·, "0".toList) ++ (floatTypes.map (·, "0.0".toList) ++
      [("bool".toList, "false".toList), ("char".toList, "'a'".toList)]))

/-- Whether a name begins with a capital. -/
def isCapitalized (name : Text) : Bool := name.head?.any isUpper

/-- The literal of a name: well known, built in, its default, or the general default. -/
def nameLiteral (name : Text) : Text :=
  ((wellKnownTypes.lookup name).or (primitiveLiterals.lookup name)).getD <|
    if isCapitalized name then name ++ "::default()".toList else "Default::default()".toList

/-- The literal of a name with arguments, given the text of both. Of the well-known names only
`DateTime` takes arguments. -/
def genericLiteral (name whole : Text) : Text :=
  if name = "DateTime".toList then "chrono::Utc::now()".toList
  else if isCapitalized name then ['<'] ++ whole ++ ">::default()".toList
  else "Default::default()".toList

/-- The literal of a reference that is read as one name. -/
def borrowedLiteral? : TypeTerm → Option Text
  | name n =>
    if n.text = "str".toList then some "\"test\"".toList
    else if n.text = "Path".toList then some "std::path::Path::new(\".\")".toList
    else none
  | _ => none

def someLiteral (inner : Text) : Text := "Some(".toList ++ inner ++ [')']

def okLiteral (inner : Text) : Text := "Ok(".toList ++ inner ++ [')']

def vecLiteral (inner : Text) : Text := "vec![".toList ++ inner ++ [']']

def borrowLiteral (inner : Text) : Text := "&\x7b ".toList ++ inner ++ " \x7d".toList

def mutableBorrowLiteral (inner : Text) : Text := "&mut \x7b ".toList ++ inner ++ " \x7d".toList

/-- The override for a type, by its normal spelling. -/
def override? (overrides : Table Text Text) (t : TypeTerm) : Option Text :=
  overrides.get? (normalize t.text)

mutual

/-- The literal of a type, by recursion over its parts. Only the first argument of a `Result` has a
part in it. -/
def value (overrides : Table Text Text) : TypeTerm → Text
  | unit => (override? overrides unit).getD ['(', ')']
  | name n => (override? overrides (name n)).getD (nameLiteral n.text)
  | generic n plain ts =>
    (override? overrides (generic n plain ts)).getD
      (genericLiteral n.text (normalize (generic n plain ts).text))
  | option t => (override? overrides (option t)).getD (someLiteral (value overrides t))
  | result t => (override? overrides (result t)).getD (okLiteral (value overrides t))
  | resultOr t e => (override? overrides (resultOr t e)).getD (okLiteral (value overrides t))
  | vec t => (override? overrides (vec t)).getD (vecLiteral (value overrides t))
  | reference t =>
    (override? overrides (reference t)).getD <|
      (borrowedLiteral? t).getD (borrowLiteral (value overrides t))
  | mutableReference t =>
    (override? overrides (mutableReference t)).getD (mutableBorrowLiteral (value overrides t))
  | tuple t ts =>
    (override? overrides (tuple t ts)).getD (tupleText [] (value overrides t :: values overrides ts))
  | array t n =>
    (override? overrides (array t n)).getD
      (['['] ++ value overrides t ++ [';', ' '] ++ n.text ++ [']'])
  | slice t => (override? overrides (slice t)).getD (['['] ++ value overrides t ++ [']'])

def values (overrides : Table Text Text) : List TypeTerm → List Text
  | [] => []
  | t :: ts => value overrides t :: values overrides ts

end

mutual

/-- How many levels below a type the recursion goes down. It stops at overrides and at names, and
passes over the second argument of a `Result`. -/
def visitedDepth (overrides : Table Text Text) (t : TypeTerm) : Nat :=
  if (override? overrides t).isSome then 0
  else match t with
    | unit | name _ | generic _ _ _ => 0
    | option t | result t | resultOr t _ | vec t | mutableReference t | array t _ | slice t =>
      visitedDepth overrides t + 1
    | reference t => if (borrowedLiteral? t).isSome then 0 else visitedDepth overrides t + 1
    | tuple t ts => max (visitedDepth overrides t) (visitedDepthAll overrides ts) + 1

def visitedDepthAll (overrides : Table Text Text) : List TypeTerm → Nat
  | [] => 0
  | t :: ts => max (visitedDepth overrides t) (visitedDepthAll overrides ts)

end

end TypeTerm

/-! The normal spelling of a Rust type: the text of the type with a space behind every comma. -/

/-- The characters of names. -/
def isNameChar (c : Char) : Bool := isIdentifierStart c || isIdentifierContinue c

/-- The other characters of types. -/
def typeMarks : Text := "<>()[],;& ".toList

theorem solid_of_isNameChar {c : Char} (named : isNameChar c = true) : isBlank c = false := by
  cases blank : isBlank c with
  | false => rfl
  | true =>
    simp [isNameChar, isIdentifierStart_of_isBlank blank, isIdentifierContinue_of_isBlank blank]
      at named

theorem not_mem_of_isNameChar (marks : Text) (other : marks.all (!isNameChar ·) = true) {c : Char}
    (named : isNameChar c = true) : c ∉ marks := by
  intro member
  have no := List.all_eq_true.mp other c member
  simp [named] at no

theorem TypeName.isNameChar (n : TypeName) : ∀ c ∈ n.text, Rust.isNameChar c = true := by
  obtain ⟨text, start, rest⟩ := n
  intro c member
  cases text with
  | nil => cases member
  | cons d r =>
    rcases List.mem_cons.mp member with rfl | member
    · simp only [List.head?_cons, Option.any_some] at start
      simp [Rust.isNameChar, start]
    · have continued := List.all_eq_true.mp rest c member
      simp [Rust.isNameChar, continued]

theorem TypeName.ne_nil (n : TypeName) : n.text ≠ [] := by
  intro empty
  have start := n.start
  simp [empty] at start

theorem ArrayLength.isNameChar (n : ArrayLength) : ∀ c ∈ n.text, Rust.isNameChar c = true := by
  intro c member
  have continued := List.all_eq_true.mp n.plain c member
  simp [Rust.isNameChar, continued]

/-- How a type can begin and end. -/
def startsType (c : Char) : Prop := c ∈ ['(', '[', '&'] ∨ isNameChar c = true

def endsType (c : Char) : Prop := c ∈ [')', ']', '>'] ∨ isNameChar c = true

/-- Characters before which a space behind `mut` or a semicolon stays. -/
theorem startsType.apart {c : Char} (starts : startsType c) :
    isClosing c = false ∧ c ≠ '<' ∧ c ≠ ',' := by
  rcases starts with member | named
  · simp only [List.mem_cons, List.not_mem_nil, or_false] at member
    rcases member with rfl | rfl | rfl <;> decide
  · have other := not_mem_of_isNameChar [')', ']', '>', '<', ','] (by decide) named
    simp only [List.mem_cons, List.not_mem_nil, or_false, not_or] at other
    simp [isClosing, other]

theorem endsType.ne_comma {c : Char} (ends : endsType c) : c ≠ ',' := by
  rcases ends with member | named
  · rintro rfl
    simp at member
  · rintro rfl
    exact not_mem_of_isNameChar [','] (by decide) named (by simp)

theorem settles_names {u : Text} (filled : u ≠ []) (names : ∀ c ∈ u, isNameChar c = true) :
    ∃ a z, Settles a u u z ∧ isNameChar a = true ∧ isNameChar z = true := by
  cases u with
  | nil => exact absurd rfl filled
  | cons a u =>
    obtain ⟨z, last⟩ : ∃ z, (a :: u).getLast? = some z := by simp [List.getLast?_cons]
    have clean : ∀ d ∈ a :: u, isBlank d = false ∧ d ≠ ',' := by
      intro d member
      refine ⟨solid_of_isNameChar (names d member), ?_⟩
      rintro rfl
      exact not_mem_of_isNameChar [','] (by decide) (names _ member) (by simp)
    exact ⟨a, z, Settles.solid clean last, names a (by simp), names z (List.mem_of_getLast? last)⟩

/-- A mark of one character, none of which is a comma. -/
theorem settles_marks {u : Text} {c z : Char}
    (clean : ((c :: u).all fun d => !isBlank d && d != ',') = true)
    (last : (c :: u).getLast? = some z) : Settles c (c :: u) (c :: u) z := by
  apply Settles.solid _ last
  intro d member
  have found := List.all_eq_true.mp clean d member
  simpa using found

/-- A text that is spelled as a type. -/
def SpelledAs (u v : Text) : Prop := ∃ a z, Settles a u v z ∧ startsType a ∧ endsType z

theorem SpelledAs.between {u v u' v' : Text} {a b z : Char} (front : Settles a u v z)
    (inner : SpelledAs u' v') (back : Settles b [b] [b] b) (plain : z ≠ ',') :
    Settles a (u ++ u' ++ [b]) (v ++ v' ++ [b]) b := by
  obtain ⟨c, d, settled, -, ends⟩ := inner
  exact (front.next settled plain).next back ends.ne_comma

theorem SpelledAs.join {us vs : List Text} (filled : us ≠ []) (parts : List.Forall₂ SpelledAs us vs) :
    SpelledAs (Text.join [',', ' '] us) (Text.join [',', ' '] vs) := by
  induction parts with
  | nil => exact absurd rfl filled
  | @cons u v us vs first others ih =>
    cases others with
    | nil => exact first
    | @cons u' v' us vs second others =>
      obtain ⟨a, z, front, starts, ends⟩ := first
      obtain ⟨b, y, back, -, stops⟩ := ih (by simp)
      have comma : Settles ',' [','] [','] ',' := by
        refine ⟨by decide, by decide, fun before waiting rest => ?_⟩
        simp [spaceFrom, show isBlank ',' = false by decide]
      have space : ∀ c ∈ [' '], isBlank c = true := by decide
      have whole := (front.next comma ends.ne_comma).behindComma back space
      refine ⟨a, y, ?_, starts, stops⟩
      simpa [Text.join] using whole

theorem SpelledAs.applied {name : Text} (filled : name ≠ []) (named : ∀ c ∈ name, isNameChar c = true)
    {us vs : List Text} (parts : List.Forall₂ SpelledAs us vs) :
    SpelledAs (TypeTerm.applied name us) (TypeTerm.applied name vs) := by
  obtain ⟨a, z, settled, starts, ends⟩ := settles_names filled named
  have left : Settles '<' ['<'] ['<'] '<' := settles_marks (by decide) rfl
  have right : Settles '>' ['>'] ['>'] '>' := settles_marks (by decide) rfl
  have opened := settled.next left (endsType.ne_comma (Or.inr ends))
  refine ⟨a, '>', ?_, Or.inr starts, Or.inl (by simp)⟩
  cases parts with
  | nil => simpa [TypeTerm.applied, Text.join] using opened.next right (by decide)
  | cons first others =>
    exact SpelledAs.between opened (SpelledAs.join (by simp) (.cons first others)) right (by decide)

namespace TypeTerm

theorem spelledAll_forall₂ (gap : Text) (ts : List TypeTerm)
    (parts : ∀ t ∈ ts, SpelledAs (t.spelled gap) (t.spelled [' '])) :
    List.Forall₂ SpelledAs (spelledAll gap ts) (spelledAll [' '] ts) := by
  induction ts with
  | nil => exact .nil
  | cons t ts ih =>
    exact .cons (parts t (by simp)) (ih fun u member => parts u (List.mem_cons_of_mem _ member))

theorem spelledAs_spelled (gap : Text) (blank : ∀ c ∈ gap, isBlank c = true) (t : TypeTerm) :
    SpelledAs (t.spelled gap) (t.spelled [' ']) := by
  have square : Settles ']' [']'] [']'] ']' := settles_marks (by decide) rfl
  have round : Settles ')' [')'] [')'] ')' := settles_marks (by decide) rfl
  have roundOpen : Settles '(' ['('] ['('] '(' := settles_marks (by decide) rfl
  have squareOpen : Settles '[' ['['] ['['] '[' := settles_marks (by decide) rfl
  induction t with
  | unit => exact ⟨'(', ')', settles_marks (by decide) rfl, Or.inl (by simp), Or.inl (by simp)⟩
  | name n =>
    obtain ⟨a, z, settled, starts, ends⟩ := settles_names n.ne_nil n.isNameChar
    exact ⟨a, z, settled, Or.inr starts, Or.inr ends⟩
  | generic n plain arguments ih =>
    simpa [spelled] using SpelledAs.applied n.ne_nil n.isNameChar (spelledAll_forall₂ gap arguments ih)
  | option t ih =>
    exact SpelledAs.applied (by decide) (by decide) (.cons ih .nil)
  | result t ih =>
    exact SpelledAs.applied (by decide) (by decide) (.cons ih .nil)
  | resultOr t e iht ihe =>
    exact SpelledAs.applied (by decide) (by decide) (.cons iht (.cons ihe .nil))
  | vec t ih =>
    exact SpelledAs.applied (by decide) (by decide) (.cons ih .nil)
  | reference t ih =>
    obtain ⟨c, d, settled, -, ends⟩ := ih
    have mark : Settles '&' ['&'] ['&'] '&' := settles_marks (by decide) rfl
    exact ⟨'&', d, mark.next settled (by decide), Or.inl (by simp), ends⟩
  | mutableReference t ih =>
    obtain ⟨c, d, settled, starts, ends⟩ := ih
    have mark : Settles '&' ['&', 'm', 'u', 't'] ['&', 'm', 'u', 't'] 't' :=
      settles_marks (by decide) rfl
    have kept : keepsBlank 't' c = true := by simp [keepsBlank, starts.apart]; decide
    have whole := mark.spaced settled kept
    exact ⟨'&', d, by simpa [spelled] using whole, Or.inl (by simp), ends⟩
  | tuple t ts iht ihts =>
    refine ⟨'(', ')', ?_, Or.inl (by simp), Or.inl (by simp)⟩
    cases ts with
    | nil =>
      obtain ⟨c, d, settled, -, ends⟩ := iht
      have comma : Settles ',' [','] [','] ',' := by
        refine ⟨by decide, by decide, fun before waiting rest => ?_⟩
        simp [spaceFrom, show isBlank ',' = false by decide]
      have part := (roundOpen.next settled (by decide)).next comma ends.ne_comma
      simpa [spelled, spelledAll, tupleText] using part.behindComma round blank
    | cons u ts =>
      have parts := spelledAll_forall₂ gap (t :: u :: ts) (by simpa using ⟨iht, by simpa using ihts⟩)
      simpa [spelled, spelledAll, tupleText] using
        SpelledAs.between roundOpen (SpelledAs.join (by simp [spelledAll]) parts) round (by decide)
  | array t n ih =>
    obtain ⟨c, d, settled, -, ends⟩ := ih
    obtain ⟨b, y, number, first, last⟩ := settles_names n.filled n.isNameChar
    have semicolon : Settles ';' [';'] [';'] ';' := settles_marks (by decide) rfl
    have kept : keepsBlank ';' b = true := by
      simp [keepsBlank, startsType.apart (Or.inr first)]; decide
    have element := (squareOpen.next settled (by decide)).next semicolon ends.ne_comma
    have whole := (element.spaced number kept).next square (endsType.ne_comma (Or.inr last))
    exact ⟨'[', ']', by simpa [spelled] using whole, Or.inl (by simp), Or.inl (by simp)⟩
  | slice t ih =>
    exact ⟨'[', ']', ih.between squareOpen square (by decide), Or.inl (by simp), Or.inl (by simp)⟩

theorem normalize_text (t : TypeTerm) : normalize t.text = t.normal := by
  obtain ⟨a, z, settled, -, -⟩ := spelledAs_spelled [] (by simp) t
  exact settled.normalize_eq

theorem normalize_normal (t : TypeTerm) : normalize t.normal = t.normal := by
  obtain ⟨a, z, settled, -, -⟩ := spelledAs_spelled [' '] (by decide) t
  exact settled.normalize_eq

end TypeTerm

end TestSkeleton.Rust
