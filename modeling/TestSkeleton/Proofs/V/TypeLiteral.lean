import TestSkeleton.Proofs.Table
import TestSkeleton.Proofs.Signature.Normal
import TestSkeleton.Literal.V
import TestSkeleton.Policy

/-! Literals of V types by recursion over the markers in front of a type.

A marker is peeled off the text, so the recursion goes on with the text of the part. In a text in normal
spelling that text is itself in normal spelling, and overrides are looked up by it. -/

namespace TestSkeleton.V

open Text Signature

/-- What can stand in front of a type. -/
inductive Marker where
  | option
  | result
  | mutable
  | variadic
  | array
  | reference
  deriving DecidableEq, Repr

def Marker.text : Marker → Text
  | option => "?".toList
  | result => "!".toList
  | mutable => "mut ".toList
  | variadic => "...".toList
  | array => "[]".toList
  | reference => "&".toList

/-- A type without a marker in front: a name, a map or an array of fixed length. -/
structure LeafType where
  text : Text
  visible : text.head?.any solid = true
  plain : ∀ marker : Marker, dropPrefix? marker.text text = none

/-- A type: markers, one in front of the other, and the type without one behind them. -/
inductive TypeTerm where
  | leaf (type : LeafType)
  | marked (marker : Marker) (part : TypeTerm)

/-- The built-in types with a literal of their own. -/
def primitiveLiterals : List (Text × Text) :=
  ("time.Time".toList, "time.now()".toList) :: ("string".toList, "'test'".toList) ::
    (integerTypes.map (·, "0".toList) ++ (floatTypes.map (·, "0.0".toList) ++
      [("bool".toList, "false".toList), ("rune".toList, "`a`".toList)]))

/-- The literal of a type without a marker: built in, or the type with no fields given. -/
def LeafType.literal (type : LeafType) : Text :=
  (primitiveLiterals.lookup type.text).getD (type.text ++ "\x7b\x7d".toList)

namespace TypeTerm

def text : TypeTerm → Text
  | leaf type => type.text
  | marked marker part => marker.text ++ part.text

/-- Whether a type is numeric and has not the type of an untyped number. -/
def isConverted : TypeTerm → Bool
  | leaf type =>
    (type.text ∈ integerTypes ∨ type.text ∈ floatTypes) ∧ type.text ≠ "int".toList ∧
      type.text ≠ "f64".toList
  | marked _ _ => false

end TypeTerm

/-- The literal of a marked type, given the literal of the type behind the marker. -/
def Marker.wrap (part : TypeTerm) (inner : Text) : Marker → Text
  | option | result | mutable | variadic => inner
  | array =>
    if part.isConverted then ['['] ++ part.text ++ ['('] ++ inner ++ ")]".toList
    else ['['] ++ inner ++ [']']
  | reference => '&' :: inner

namespace TypeTerm

/-- The literal of a type, by recursion over its markers. -/
def value (overrides : Table Text Text) : TypeTerm → Text
  | leaf type => (overrides.get? type.text).getD type.literal
  | marked marker part =>
    (overrides.get? (marked marker part).text).getD (marker.wrap part (part.value overrides))

/-- How many levels below a type the recursion goes down. It stops at overrides. -/
def visitedDepth (overrides : Table Text Text) : TypeTerm → Nat
  | leaf _ => 0
  | marked marker part =>
    if (overrides.get? (marked marker part).text).isSome then 0 else part.visitedDepth overrides + 1

/-- The type behind a number of markers, or behind all of them. -/
def behind : Nat → TypeTerm → TypeTerm
  | count + 1, marked _ part => part.behind count
  | _, t => t

end TypeTerm

section Shape

theorem visible_head (t : TypeTerm) : ∃ c r, t.text = c :: r ∧ isBlank c = false := by
  cases t with
  | leaf type =>
    have visible := type.visible
    cases shape : type.text with
    | nil => simp [shape] at visible
    | cons c r =>
      rw [shape] at visible
      exact ⟨c, r, shape, by simpa [solid] using visible⟩
  | marked marker part =>
    cases marker <;> exact ⟨_, _, rfl, by decide⟩

/-- What stands behind a marker in normal spelling is in normal spelling. -/
theorem normal_part {marker : Marker} {part : TypeTerm}
    (normal : normalize (TypeTerm.marked marker part).text = (TypeTerm.marked marker part).text) :
    normalize part.text = part.text := by
  obtain ⟨c, r, shape, visible⟩ := visible_head part
  rw [TypeTerm.text, shape] at normal
  rw [shape]
  exact normalize_behind visible normal

theorem primitive?_eq (u : Text) : primitive? u = primitiveLiterals.lookup u := by
  simp only [primitive?, primitiveLiterals, Table.lookup_cons_eq_ite,
    Table.lookup_map_const_append, List.lookup_nil]

/-- The characters that markers begin with. -/
def markerHeads : Text := ['?', '!', 'm', '.', '[', '&']

theorem Marker.head (marker : Marker) (behind : Text) :
    ∃ c ∈ (marker.text ++ behind).head?, c ∈ markerHeads := by
  cases marker <;> exact ⟨_, rfl, by decide⟩

theorem primitiveLiterals_heads : ∀ entry ∈ primitiveLiterals, ∀ c ∈ entry.1.head?.toList,
    c ∉ markerHeads := by
  decide

/-- No built-in type begins with a marker. -/
theorem primitive?_marked (marker : Marker) (behind : Text) :
    primitive? (marker.text ++ behind) = none := by
  obtain ⟨c, first, mark⟩ := marker.head behind
  rw [primitive?_eq]
  apply Table.lookup_eq_none_of_keys
  intro entry member same
  exact primitiveLiterals_heads entry member c (same ▸ Option.mem_toList.mpr first) mark

/-- Whether a type is converted is read off its text. -/
theorem needsConversion_text (t : TypeTerm) : needsConversion t.text = t.isConverted := by
  cases t with
  | leaf type =>
    have apart : "f64".toList ∉ integerTypes ∧ "int".toList ∉ floatTypes := by decide
    have floats : ∀ u : Text, u ∈ floatTypes ↔ u = "f32".toList ∨ u = "f64".toList := by
      simp [floatTypes]
    rw [Bool.eq_iff_iff]
    simp only [needsConversion, TypeTerm.isConverted, TypeTerm.text, Bool.or_eq_true, Bool.and_eq_true,
      decide_eq_true_iff, bne_iff_ne, beq_iff_eq]
    constructor
    · rintro (⟨integer, other⟩ | float)
      · have member := of_decide_eq_true integer
        exact ⟨Or.inl member, other, fun same => apart.1 (same ▸ member)⟩
      · rw [float]
        decide
    · rintro ⟨integer | float, notInt, notDouble⟩
      · exact Or.inl ⟨decide_eq_true integer, notInt⟩
      · exact Or.inr (((floats _).mp float).resolve_right notDouble)
  | marked marker part =>
    obtain ⟨c, first, mark⟩ := marker.head part.text
    have heads : ∀ u ∈ "f32".toList :: integerTypes, ∀ d ∈ u.head?.toList, d ∉ markerHeads := by
      decide
    have other : marker.text ++ part.text ∉ "f32".toList :: integerTypes :=
      fun listed => heads _ listed c (Option.mem_toList.mpr first) mark
    rw [List.mem_cons, not_or] at other
    have notFloat : (marker.text ++ part.text == "f32".toList) = false := by
      rw [beq_eq_false_iff_ne]
      exact other.1
    rw [TypeTerm.text, TypeTerm.isConverted, needsConversion, notFloat, decide_eq_false other.2]
    rfl

/-- The four markers that stand for no value of their own are peeled off. -/
theorem wrapped?_marked (marker : Marker) {part : TypeTerm} (trimmed : trim part.text = part.text) :
    wrapped? (TypeTerm.marked marker part).text =
      match marker with
      | .array | .reference => none
      | .option | .result | .mutable | .variadic => some part.text := by
  obtain ⟨c, r, shape, -⟩ := visible_head part
  rw [shape] at trimmed
  cases marker <;> simp [TypeTerm.text, Marker.text, wrapped?, wrappers, dropPrefix?, shape, trimmed]

theorem wrapped?_leaf (type : LeafType) : wrapped? type.text = none := by
  have markers : ∀ w ∈ wrappers, ∃ marker : Marker, w = marker.text := by
    intro w member
    simp only [wrappers, List.map_cons, List.map_nil, List.mem_cons, List.not_mem_nil, or_false]
      at member
    rcases member with rfl | rfl | rfl | rfl
    · exact ⟨.option, rfl⟩
    · exact ⟨.result, rfl⟩
    · exact ⟨.mutable, rfl⟩
    · exact ⟨.variadic, rfl⟩
  rw [wrapped?, List.findSome?_eq_none_iff]
  intro w listed
  obtain ⟨marker, rfl⟩ := markers w listed
  rw [type.plain marker]

end Shape

section Rules

variable {overrides : Literal.Overrides} (level : Nat)

theorem literalWithin_override {u literal : Text} (known : overrides u = some literal) :
    literalWithin overrides (level + 1) u = .ok literal := by
  rw [literalWithin.eq_def]
  simp only [known]

theorem literalWithin_leaf (type : LeafType) (free : overrides type.text = none) :
    literalWithin overrides (level + 1) type.text = .ok type.literal := by
  have notArray : ∀ c r, type.text ≠ '[' :: ']' :: c :: r := by
    intro c r shape
    have plain := type.plain .array
    simp [Marker.text, shape, dropPrefix?] at plain
  have notReference : ∀ c r, type.text ≠ '&' :: c :: r := by
    intro c r shape
    have plain := type.plain .reference
    simp [Marker.text, shape, dropPrefix?] at plain
  rw [literalWithin]
  · simp only [free, primitive?_eq, wrapped?_leaf, LeafType.literal]
    cases primitiveLiterals.lookup type.text <;> rfl
  · exact notArray
  · exact notReference

/-- A marked type goes on with the type behind the marker. -/
theorem literalWithin_marked (marker : Marker) {part : TypeTerm} (trimmed : trim part.text = part.text)
    (free : overrides (TypeTerm.marked marker part).text = none) :
    literalWithin overrides (level + 1) (TypeTerm.marked marker part).text =
      (literalWithin overrides level part.text).map (marker.wrap part) := by
  have notPrimitive : primitive? (TypeTerm.marked marker part).text = none :=
    primitive?_marked marker part.text
  have wrapped := wrapped?_marked marker trimmed
  obtain ⟨c, r, shape, -⟩ := visible_head part
  rw [literalWithin.eq_def]
  simp only [free, notPrimitive, wrapped]
  cases marker with
  | array =>
    have whole : (TypeTerm.marked .array part).text = '[' :: ']' :: c :: r := by
      rw [TypeTerm.text, shape]
      rfl
    have element : trim (c :: r) = part.text := by rw [← shape, trimmed]
    rw [whole]
    simp only [element, needsConversion_text, Marker.wrap]
    cases literalWithin overrides level part.text with
    | error e => rfl
    | ok literal => cases part.isConverted <;> rfl
  | reference =>
    have whole : (TypeTerm.marked .reference part).text = '&' :: c :: r := by
      rw [TypeTerm.text, shape]
      rfl
    have target : trim (c :: r) = part.text := by rw [← shape, trimmed]
    rw [whole]
    simp only [target]
    cases literalWithin overrides level part.text <;> rfl
  | option | result | mutable | variadic =>
    dsimp only [Marker.wrap]
    cases literalWithin overrides level part.text <;> rfl

end Rules

/-- Level by level the recursion goes on behind the next marker. It fails at the type behind as many
markers as there are levels. -/
theorem literalWithin_text (policy : Policy) (level : Nat) {t : TypeTerm}
    (normal : normalize t.text = t.text) :
    literalWithin policy.typeMapping? level t.text =
      if t.visitedDepth policy.typeMappings < level then .ok (t.value policy.typeMappings)
      else .error (.tooDeep (t.behind level).text) := by
  induction t generalizing level with
  | leaf type =>
    cases level with
    | zero => rfl
    | succ level =>
      rw [TypeTerm.visitedDepth, if_pos (Nat.succ_pos level), TypeTerm.value]
      have looked : policy.typeMapping? type.text = policy.typeMappings.get? type.text :=
        congrArg policy.typeMappings.get? normal
      cases known : policy.typeMappings.get? type.text with
      | some literal => exact literalWithin_override level (looked.trans known)
      | none => exact literalWithin_leaf level type (looked.trans known)
  | marked marker part ih =>
    cases level with
    | zero => rfl
    | succ level =>
      have inner := normal_part normal
      have looked : policy.typeMapping? (TypeTerm.marked marker part).text =
          policy.typeMappings.get? (TypeTerm.marked marker part).text :=
        congrArg policy.typeMappings.get? normal
      rw [TypeTerm.visitedDepth, TypeTerm.value, TypeTerm.behind]
      cases known : policy.typeMappings.get? (TypeTerm.marked marker part).text with
      | some literal => exact literalWithin_override level (looked.trans known)
      | none =>
        rw [literalWithin_marked level marker (trim_eq_of_normal inner) (looked.trans known),
          ih level inner]
        by_cases shallow : part.visitedDepth policy.typeMappings < level
        · simp [shallow, Except.map]
        · simp [shallow, Except.map]

/-- The literal of a type follows the markers in front of it, for every table of overrides. Synthesis
fails exactly when the recursion goes on behind more than 32 markers. -/
theorem literal_eq_value (policy : Policy) (t : TypeTerm) {u : Text} (spelled : normalize u = t.text) :
    literal policy.typeMapping? u =
      if t.visitedDepth policy.typeMappings ≤ 32 then .ok (t.value policy.typeMappings)
      else .error (.tooDeep (t.behind 33).text) := by
  have normal : normalize t.text = t.text := by rw [← spelled, normalize_normalize]
  rw [literal, spelled, literalWithin_text policy Literal.levels normal]
  simp only [Literal.levels, Nat.lt_succ_iff]

def floatType : LeafType where
  text := "f32".toList
  visible := by decide
  plain marker := by cases marker <;> decide

theorem literal_every_marker :
    normalize "mut  ...[]?!& []f32".toList = "mut ...[]?!&[]f32".toList ∧
      literal Policy.default.typeMapping? "mut  ...[]?!& []f32".toList =
        .ok "[&[f32(0.0)]]".toList := by
  have spelled : normalize "mut  ...[]?!& []f32".toList = "mut ...[]?!&[]f32".toList := by decide
  have found := literal_eq_value Policy.default
    (.marked .mutable (.marked .variadic (.marked .array (.marked .option (.marked .result
      (.marked .reference (.marked .array (.leaf floatType)))))))) spelled
  exact ⟨spelled, found.trans (by decide)⟩

end TestSkeleton.V
