import TestSkeleton.Case.V
import TestSkeleton.Extraction.V
import TestSkeleton.Proofs.Signature.Normal

/-! The parameters of a V function, part by part.

Reading a list of parameters lets words wait for the next type. Seen from the front, each part of the list
is one parameter: a word takes the type of the next part that has one, and where none follows the word is
a type itself. -/

namespace TestSkeleton

open Text Signature

namespace V

def Piece.isMutable : Piece → Bool
  | .word _ marked => marked
  | .named _ _ marked => marked

/-- A parameter as it is written: its name, empty when it has none, its type, and whether `mut` stands
before it. -/
structure Slot where
  name : Text
  type : Text
  isMutable : Bool
  deriving DecidableEq, Repr

namespace Slot

/-- The parameter at a place. -/
def parameter (place : Nat) (s : Slot) : Parameter :=
  Signature.parameter (if s.name.isEmpty then "arg".toList ++ ofNat place else s.name)
    (withMut s.isMutable s.type)

/-- A word and the type that follows it, if one does. -/
def ofWord (behind : Option Text) (word : Text) (isMutable : Bool) : Slot :=
  match behind with
  | some type => ⟨word, type, isMutable⟩
  | none => ⟨[], word, isMutable⟩

end Slot

/-- The type of the next part that has one. -/
def typeBehind? : List Piece → Option Text
  | [] => none
  | .word _ _ :: rest => typeBehind? rest
  | .named _ type _ :: _ => some type

/-- The parameters of a list, one for each part. -/
def slots : List Piece → List Slot
  | [] => []
  | .word word isMutable :: rest => .ofWord (typeBehind? rest) word isMutable :: slots rest
  | .named name type isMutable :: rest => ⟨name, type, isMutable⟩ :: slots rest

/-- The parts of a list of parameters. -/
def partsOf (t : Text) : List Text := (splitTopLevel t).filter (· ≠ [])

/-- What waits takes the type of the next part that has one, and the parts behind are on their own. -/
theorem resolve_eq_slots (waiting : List (Text × Bool)) (ps : List Piece) :
    resolve waiting ps =
      (waiting.map (fun w => Slot.ofWord (typeBehind? ps) w.1 w.2) ++ slots ps).map fun s =>
        (s.name, withMut s.isMutable s.type) := by
  induction ps generalizing waiting with
  | nil => simp [resolve, typeBehind?, slots, Slot.ofWord]
  | cons p ps ih =>
    cases p with
    | word word isMutable => simp [resolve, typeBehind?, slots, ih]
    | named name type isMutable => simp [resolve, typeBehind?, slots, ih, Slot.ofWord]

/-- A list of parameters has one parameter for each part. -/
theorem parameters_eq_slots (t : Text) :
    parameters t = (slots ((partsOf t).map pieceOf)).mapIdx Slot.parameter := by
  rw [parameters, ← partsOf, resolve_eq_slots, List.map_nil, List.nil_append]
  apply List.ext_getElem
  · simp
  · intro i inside _
    simp [Slot.parameter]

/-- Whether a text starts with a character that is not blank. -/
def Visible (t : Text) : Prop := ∃ c r, t = c :: r ∧ isBlank c = false

theorem Visible.of_head {t : Text} (filled : t ≠ []) (head : ∀ c ∈ t.head?, isBlank c = false) :
    Visible t := by
  obtain ⟨c, r, rfl⟩ := List.exists_cons_of_ne_nil filled
  exact ⟨c, r, rfl, head c rfl⟩

/-- The type of a part, or the word that it is. -/
def Piece.text : Piece → Text
  | .word w _ => w
  | .named _ type _ => type

/-- Behind a marker in a trimmed part something is left. -/
theorem visible_of_marked {r : Text} (trimmed : trim ("mut ".toList ++ r) = "mut ".toList ++ r) :
    Visible (trim r) := by
  apply Visible.of_head _ (head_trim r)
  intro empty
  have blanks : ∀ c ∈ ' ' :: r, isBlank c = true := by
    intro c member
    rcases List.mem_cons.mp member with rfl | inside
    · decide
    · exact isBlank_of_trim_eq_nil empty c inside
  have head : ∀ c ∈ "mut".toList.head?, isBlank c = false := by
    intro c member
    cases member
    rfl
  have last : ∀ c ∈ "mut".toList.getLast?, isBlank c = false := by
    intro c member
    cases member
    rfl
  have marker := trim_append_blanks head last blanks
  have long := congrArg List.length (trimmed.symm.trans marker)
  simp at long

theorem visible_takeWhile {t : Text} (visible : Visible t) : Visible (t.takeWhile (!isBlank ·)) := by
  obtain ⟨c, r, rfl, solid⟩ := visible
  exact ⟨c, r.takeWhile (!isBlank ·), by simp [solid], solid⟩

theorem visible_pieceOf {part : Text} (visible : Visible part) (trimmed : trim part = part) :
    Visible (pieceOf part).text := by
  unfold pieceOf
  cases marker : dropPrefix? "mut ".toList part with
  | none =>
    dsimp only
    split
    · exact visible_takeWhile visible
    · rename_i filled
      exact Visible.of_head filled (head_trimStart _)
  | some r =>
    have whole := dropPrefix?_eq_some.mp marker
    have behind := visible_of_marked (whole ▸ trimmed)
    dsimp only
    split
    · exact visible_takeWhile behind
    · rename_i filled
      exact Visible.of_head filled (head_trimStart _)

theorem visible_typeBehind? {ps : List Piece} (visible : ∀ p ∈ ps, Visible p.text) :
    ∀ type ∈ typeBehind? ps, Visible type := by
  induction ps with
  | nil =>
    intro type found
    cases found
  | cons p ps ih =>
    have later := ih fun q member => visible q (List.mem_cons_of_mem p member)
    have here := visible p List.mem_cons_self
    cases p with
    | word w marked => exact later
    | named name type marked =>
      intro other found
      obtain rfl : type = other := Option.some.inj found
      exact here

/-- The type of a parameter starts with a character that is not blank. -/
theorem visible_slots {ps : List Piece} (visible : ∀ p ∈ ps, Visible p.text) :
    ∀ s ∈ slots ps, Visible s.type := by
  induction ps with
  | nil => exact fun s member => absurd member List.not_mem_nil
  | cons p ps ih =>
    have behind : ∀ q ∈ ps, Visible q.text := fun q member => visible q (List.mem_cons_of_mem p member)
    have here := visible p List.mem_cons_self
    intro s member
    cases p with
    | word w marked =>
      rcases List.mem_cons.mp member with rfl | later
      · cases found : typeBehind? ps with
        | none => exact here
        | some type => exact visible_typeBehind? behind type found
      · exact ih behind s later
    | named name type marked =>
      rcases List.mem_cons.mp member with rfl | later
      · exact here
      · exact ih behind s later

theorem splitTopLevel_subset {t part : Text} (member : part ∈ splitTopLevel t) :
    ∃ raw, part = trim raw := by
  unfold splitTopLevel at member
  split at member
  · cases member
  · obtain ⟨raw, -, rfl⟩ := List.mem_map.mp member
    exact ⟨raw, rfl⟩

theorem visible_partsOf {t part : Text} (member : part ∈ partsOf t) : Visible (pieceOf part).text := by
  obtain ⟨inside, filled⟩ := List.mem_filter.mp member
  obtain ⟨raw, rfl⟩ := splitTopLevel_subset inside
  have nonempty : trim raw ≠ [] := by simpa using filled
  exact visible_pieceOf (Visible.of_head nonempty (head_trim raw)) (trim_trim raw)

section Marker

/-- Where a gap is kept, a character that comes next without one had none before it. -/
theorem spaceFrom_gap_ne {a c : Char} (kept : keepsBlank a c = true) (solid : isBlank c = false)
    (r tail : Text) : spaceFrom spacing (some a) true r ≠ c :: tail := by
  induction r with
  | nil => simp [spaceFrom]
  | cons d r ih =>
    cases blank : isBlank d with
    | true => simpa [spaceFrom, blank] using ih
    | false =>
      rw [spaceFrom, if_neg (by simp [blank])]
      cases spaced : spacing a d true with
      | true =>
        rw [Option.any_some, spaced, if_pos rfl, List.singleton_append]
        rintro same
        rw [← (List.cons.inj same).1] at solid
        exact absurd solid (by decide)
      | false =>
        rw [Option.any_some, spaced, if_neg (by simp), List.nil_append]
        intro same
        rw [(List.cons.inj same).1, spacing, kept] at spaced
        simp at spaced

theorem eq_cons_of_spaceFrom {a c : Char} (kept : keepsBlank a c = true) (plain : a ≠ ',')
    (solid : isBlank c = false) {r tail : Text} (spelled : spaceFrom spacing (some a) false r = c :: tail) :
    ∃ rest, r = c :: rest ∧ tail = spaceFrom spacing (some c) false rest := by
  cases r with
  | nil => cases spelled
  | cons d r =>
    cases blank : isBlank d with
    | true =>
      rw [spaceFrom, if_pos blank] at spelled
      exact absurd spelled (spaceFrom_gap_ne kept solid r tail)
    | false =>
      have tight : spacing a d false = false := by simp [spacing, plain]
      rw [spaceFrom, if_neg (by simp [blank]), Option.any_some, tight, if_neg (by simp),
        List.nil_append] at spelled
      obtain ⟨rfl, rest⟩ := List.cons.inj spelled
      exact ⟨r, rfl, rest.symm⟩

/-- A type that is spelled with the marker in front starts with the letters of the marker. -/
theorem startsWith_of_normalize {t : Text} (visible : Visible t)
    (marked : startsWith mutMark (normalize t) = true) : startsWith "mut".toList t = true := by
  obtain ⟨c, r, rfl, solid⟩ := visible
  obtain ⟨behind, marked⟩ := Option.isSome_iff_exists.mp marked
  have spelled : spaceFrom spacing none false (c :: r) = 'm' :: 'u' :: 't' :: ' ' :: behind := by
    rw [← normalize_eq_spaceFrom]
    exact dropPrefix?_eq_some.mp marked
  rw [spaceFrom, if_neg (by simp [solid]), Option.any_none, if_neg (by simp), List.nil_append] at spelled
  obtain ⟨rfl, second⟩ := List.cons.inj spelled
  obtain ⟨rest, rfl, third⟩ := eq_cons_of_spaceFrom (by decide) (by decide) (by decide) second
  obtain ⟨more, rfl, -⟩ := eq_cons_of_spaceFrom (by decide) (by decide) (by decide) third.symm
  rfl

/-- The marker stays in front of a type that a blank can stand before. -/
theorem startsWith_normalize_marked {t : Text} (visible : Visible t)
    (kept : ∀ c ∈ t.head?, keepsBlank 't' c = true) :
    startsWith mutMark (normalize (mutMark ++ t)) = true := by
  obtain ⟨c, r, rfl, solid⟩ := visible
  have apart : spacing 't' c true = true := by simp [spacing, kept c rfl]
  have letters : isBlank 'm' = false ∧ isBlank 'u' = false ∧ isBlank 't' = false ∧ isBlank ' ' = true := by
    decide
  have tight : spacing 'm' 'u' false = false ∧ spacing 'u' 't' false = false := by decide
  have spelled : normalize (mutMark ++ c :: r) = mutMark ++ c :: spaceFrom spacing (some c) false r := by
    rw [normalize_eq_spaceFrom]
    simp [mutMark, spaceFrom, letters, tight, apart, solid]
  rw [spelled, startsWith, dropPrefix?_append]
  rfl

/-- A parameter is mutable when it is marked, where its type starts neither with the letters of the marker
nor with a character that takes the blank before it. -/
theorem isMutable_parameter {s : Slot} (visible : Visible s.type)
    (kept : ∀ c ∈ s.type.head?, keepsBlank 't' c = true) (other : startsWith "mut".toList s.type = false)
    (place : Nat) : isMutable (s.parameter place) = s.isMutable := by
  cases marked : s.isMutable with
  | true =>
    simp only [isMutable, Slot.parameter, Signature.parameter, marked, withMut, if_true]
    exact startsWith_normalize_marked visible kept
  | false =>
    simp only [isMutable, Slot.parameter, Signature.parameter, marked, withMut, if_false, Bool.false_eq_true]
    rw [Bool.eq_false_iff]
    intro found
    rw [startsWith_of_normalize visible found] at other
    cases other

end Marker

end V

end TestSkeleton
