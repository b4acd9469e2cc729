import TestSkeleton.Proofs.Outcome
import TestSkeleton.Proofs.Rust.Layer

/-! The literal of a type with a layer around a part.

Unless the whole type is read as a library type, the literal is made from the literals of the parts. -/

namespace TestSkeleton.Rust

open Text Signature TypeTerm

theorem tupleOf_eq (literals : List Text) : tupleOf literals = tupleText [] literals := by
  match literals with
  | [] => rfl
  | [literal] => simp [tupleOf, tupleText]
  | first :: second :: rest => rfl

/-- What stands between the brackets of a tuple is not empty and splits into its parts. A tuple of one
part has a blank part behind its comma. -/
theorem tupleText_inside {us : List Text} (filled : us ≠ []) (pieces : ∀ u ∈ us, IsPiece u) :
    ∃ inside, tupleText [' '] us = '(' :: (inside ++ [')']) ∧ inside ≠ [] ∧
      (splitTopLevel inside).filter (· ≠ []) = us := by
  match us with
  | [] => exact absurd rfl filled
  | [u] =>
    have piece := pieces u (by simp)
    have split := splitTopLevel_parts piece.whole
      (by decide : ∀ part ∈ [[' ']], Whole [','] part) (Or.inl (by simp))
    have blank : [[' ']].map trim = [[]] := by decide
    refine ⟨u ++ [[' ']].flatMap (',' :: ·), ?_, by simp, ?_⟩
    · simp [tupleText]
    · rw [split, blank, piece.trimmed]
      simp [piece.filled]
  | u :: v :: us =>
    have solid : ∀ part ∈ u :: v :: us, (decide (part ≠ [])) = true := by
      intro part member
      simpa using (pieces part member).filled
    have split := splitTopLevel_join (by decide : ∀ c ∈ [' '], isBlank c = true) filled
      (fun part member => ⟨(pieces part member).filled, (pieces part member).trimmed⟩)
      fun part member => (pieces part member).whole
    refine ⟨join [',', ' '] (u :: v :: us), ?_, ?_, ?_⟩
    · simp [tupleText]
    · simp [join]
    · rw [split, List.filter_eq_self.mpr solid]

/-- The first argument is cut off at the comma outside all brackets. -/
theorem firstGenericArgument_join {u : Text} {others : List Text} (pieces : ∀ v ∈ u :: others, IsPiece v) :
    firstGenericArgument (join [',', ' '] (u :: others)) = u := by
  have split := splitTopLevel_join (by decide : ∀ c ∈ [' '], isBlank c = true)
    (List.cons_ne_nil u others)
    (fun part member => ⟨(pieces part member).filled, (pieces part member).trimmed⟩)
    fun part member => (pieces part member).whole
  rw [firstGenericArgument, split]
  rfl

section Rules

variable {overrides : Literal.Overrides} (level : Nat)

theorem literalWithin_override {u literal : Text} (known : overrides u = some literal) :
    literalWithin overrides (level + 1) u = .ok literal := by
  simp only [literalWithin, known]

theorem literalWithin_wellKnown {u literal : Text} (free : overrides u = none)
    (known : wellKnown? u = some literal) : literalWithin overrides (level + 1) u = .ok literal := by
  simp only [literalWithin, free, known]

/-- A name with arguments: the wrappers go on with an argument, and no other rule before the last
knows the type unless the name is well known. -/
theorem literalWithin_applied {name inside : Text} (names : ∀ c ∈ name, isNameChar c = true)
    (filled : name ≠ [])
    (trimmed : trim (name ++ '<' :: (inside ++ ['>'])) = name ++ '<' :: (inside ++ ['>']))
    (free : overrides (name ++ '<' :: (inside ++ ['>'])) = none) :
    literalWithin overrides (level + 1) (name ++ '<' :: (inside ++ ['>'])) =
      if optionName = name then (literalWithin overrides level (trim inside)).map someLiteral
      else if resultName = name then
        (literalWithin overrides level
          (if (firstGenericArgument (trim inside)).isEmpty then "()".toList
            else firstGenericArgument (trim inside))).map okLiteral
      else if vecName = name then (literalWithin overrides level (trim inside)).map vecLiteral
      else .ok (genericLiteral name (name ++ '<' :: (inside ++ ['>']))) := by
  have first : ∀ mark ∈ ['(', '[', '&'], ∀ c ∈ (name ++ '<' :: (inside ++ ['>'])).head?, c ≠ mark := by
    rintro mark listed c found rfl
    obtain ⟨d, r, shape⟩ := List.exists_cons_of_ne_nil filled
    rw [shape] at found names
    obtain rfl : d = c := Option.some.inj found
    exact not_mem_of_isNameChar ['(', '[', '&'] (by decide) (names d (by simp)) listed
  have angle : '<' ∈ name ++ '<' :: (inside ++ ['>']) := by simp
  have notText : name ++ '<' :: (inside ++ ['>']) ≠ "&str".toList :=
    fun same => absurd (same ▸ angle) (by decide)
  have notUnit : name ++ '<' :: (inside ++ ['>']) ≠ "()".toList :=
    fun same => absurd (same ▸ angle) (by decide)
  have stripped : ∀ outer ∈ wrapperNames, stripGeneric? (name ++ '<' :: (inside ++ ['>'])) outer =
      if outer = name then some (trim inside) else none := by
    intro outer listed
    have outers : ∀ c ∈ outer, isNameChar c = true :=
      (by decide : ∀ w ∈ wrapperNames, ∀ c ∈ w, isNameChar c = true) outer listed
    exact stripGeneric?_applied outers names trimmed
  have asOption := stripped "Option".toList (by decide)
  have asResult := stripped "Result".toList (by decide)
  have asVec := stripped "Vec".toList (by decide)
  have plain := dropLifetime_of_head (first '&' (by simp))
  rw [literalWithin]
  simp only [free, wellKnown?_applied filled names, asOption, asResult, asVec,
    primitive?_eq_none plain notText notUnit angle (by decide), nominal?_applied names,
    referenceParts?_eq_none (first '&' (by simp)), genericLiteral, bind_pure_eq_map,
    enclosed?_eq_none (first '(' (by simp)), enclosed?_eq_none (first '[' (by simp))]
  by_cases date : name = "DateTime".toList
  · subst date
    rfl
  · rw [if_neg date, if_neg date]
    by_cases option : "Option".toList = name
    · rw [if_pos option, if_pos (show optionName = name from option)]
      rfl
    · rw [if_neg option, if_neg (show optionName ≠ name from option)]
      by_cases result : "Result".toList = name
      · rw [if_pos result, if_pos (show resultName = name from result)]
        rfl
      · rw [if_neg result, if_neg (show resultName ≠ name from result)]
        by_cases vec : "Vec".toList = name
        · rw [if_pos vec, if_pos (show vecName = name from vec)]
          rfl
        · rw [if_neg vec, if_neg (show vecName ≠ name from vec)]
          cases isCapitalized name <;> rfl

/-- A type that begins with a mark is a reference, a tuple, an array or a slice. -/
theorem literalWithin_marked {u : Text} (trimmed : trim u = u) (plain : dropLifetime u = u)
    (marked : IsMarked u) (free : overrides u = none) (unknown : wellKnown? u = none)
    (notText : u ≠ "&str".toList) (notUnit : u ≠ "()".toList) :
    literalWithin overrides (level + 1) u =
      match referenceParts? u with
      | some (marker, target) =>
        (literalWithin overrides level target).map (marker ++ "\x7b ".toList ++ · ++ " \x7d".toList)
      | none =>
        match enclosed? '(' ')' u with
        | some inside =>
          (((splitTopLevel inside).filter (· ≠ [])).mapM (literalWithin overrides level)).map (tupleText [])
        | none =>
          match enclosed? '[' ']' u with
          | some inside =>
            match arrayParts? inside with
            | some (element, length) =>
              (literalWithin overrides level element).map (['['] ++ · ++ [';', ' '] ++ length ++ [']'])
            | none => (literalWithin overrides level (trim inside)).map (['['] ++ · ++ [']'])
          | none => .ok ((nominal? u).getD fallback) := by
  obtain ⟨c, first, mark⟩ := id marked
  have primitive := primitive?_eq_none plain notText notUnit (List.mem_of_head? first)
    ((by decide : ∀ d ∈ ['(', '[', '&'], isNameChar d = false) c mark)
  have notWrapper : ∀ outer ∈ wrapperNames, stripGeneric? u outer = none := by
    intro outer listed
    obtain ⟨filled, outers⟩ := (by decide :
      ∀ w ∈ wrapperNames, w ≠ [] ∧ ∀ c ∈ w, isNameChar c = true) outer listed
    exact stripGeneric?_marked filled outers trimmed marked
  rw [literalWithin]
  simp only [free, unknown, primitive,
    notWrapper "Option".toList (by decide), notWrapper "Result".toList (by decide),
    notWrapper "Vec".toList (by decide), tupleOf_eq, bind_pure_eq_map]
  cases referenceParts? u with
  | some parts => rfl
  | none =>
    cases enclosed? '(' ')' u with
    | some inside => rfl
    | none =>
      cases enclosed? '[' ']' u with
      | none => rfl
      | some inside =>
        dsimp only
        cases arrayParts? inside <;> rfl

/-- The literal of a `Result` is made from its first argument. -/
theorem literalWithin_resultOf {u : Text} {others : List Text} (pieces : ∀ v ∈ u :: others, IsPiece v)
    (free : overrides (applied resultName (u :: others)) = none) :
    literalWithin overrides (level + 1) (applied resultName (u :: others)) =
      (literalWithin overrides level u).map okLiteral := by
  have piece : IsPiece (applied resultName (u :: others)) := IsPiece.applied (by decide) pieces
  have filled : ¬u.isEmpty = true := by simpa using (pieces u (by simp)).filled
  have trimmed := IsPiece.trim_join pieces
  rw [applied_eq] at piece free ⊢
  rw [literalWithin_applied level (by decide) (by decide) piece.trimmed free, if_neg (by decide),
    if_pos rfl, trimmed, firstGenericArgument_join pieces, if_neg filled]

theorem literalWithin_wrapper (w : Wrapper) {u : Text} (piece : IsPiece u) (target : IsTarget u)
    (free : overrides (w.spell u) = none) (unknown : wellKnown? (w.spell u) = none)
    (notText : w.spell u ≠ "&str".toList) :
    literalWithin overrides (level + 1) (w.spell u) =
      (literalWithin overrides level u).map w.literal := by
  have trimmed := (w.isPiece_spell piece).trimmed
  cases w with
  | reference =>
    have plain := dropLifetime_reference target.quote
    rw [literalWithin_marked level trimmed plain ⟨'&', rfl, by simp⟩ free unknown notText
      (by simp [Wrapper.spell]), Wrapper.spell,
      referenceParts?_reference piece.trimmed target.quote target.notMut]
    rfl
  | mutableReference =>
    have plain := dropLifetime_reference (u := "mut ".toList ++ u) (by simp)
    rw [literalWithin_marked level trimmed plain ⟨'&', rfl, by simp⟩ free unknown notText
      (by simp [Wrapper.spell]), Wrapper.spell, referenceParts?_mutableReference piece]
    rfl
  | option =>
    rw [Wrapper.spell, applied_eq] at trimmed free ⊢
    rw [literalWithin_applied level (by decide) (by decide) trimmed free, if_pos rfl, join, piece.trimmed]
    rfl
  | result => exact literalWithin_resultOf level (by simpa using piece) free
  | resultOr error => exact literalWithin_resultOf level (by simpa using ⟨piece, error.isPiece⟩) free
  | vec =>
    rw [Wrapper.spell, applied_eq] at trimmed free ⊢
    rw [literalWithin_applied level (by decide) (by decide) trimmed free, if_neg (by decide),
      if_neg (by decide), if_pos rfl, join, piece.trimmed]
    rfl
  | array length =>
    have shape : (Wrapper.array length).spell u =
        '[' :: ((u ++ [';', ' '] ++ length.text) ++ [']']) := rfl
    have plain : dropLifetime ((Wrapper.array length).spell u) = (Wrapper.array length).spell u :=
      dropLifetime_of_head (by simp [shape])
    rw [literalWithin_marked level trimmed plain ⟨'[', rfl, by simp⟩ free unknown notText
      (by simp [shape]), referenceParts?_eq_none (by simp [shape]), shape, enclosed?_eq_none (by simp),
      enclosed?_between]
    dsimp only
    rw [arrayParts?_array piece length]
    rfl
  | slice =>
    have shape : Wrapper.slice.spell u = '[' :: (u ++ [']']) := rfl
    have plain : dropLifetime (Wrapper.slice.spell u) = Wrapper.slice.spell u :=
      dropLifetime_of_head (by simp [shape])
    rw [literalWithin_marked level trimmed plain ⟨'[', rfl, by simp⟩ free unknown notText
      (by simp [shape]), referenceParts?_eq_none (by simp [shape]), shape, enclosed?_eq_none (by simp),
      enclosed?_between]
    dsimp only
    rw [arrayParts?_slice piece.closed, piece.trimmed]
    rfl

theorem literalWithin_part (w : Wrapper) {u : Text} (part : IsPart u) (free : overrides (w.spell u) = none)
    (unknown : wellKnown? (w.spell u) = none) :
    literalWithin overrides (level + 1) (w.spell u) =
      (literalWithin overrides level u).map w.literal :=
  literalWithin_wrapper level w part.isPiece part.isTarget free unknown (w.spell_ne_text part.notText)

/-- A wrapper that is no reference. -/
theorem literalWithin_plain (w : Wrapper) (other : w.isReference = false) {u : Text} (piece : IsPiece u)
    (target : IsTarget u) (free : overrides (w.spell u) = none) :
    literalWithin overrides (level + 1) (w.spell u) =
      (literalWithin overrides level u).map w.literal := by
  have notText : w.spell u ≠ "&str".toList := by
    intro same
    obtain ⟨c, listed, first⟩ := w.head_spell u other
    rw [same] at first
    obtain rfl : '&' = c := Option.some.inj first
    exact absurd listed (by decide)
  exact literalWithin_wrapper level w piece target free (w.wellKnown?_spell u other) notText

theorem literalWithin_tupleText {us : List Text} (filled : us ≠ []) (pieces : ∀ u ∈ us, IsPiece u)
    (free : overrides (tupleText [' '] us) = none) (unknown : wellKnown? (tupleText [' '] us) = none) :
    literalWithin overrides (level + 1) (tupleText [' '] us) =
      (us.mapM (literalWithin overrides level)).map (tupleText []) := by
  obtain ⟨inside, shape, solid, parts⟩ := tupleText_inside filled pieces
  have trimmed := (IsPiece.tuple pieces).trimmed
  rw [shape] at trimmed free unknown ⊢
  have notText : '(' :: (inside ++ [')']) ≠ "&str".toList := by simp
  have notUnit : '(' :: (inside ++ [')']) ≠ "()".toList := by
    intro same
    have length := congrArg List.length same
    have none : inside.length = 0 := by simpa using length
    exact solid (List.length_eq_zero_iff.mp none)
  rw [literalWithin_marked level trimmed (dropLifetime_of_head (by simp)) ⟨'(', rfl, by simp⟩ free unknown
    notText notUnit, referenceParts?_eq_none (by simp), enclosed?_between]
  dsimp only
  rw [parts]

end Rules

theorem mapM_ok {α β ε : Type} {f : α → Except ε β} {g : α → β} {xs : List α}
    (each : ∀ x ∈ xs, f x = .ok (g x)) : xs.mapM f = .ok (xs.map g) := by
  induction xs with
  | nil => rfl
  | cons x xs ih =>
    have later := ih fun y member => each y (List.mem_cons_of_mem x member)
    rw [List.mapM_cons, each x (by simp), later]
    rfl

theorem mapM_error {α β ε : Type} {f : α → Except ε β} {xs : List α} {x : α} (member : x ∈ xs)
    {e : ε} (failed : f x = .error e) : ∃ e, xs.mapM f = .error e := by
  induction xs with
  | nil => cases member
  | cons y xs ih =>
    rw [List.mapM_cons]
    cases first : f y with
    | error e => exact ⟨e, rfl⟩
    | ok a =>
      rcases List.mem_cons.mp member with rfl | later
      · rw [failed] at first
        cases first
      · obtain ⟨e, rest⟩ := ih later
        exact ⟨e, by rw [rest]; rfl⟩

/-- The literal of `u` is found when, and only when, more levels than `depth` are visited. -/
def Finds (overrides : Literal.Overrides) (u : Text) (depth : Nat) (literal : Text) : Prop :=
  ∀ level, (depth < level → literalWithin overrides level u = .ok literal) ∧
    (level ≤ depth → ∃ e, literalWithin overrides level u = .error e)

namespace Finds

variable {overrides : Literal.Overrides}

theorem here {u literal : Text} (found : ∀ level, literalWithin overrides (level + 1) u = .ok literal) :
    Finds overrides u 0 literal := by
  intro level
  cases level with
  | zero => exact ⟨fun deep => absurd deep (Nat.lt_irrefl 0), fun _ => ⟨.tooDeep u, rfl⟩⟩
  | succ level => exact ⟨fun _ => found level, fun none => absurd none (Nat.not_succ_le_zero level)⟩

/-- A type whose literal is built from the literal of one part. -/
theorem through {u part literal : Text} {depth : Nat} (wrap : Text → Text)
    (inner : Finds overrides part depth literal)
    (step : ∀ level, literalWithin overrides (level + 1) u =
      (literalWithin overrides level part).map wrap) :
    Finds overrides u (depth + 1) (wrap literal) := by
  intro level
  cases level with
  | zero => exact ⟨fun deep => absurd deep (Nat.not_lt_zero _), fun _ => ⟨.tooDeep u, rfl⟩⟩
  | succ level =>
    obtain ⟨found, failed⟩ := inner level
    constructor
    · intro deep
      rw [step, found (Nat.lt_of_succ_lt_succ deep)]
      rfl
    · intro shallow
      obtain ⟨e, error⟩ := failed (Nat.le_of_succ_le_succ shallow)
      exact ⟨e, by rw [step, error]; rfl⟩

end Finds

end TestSkeleton.Rust
