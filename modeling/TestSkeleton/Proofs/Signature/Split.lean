import TestSkeleton.Proofs.Text.Basic
import TestSkeleton.Signature

/-! Splitting a text at top level gives back the parts that were joined. -/

namespace TestSkeleton.Signature

open Text

/-- The depth behind a text, when no bracket in it closes more than is open and no separator in it
stands outside all brackets. -/
def depthThrough? (separator : Text) : Nat → Option Char → Text → Option Nat
  | depth, _, [] => some depth
  | depth, previous, c :: r =>
    if depth = 0 ∧ closesDepth c ∧ ¬(c = '>' ∧ previous = some '-') then none
    else if [c] = separator ∧ depthAfter depth previous c = 0 then none
    else depthThrough? separator (depthAfter depth previous c) (some c) r

/-- A part that a list of parts can be split into. -/
def Whole (separator part : Text) : Prop := depthThrough? separator 0 none part = some 0

instance (separator part : Text) : Decidable (Whole separator part) :=
  inferInstanceAs (Decidable (_ = _))

theorem not_opensDepth_of_closesDepth {c : Char} (closes : closesDepth c = true) :
    opensDepth c = false := by
  simp only [closesDepth, Bool.or_eq_true, beq_iff_eq] at closes
  rcases closes with ((rfl | rfl) | rfl) | rfl <;> decide

theorem depthAfter_opens {c : Char} (depth : Nat) (previous : Option Char)
    (opens : opensDepth c = true) : depthAfter depth previous c = depth + 1 := by
  simp [depthAfter, opens]

theorem depthAfter_closes {c : Char} (depth : Nat) {previous : Option Char}
    (closes : closesDepth c = true) (plain : previous ≠ some '-') :
    depthAfter (depth + 1) previous c = depth := by
  simp [depthAfter, not_opensDepth_of_closesDepth closes, closes, plain]

theorem depthAfter_plain {c : Char} (depth : Nat) (previous : Option Char)
    (neutral : (opensDepth c || closesDepth c) = false) : depthAfter depth previous c = depth := by
  rw [Bool.or_eq_false_iff] at neutral
  simp [depthAfter, neutral]

/-- Only an arrow makes the previous character matter. -/
theorem depthAfter_previous {previous : Option Char} (plain : previous ≠ some '-') (depth : Nat)
    (c : Char) : depthAfter depth previous c = depthAfter depth none c := by
  simp [depthAfter, plain]

theorem depthThrough?_previous {previous : Option Char} (plain : previous ≠ some '-')
    (separator : Text) (depth : Nat) (u : Text) :
    depthThrough? separator depth previous u = depthThrough? separator depth none u := by
  cases u with
  | nil => rfl
  | cons c r => simp [depthThrough?, depthAfter_previous plain, plain]

private theorem getLast?_cons_or (c : Char) (r : Text) (previous : Option Char) :
    (c :: r).getLast?.or previous = r.getLast?.or (some c) := by
  rw [List.getLast?_cons]
  cases r.getLast? <;> simp

theorem depthThrough?_append (separator : Text) (depth : Nat) (previous : Option Char) (u v : Text) :
    depthThrough? separator depth previous (u ++ v) =
      (depthThrough? separator depth previous u).bind fun deeper =>
        depthThrough? separator deeper (u.getLast?.or previous) v := by
  induction u generalizing depth previous with
  | nil => simp [depthThrough?]
  | cons c r ih =>
    simp only [List.cons_append, depthThrough?, getLast?_cons_or]
    split
    · rfl
    · split
      · rfl
      · exact ih _ _

theorem depthAfter_add {c : Char} {depth : Nat} {previous : Option Char}
    (open' : ¬(depth = 0 ∧ closesDepth c ∧ ¬(c = '>' ∧ previous = some '-'))) (more : Nat) :
    depthAfter (depth + more) previous c = depthAfter depth previous c + more := by
  unfold depthAfter
  split
  · omega
  · split
    · rename_i closes
      simp only [Bool.and_eq_true, Bool.not_eq_true', Bool.and_eq_false_iff, beq_eq_false_iff_ne]
        at closes
      have positive : depth ≠ 0 := by
        intro zero
        apply open'
        refine ⟨zero, closes.1, ?_⟩
        rintro ⟨arrow, dash⟩
        rcases closes.2 with no | no
        · exact no arrow
        · exact no dash
      omega
    · rfl

/-- Inside more brackets a text is read the same way. -/
theorem depthThrough?_add {separator u : Text} {depth deeper : Nat} {previous : Option Char}
    (through : depthThrough? separator depth previous u = some deeper) (more : Nat) :
    depthThrough? separator (depth + more) previous u = some (deeper + more) := by
  induction u generalizing depth previous with
  | nil =>
    simp only [depthThrough?, Option.some.injEq] at through ⊢
    omega
  | cons c r ih =>
    simp only [depthThrough?] at through ⊢
    split at through
    · cases through
    · rename_i inside
      split at through
      · cases through
      · rename_i other
        have later := ih through
        rw [← depthAfter_add inside more] at later
        rw [if_neg, if_neg, later]
        · rintro ⟨same, zero⟩
          exact other ⟨same, by rw [depthAfter_add inside more] at zero; omega⟩
        · rintro ⟨zero, closes⟩
          exact inside ⟨by omega, closes⟩

theorem piecesFrom_append {separator u : Text} {depth deeper : Nat} {previous : Option Char}
    (through : depthThrough? separator depth previous u = some deeper) (current rest : Text) :
    piecesFrom separator depth previous current (u ++ rest) =
      piecesFrom separator deeper (u.getLast?.or previous) (u.reverse ++ current) rest := by
  induction u generalizing depth previous current with
  | nil =>
    simp only [depthThrough?, Option.some.injEq] at through
    simp [through]
  | cons c r ih =>
    simp only [depthThrough?] at through
    split at through
    · cases through
    · split at through
      · cases through
      · rename_i other
        have kept : ([c] == separator && depthAfter depth previous c == 0) = false := by
          simpa [Bool.eq_false_iff] using other
        simp [piecesFrom, kept, ih through, getLast?_cons_or]

/-- Characters that are neither brackets nor the separator leave the depth as it is. -/
theorem depthThrough?_plain {separator u : Text}
    (clean : ∀ c ∈ u, (opensDepth c || closesDepth c) = false ∧ [c] ≠ separator)
    (previous : Option Char) : depthThrough? separator 0 previous u = some 0 := by
  induction u generalizing previous with
  | nil => rfl
  | cons c r ih =>
    obtain ⟨neutral, other⟩ := clean c (by simp)
    have later := ih (fun d member => clean d (List.mem_cons_of_mem _ member)) (some c)
    rw [Bool.or_eq_false_iff] at neutral
    simp [depthThrough?, neutral, other, depthAfter, later]

namespace Whole

theorem nil (separator : Text) : Whole separator [] := rfl

/-- A part reads the same at every depth and behind everything but a dash. -/
theorem through {separator part : Text} (whole : Whole separator part) (depth : Nat)
    {previous : Option Char} (plain : previous ≠ some '-') :
    depthThrough? separator depth previous part = some depth := by
  rw [depthThrough?_previous plain]
  simpa using depthThrough?_add whole depth

theorem append {separator u v : Text} (front : Whole separator u) (back : Whole separator v)
    (plain : u.getLast? ≠ some '-') : Whole separator (u ++ v) := by
  rw [Whole, depthThrough?_append, front, Option.bind_some]
  exact back.through 0 (by simpa using plain)

/-- Characters that are neither brackets nor the separator. -/
theorem plain {separator u : Text}
    (clean : ∀ c ∈ u, (opensDepth c || closesDepth c) = false ∧ [c] ≠ separator) :
    Whole separator u :=
  depthThrough?_plain clean none

/-- Brackets around a text that may have separators of its own. -/
theorem between {separator u : Text} {opening closing : Char} (opens : opensDepth opening = true)
    (closes : closesDepth closing = true) (inside : depthThrough? separator 1 none u = some 1)
    (last : u.getLast? ≠ some '-') (other : [closing] ≠ separator) :
    Whole separator (opening :: (u ++ [closing])) := by
  have dash : opening ≠ '-' := by
    rintro rfl
    cases opens
  have shut : closesDepth opening = false := by
    cases found : closesDepth opening with
    | false => rfl
    | true => simp [not_opensDepth_of_closesDepth found] at opens
  have behind : u.getLast?.or (some opening) ≠ some '-' := by
    cases end' : u.getLast? with
    | none => simpa using dash
    | some c => simpa [end'] using last
  have inner : depthThrough? separator 1 (some opening) u = some 1 := by
    rw [depthThrough?_previous (by simpa using dash), inside]
  have whole : depthThrough? separator 1 (some opening) (u ++ [closing]) = some 0 := by
    rw [depthThrough?_append, inner, Option.bind_some]
    rw [depthThrough?, depthAfter_closes 0 closes behind]
    simp [depthThrough?, other]
  simpa [Whole, depthThrough?, depthAfter_opens 0 none opens, shut] using whole

end Whole

/-- Parts with one separator between neighbours are the raw pieces of the whole. -/
theorem piecesFrom_parts {mark : Char} (neutral : (opensDepth mark || closesDepth mark) = false)
    (dash : mark ≠ '-') {first : Text} {others : List Text} (whole : Whole [mark] first)
    (wholes : ∀ part ∈ others, Whole [mark] part) (previous : Option Char)
    (plain : previous ≠ some '-') :
    piecesFrom [mark] 0 previous [] (first ++ others.flatMap (mark :: ·)) = first :: others := by
  induction others generalizing first previous with
  | nil =>
    have read := piecesFrom_append (whole.through 0 plain) [] []
    simpa [piecesFrom] using read
  | cons second others ih =>
    have later := ih (wholes second (by simp))
      (fun part member => wholes part (List.mem_cons_of_mem _ member)) (some mark)
      (by simpa using dash)
    rw [piecesFrom_append (whole.through 0 plain), List.flatMap_cons, List.cons_append]
    simp only [piecesFrom, depthAfter_plain 0 _ neutral, BEq.rfl, Bool.and_self, if_true, later]
    simp

theorem join_cons_flatMap (mark : Char) (gap first : Text) (others : List Text) :
    join (mark :: gap) (first :: others) =
      first ++ (others.map (gap ++ ·)).flatMap (mark :: ·) := by
  induction others generalizing first with
  | nil => simp [join]
  | cons second others ih =>
    rw [join, ih]
    simp [List.append_assoc]

/-- The parts of a text are its raw pieces without the blanks around them. -/
theorem splitTopLevel_parts {first : Text} {others : List Text} (whole : Whole [','] first)
    (wholes : ∀ part ∈ others, Whole [','] part) (filled : others ≠ [] ∨ trim first ≠ []) :
    splitTopLevel (first ++ others.flatMap (',' :: ·)) = trim first :: others.map trim := by
  have pieces := piecesFrom_parts (by decide) (by decide) whole wholes none (by simp)
  rw [splitTopLevel, pieces, List.map_cons]
  split
  · rename_i alone
    obtain ⟨empty, none⟩ := List.cons.inj alone
    rcases filled with more | visible
    · exact absurd (List.map_eq_nil_iff.mp none) more
    · exact absurd empty visible
  · rfl

/-- No blank is a bracket, a separator or the shaft of an arrow. -/
theorem plain_of_blanks {gap : Text} (blanks : ∀ c ∈ gap, isBlank c = true) : ∀ c ∈ gap,
    ((opensDepth c || closesDepth c) = false ∧ [c] ≠ [',']) ∧ c ≠ '-' := by
  have visible : ∀ mark ∈ "<>()[]{},-".toList, isBlank mark = false := by decide
  intro c member
  have no : c ∉ "<>()[]{},-".toList := by
    intro marked
    have blank := blanks c member
    rw [visible c marked] at blank
    cases blank
  simp at no
  simp [opensDepth, closesDepth, no]

theorem whole_blanks_append {gap part : Text} (blanks : ∀ c ∈ gap, isBlank c = true)
    (whole : Whole [','] part) : Whole [','] (gap ++ part) := by
  have plain : Whole [','] gap := Whole.plain fun c member => (plain_of_blanks blanks c member).1
  apply plain.append whole
  intro last
  exact (plain_of_blanks blanks '-' (List.mem_of_getLast? last)).2 rfl

theorem whole_append_blanks {gap part : Text} (blanks : ∀ c ∈ gap, isBlank c = true)
    (whole : Whole [','] part) : Whole [','] (part ++ gap) := by
  rw [Whole, depthThrough?_append, whole, Option.bind_some]
  exact depthThrough?_plain (fun c member => (plain_of_blanks blanks c member).1) _

theorem trim_blanks_append {gap : Text} (blanks : ∀ c ∈ gap, isBlank c = true) (part : Text) :
    trim (gap ++ part) = trim part := by
  have front : trimStart (gap ++ part) = trimStart part := List.dropWhile_append_of_pos blanks
  rw [trim, front, trim]

/-- Splitting undoes joining with commas and blanks behind them. -/
theorem splitTopLevel_join {gap : Text} (blanks : ∀ c ∈ gap, isBlank c = true) {parts : List Text}
    (filled : parts ≠ []) (solid : ∀ part ∈ parts, part ≠ [] ∧ trim part = part)
    (wholes : ∀ part ∈ parts, Whole [','] part) : splitTopLevel (join (',' :: gap) parts) = parts := by
  cases parts with
  | nil => exact absurd rfl filled
  | cons first others =>
    have behind : ∀ part ∈ others.map (gap ++ ·), Whole [','] part := by
      intro part member
      obtain ⟨q, inside, rfl⟩ := List.mem_map.mp member
      exact whole_blanks_append blanks (wholes q (List.mem_cons_of_mem _ inside))
    have head := solid first (by simp)
    have tail : (others.map (gap ++ ·)).map trim = others := by
      rw [List.map_map]
      refine (List.map_congr_left fun q member => ?_).trans (List.map_id others)
      rw [Function.comp_apply, trim_blanks_append blanks]
      exact (solid q (List.mem_cons_of_mem _ member)).2
    rw [join_cons_flatMap, splitTopLevel_parts (wholes first (by simp)) behind]
    · rw [head.2, tail]
    · rw [head.2]
      exact Or.inr head.1

end TestSkeleton.Signature
