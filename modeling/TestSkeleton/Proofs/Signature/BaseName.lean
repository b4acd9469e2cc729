import TestSkeleton.Signature
import TestSkeleton.Proofs.Text.Basic
import Mathlib.Data.List.TakeWhile

/-! The base name of a type, cut once and trimmed once. -/

namespace TestSkeleton.Signature

open Text

theorem takeWhile_trimStart {p : Char → Bool} (blanks : ∀ c, isBlank c = true → p c = true) (t : Text) :
    (trimStart t).takeWhile p = trimStart (t.takeWhile p) := by
  induction t with
  | nil => rfl
  | cons c r ih =>
    rw [trimStart, trimStart] at ih ⊢
    cases blank : isBlank c with
    | true => simp [blank, blanks c blank, ih]
    | false => cases inside : p c <;> simp [blank, inside]

/-- Blanks at the end do not matter to what a text is cut down to, when the cut is at no blank. -/
theorem trimEnd_takeWhile_trimEnd {p : Char → Bool} (blanks : ∀ c, isBlank c = true → p c = true)
    (t : Text) : trimEnd ((trimEnd t).takeWhile p) = trimEnd (t.takeWhile p) := by
  obtain ⟨tail, whole, blank⟩ := exists_dropEndWhile_append isBlank t
  have taken : tail.takeWhile p = tail :=
    List.takeWhile_eq_self_iff.mpr fun c member => blanks c (blank c member)
  have cut := congrArg (List.takeWhile p) whole
  rw [List.takeWhile_append, taken] at cut
  rw [trimEnd, trimEnd, trimEnd, cut]
  split
  · rename_i full
    have kept : (dropEndWhile isBlank t).takeWhile p = dropEndWhile isBlank t :=
      (List.takeWhile_prefix p).eq_of_length full
    rw [kept, dropEndWhile_append blank]
  · rfl

theorem trimStart_trim (t : Text) : trimStart (trim t) = trim t := by
  obtain ⟨tail, whole, -⟩ := exists_dropEndWhile_append isBlank (trimStart t)
  cases kept : trim t with
  | nil => rfl
  | cons c r =>
    have stop := List.head?_dropWhile_not isBlank t
    rw [trim, trimEnd] at kept
    rw [kept, trimStart] at whole
    rw [whole] at stop
    rw [trimStart, List.dropWhile_cons_of_neg (by simpa using stop)]

/-- A base name is what stands before the first bracket, without blanks at its ends. -/
theorem baseName_eq_trim_takeWhile (t : Text) :
    baseName t = trim (t.takeWhile fun c => c ≠ '<' ∧ c ≠ '[') := by
  have blanks : ∀ c, isBlank c = true → decide (c ≠ '<' ∧ c ≠ '[') = true := by
    intro c blank
    rw [decide_eq_true_iff]
    constructor <;> rintro rfl <;> cases blank
  have once : ∀ u : Text, beforeFirst '[' (beforeFirst '<' u) = u.takeWhile fun c => c ≠ '<' ∧ c ≠ '[' := by
    intro u
    rw [beforeFirst, beforeFirst, List.takeWhile_takeWhile]
    congr 1
    funext c
    simp [and_comm]
  rw [baseName, once]
  calc trim ((trim t).takeWhile fun c => c ≠ '<' ∧ c ≠ '[')
      = trimEnd ((trimStart (trim t)).takeWhile fun c => c ≠ '<' ∧ c ≠ '[') := by
        rw [takeWhile_trimStart blanks, trim]
    _ = trimEnd ((trimStart t).takeWhile fun c => c ≠ '<' ∧ c ≠ '[') := by
        rw [trimStart_trim, trim, trimEnd_takeWhile_trimEnd blanks]
    _ = trim (t.takeWhile fun c => c ≠ '<' ∧ c ≠ '[') := by
        rw [takeWhile_trimStart blanks, trim]

/-- What stands before the first bracket is its own base name. -/
theorem baseName_run {run behind : Text} (clean : ∀ c ∈ run, c ≠ '<' ∧ c ≠ '[')
    (stopped : ∀ c ∈ behind.head?, c = '<' ∨ c = '[') (trimmed : trim run = run) :
    baseName (run ++ behind) = run := by
  have taken : (run ++ behind).takeWhile (fun c => decide (c ≠ '<' ∧ c ≠ '[')) = run := by
    refine takeWhile_run (fun c member => by simpa using clean c member) fun c first => ?_
    rcases stopped c first with rfl | rfl <;> decide
  rw [baseName_eq_trim_takeWhile, taken, trimmed]

/-- Behind a text without brackets the rest is cut as it would be alone. -/
theorem baseName_behind {front t : Text} (filled : front ≠ []) (head : ∀ c ∈ front.head?, isBlank c = false)
    (clean : ∀ c ∈ front, c ≠ '<' ∧ c ≠ '[') {c : Char} (first : t.head? = some c)
    (visible : isBlank c = false) (plain : c ≠ '<' ∧ c ≠ '[') :
    baseName (front ++ t) = front ++ baseName t := by
  have start : (t.takeWhile fun c => decide (c ≠ '<' ∧ c ≠ '[')).head? = some c := by
    cases t with
    | nil => cases first
    | cons d t =>
      obtain rfl : d = c := Option.some.inj first
      rw [List.takeWhile_cons_of_pos (by simpa using plain), List.head?_cons]
  rw [baseName_eq_trim_takeWhile, baseName_eq_trim_takeWhile,
    List.takeWhile_append_of_pos (by simpa using clean), trim_append filled head start visible]

/-- Nothing behind a bracket is looked at. -/
theorem baseName_bracket {front : Text} (bracket : ∃ c ∈ front, c = '<' ∨ c = '[') (t : Text) :
    baseName (front ++ t) = baseName front := by
  have stopped : ¬∀ c ∈ front, decide (c ≠ '<' ∧ c ≠ '[') = true := by
    intro all
    obtain ⟨c, member, bracket⟩ := bracket
    have clean := of_decide_eq_true (all c member)
    exact bracket.elim clean.1 clean.2
  have short : (front.takeWhile fun c => decide (c ≠ '<' ∧ c ≠ '[')).length ≠ front.length := fun full =>
    stopped (List.takeWhile_eq_self_iff.mp ((List.takeWhile_prefix _).eq_of_length full))
  rw [baseName_eq_trim_takeWhile, baseName_eq_trim_takeWhile, List.takeWhile_append, if_neg short]

/-! The last segment of a path.

A segment reaches back to the last double colon. What stands in front of that does not matter, and where
there is none the whole text is one segment. -/

theorem afterLast?_eq_none {mark : Char} {sep t : Text} (absent : mark ∉ t) :
    afterLast? (mark :: sep) t = none := by
  induction t with
  | nil => rfl
  | cons c r ih =>
    have other : mark ≠ c := by
      rintro rfl
      exact absent List.mem_cons_self
    have later := ih fun member => absent (List.mem_cons_of_mem c member)
    simp [afterLast?, later, dropPrefix?, other]

theorem lastSegment_eq_self {t : Text} (absent : ':' ∉ t) : lastSegment t = t := by
  have none : afterLast? "::".toList t = none := afterLast?_eq_none absent
  rw [lastSegment, none, Option.getD_none]

/-- No double colon begins in a text without colons. -/
theorem afterLast?_append {front : Text} (absent : ':' ∉ front) (t : Text) :
    afterLast? "::".toList (front ++ t) = afterLast? "::".toList t := by
  induction front with
  | nil => rfl
  | cons c r ih =>
    have other : ':' ≠ c := by
      rintro rfl
      exact absent List.mem_cons_self
    have later := ih fun member => absent (List.mem_cons_of_mem c member)
    have none : dropPrefix? "::".toList (c :: (r ++ t)) = none := by
      rw [show "::".toList = ':' :: [':'] from rfl, dropPrefix?, if_neg other]
    rw [List.cons_append, afterLast?, later, none, Option.or_none]

/-- A double colon in front makes what follows a path of its own. -/
theorem afterLast?_separated (front : Text) {segment : Text} (absent : ':' ∉ segment) :
    afterLast? "::".toList (front ++ "::".toList ++ segment) = some segment := by
  induction front with
  | nil =>
    have inner : afterLast? "::".toList (':' :: segment) = none := by
      cases segment with
      | nil => rfl
      | cons c r =>
        have other : ':' ≠ c := by
          rintro rfl
          exact absent List.mem_cons_self
        have later : afterLast? "::".toList (c :: r) = none := afterLast?_eq_none absent
        rw [afterLast?, later, show "::".toList = ':' :: [':'] from rfl, dropPrefix?, if_pos rfl,
          dropPrefix?, if_neg other]
        rfl
    rw [List.nil_append, show "::".toList ++ segment = ':' :: ':' :: segment from rfl, afterLast?, inner]
    rfl
  | cons c front ih =>
    rw [List.cons_append, List.cons_append, afterLast?, ih]
    rfl

theorem lastSegment_separated (front : Text) {segment : Text} (absent : ':' ∉ segment) :
    lastSegment (front ++ "::".toList ++ segment) = segment := by
  rw [lastSegment, afterLast?_separated front absent, Option.getD_some]

theorem suffix_of_afterLast? {t segment : Text} (found : afterLast? "::".toList t = some segment) :
    segment <:+ t := by
  induction t with
  | nil => cases found
  | cons c r ih =>
    rw [afterLast?, Option.or_eq_some_iff] at found
    rcases found with later | ⟨-, here⟩
    · exact (ih later).trans (List.suffix_cons c r)
    · rw [dropPrefix?_eq_some] at here
      exact here ▸ List.suffix_append _ _

theorem lastSegment_suffix (t : Text) : lastSegment t <:+ t := by
  rw [lastSegment]
  cases found : afterLast? "::".toList t with
  | none => exact List.suffix_refl t
  | some segment => exact suffix_of_afterLast? found

/-- What stands in front of a double colon does not matter. -/
theorem afterLast?_of_some (front : Text) {t segment : Text}
    (found : afterLast? "::".toList t = some segment) :
    afterLast? "::".toList (front ++ t) = some segment := by
  induction front with
  | nil => exact found
  | cons c front ih =>
    rw [List.cons_append, afterLast?, ih]
    rfl

/-- The last segment reaches back over everything without a double colon. -/
theorem lastSegment_append_mark (front : Text) {mark : Char} (other : mark ≠ ':') {t : Text}
    (none : afterLast? "::".toList (mark :: t) = none) :
    ∃ lead, lastSegment (front ++ mark :: t) = lead ++ mark :: t := by
  induction front with
  | nil => exact ⟨[], by rw [lastSegment, List.nil_append, none]; rfl⟩
  | cons c front ih =>
    obtain ⟨lead, later⟩ := ih
    rw [lastSegment] at later ⊢
    rw [List.cons_append, afterLast?]
    cases found : afterLast? "::".toList (front ++ mark :: t) with
    | some segment =>
      rw [found] at later
      exact ⟨lead, later⟩
    | none =>
      cases here : dropPrefix? "::".toList (c :: (front ++ mark :: t)) with
      | none => exact ⟨c :: front, rfl⟩
      | some rest =>
        rw [dropPrefix?_eq_some] at here
        have tail : front ++ mark :: t = ':' :: rest := List.tail_eq_of_cons_eq here
        cases front with
        | nil => exact absurd (List.head_eq_of_cons_eq tail) other
        | cons d front => exact ⟨front, (List.tail_eq_of_cons_eq tail).symm⟩

/-- Marks in front of a type either leave its last segment as it is or begin it. -/
theorem lastSegment_behind {marks u : Text} {mark : Char} (first : marks.head? = some mark)
    (visible : isBlank mark = false) (clean : ∀ c ∈ marks, c ≠ '<' ∧ c ≠ '[' ∧ c ≠ ':')
    (head : ∀ c ∈ u.head?, isBlank c = false) :
    afterLast? "::".toList (baseName u) = some (lastSegment (baseName (marks ++ u))) ∨
      (lastSegment (baseName (marks ++ u))).head? = some mark := by
  have filled : marks ≠ [] := by
    rintro rfl
    cases first
  have solid : ∀ c ∈ marks.head?, isBlank c = false := by
    intro c found
    obtain rfl : mark = c := Option.some.inj (first.symm.trans found)
    exact visible
  have absent : ':' ∉ marks := fun member => (clean ':' member).2.2 rfl
  have unbracketed : ∀ c ∈ marks, c ≠ '<' ∧ c ≠ '[' := fun c member =>
    ⟨(clean c member).1, (clean c member).2.1⟩
  by_cases stopped : ∀ c ∈ u.head?, c = '<' ∨ c = '['
  · right
    have taken : (marks ++ u).takeWhile (fun c => decide (c ≠ '<' ∧ c ≠ '[')) = marks := by
      refine takeWhile_run (fun c member => by simpa using unbracketed c member) fun c start => ?_
      rcases stopped c start with rfl | rfl <;> decide
    have colon : ':' ∉ trim marks := fun member => absent (mem_of_mem_trim member)
    obtain ⟨d, r, rfl⟩ := List.exists_cons_of_ne_nil filled
    obtain rfl : d = mark := Option.some.inj first
    obtain ⟨rest, shape⟩ := trim_cons_solid r visible
    rw [baseName_eq_trim_takeWhile (_ ++ u), taken, lastSegment_eq_self colon, shape]
    rfl
  · simp only [not_forall, not_or] at stopped
    obtain ⟨c, start, plain⟩ := stopped
    rw [baseName_behind filled solid unbracketed start (head c start) plain, lastSegment,
      afterLast?_append absent]
    cases path : afterLast? "::".toList (baseName u) with
    | some segment => exact Or.inl rfl
    | none => exact Or.inr (by rw [Option.getD_none, List.head?_append, first]; rfl)

end TestSkeleton.Signature
