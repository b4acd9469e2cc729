import Mathlib.Data.List.TakeWhile
import TestSkeleton.Text.Basic
import Mathlib.Data.List.Infix

/-! Laws of trimming, cutting and joining texts. -/

namespace TestSkeleton.Text

/-- What holds of every character of a text is decided along the text. -/
instance (priority := high) decidableForallMem (t : Text) (p : Char → Prop) [DecidablePred p] :
    Decidable (∀ c, c ∈ t → p c) :=
  List.decidableBAll p t

theorem dropPrefix?_eq_some {lead t r : Text} : dropPrefix? lead t = some r ↔ t = lead ++ r := by
  induction lead generalizing t with
  | nil => simp [dropPrefix?, eq_comm]
  | cons a lead ih =>
    cases t with
    | nil => simp [dropPrefix?]
    | cons c t =>
      by_cases same : a = c
      · simp [dropPrefix?, same, ih]
      · simp [dropPrefix?, same, Ne.symm same]

@[simp] theorem dropPrefix?_append (lead r : Text) : dropPrefix? lead (lead ++ r) = some r :=
  dropPrefix?_eq_some.mpr rfl

theorem dropSuffix?_eq_some {tail t front : Text} :
    dropSuffix? tail t = some front ↔ t = front ++ tail := by
  rw [dropSuffix?, Option.map_eq_some_iff]
  constructor
  · rintro ⟨back, dropped, rfl⟩
    have turned := congrArg List.reverse (dropPrefix?_eq_some.mp dropped)
    rwa [List.reverse_reverse, List.reverse_append, List.reverse_reverse] at turned
  · rintro rfl
    exact ⟨front.reverse, by simp, List.reverse_reverse front⟩

theorem dropPrefix?_eq_none_of_not_mem {lead t : Text} {c : Char} (wanted : c ∈ lead)
    (absent : c ∉ t) : dropPrefix? lead t = none := by
  cases found : dropPrefix? lead t with
  | none => rfl
  | some r =>
    rw [dropPrefix?_eq_some] at found
    exact absurd (found ▸ List.mem_append_left r wanted) absent

/-- A prefix without the mark cannot reach beyond it. -/
theorem dropPrefix?_append_mark {lead : Text} {mark : Char} (absent : mark ∉ lead) (run behind : Text) :
    dropPrefix? lead (run ++ mark :: behind) = (dropPrefix? lead run).map (· ++ mark :: behind) := by
  induction lead generalizing run with
  | nil => rfl
  | cons a lead ih =>
    obtain ⟨differ, later⟩ := List.ne_and_not_mem_of_not_mem_cons absent
    cases run with
    | nil => simp [dropPrefix?, Ne.symm differ]
    | cons c run =>
      by_cases same : a = c
      · simp [dropPrefix?, same, ih later]
      · simp [dropPrefix?, same]

/-- A prefix does not reach into a text that begins with none of its characters. -/
theorem startsWith_append {lead behind : Text} (apart : ∀ c ∈ behind.head?, c ∉ lead) (run : Text) :
    startsWith lead (run ++ behind) = startsWith lead run := by
  cases behind with
  | nil => rw [List.append_nil]
  | cons mark behind =>
    rw [startsWith, startsWith, dropPrefix?_append_mark (apart mark rfl), Option.isSome_map]

theorem contains_eq_false_of_not_mem {part t : Text} {c : Char} (wanted : c ∈ part) (absent : c ∉ t) :
    contains part t = false := by
  induction t with
  | nil =>
    cases part with
    | nil => cases wanted
    | cons d part => rfl
  | cons d t ih =>
    have later : c ∉ t := fun member => absent (List.mem_cons_of_mem d member)
    rw [contains, startsWith, dropPrefix?_eq_none_of_not_mem wanted absent, ih later]
    rfl

/-- What cannot go on in the second text is found in one of the two. -/
theorem contains_append {a : Char} {part behind : Text} (apart : ∀ c ∈ behind.head?, c ∉ part)
    (front : Text) :
    contains (a :: part) (front ++ behind) =
      (contains (a :: part) front || contains (a :: part) behind) := by
  induction front with
  | nil => rfl
  | cons c front ih =>
    have here : startsWith (a :: part) (c :: (front ++ behind)) = startsWith (a :: part) (c :: front) := by
      have inside := startsWith_append apart front
      rw [startsWith] at inside ⊢
      rw [startsWith] at inside ⊢
      by_cases same : a = c
      · simpa [dropPrefix?, same] using inside
      · simp [dropPrefix?, same]
    rw [List.cons_append, contains, contains, here, ih, Bool.or_assoc]

theorem contains_flatten {a : Char} {part : Text} {pieces : List Text}
    (apart : ∀ piece ∈ pieces, ∀ c ∈ piece.head?, c ∉ part) :
    contains (a :: part) pieces.flatten = pieces.any (contains (a :: part)) := by
  induction pieces with
  | nil => rfl
  | cons piece pieces ih =>
    have others := ih fun one member => apart one (List.mem_cons_of_mem _ member)
    have head : ∀ c ∈ pieces.flatten.head?, c ∉ part := by
      intro c first
      rw [List.head?_flatten] at first
      rcases List.exists_of_findSome?_eq_some first with ⟨one, member, found⟩
      exact apart one (List.mem_cons_of_mem _ member) c found
    rw [List.flatten_cons, contains_append head, others, List.any_cons]

/-- A prefix that ends in a mark is told from a run of other characters by what follows the run. -/
theorem dropPrefix?_marked (q : Char → Bool) {lead run behind : Text} {mark : Char}
    (inLead : ∀ c ∈ lead, q c = true) (inRun : ∀ c ∈ run, q c = true) (other : q mark = false)
    (stopped : ∀ c ∈ behind.head?, q c = false) :
    dropPrefix? (lead ++ [mark]) (run ++ behind) =
      if lead = run then dropPrefix? [mark] behind else none := by
  induction lead generalizing run with
  | nil =>
    cases run with
    | nil => simp
    | cons c run =>
      have differ : mark ≠ c := by
        rintro rfl
        rw [inRun mark (by simp)] at other
        cases other
      simp [dropPrefix?, differ]
  | cons a lead ih =>
    cases run with
    | nil =>
      cases behind with
      | nil => simp [dropPrefix?]
      | cons c behind =>
        have differ : a ≠ c := by
          rintro rfl
          have no := stopped a rfl
          rw [inLead a (by simp)] at no
          cases no
        simp [dropPrefix?, differ]
    | cons c run =>
      by_cases same : a = c
      · subst same
        have deeper := ih (fun d member => inLead d (List.mem_cons_of_mem _ member))
          (fun d member => inRun d (List.mem_cons_of_mem _ member))
        simpa [dropPrefix?] using deeper
      · simp [dropPrefix?, same]

theorem splitWhere_ne_nil (p : Char → Bool) (t : Text) : splitWhere p t ≠ [] := by
  cases t with
  | nil => simp [splitWhere]
  | cons c r =>
    simp only [splitWhere]
    split
    · simp
    · split <;> simp

theorem words_cons_blank {c : Char} (r : Text) (blank : isBlank c = true) :
    words (c :: r) = words r := by
  simp [words, splitWhere, blank]

theorem words_cons_solid {c : Char} (r : Text) (visible : isBlank c = false) :
    ∃ piece rest, splitWhere isBlank r = piece :: rest ∧
      words (c :: r) = (c :: piece) :: rest.filter (· ≠ []) := by
  cases pieces : splitWhere isBlank r with
  | nil => exact absurd pieces (splitWhere_ne_nil isBlank r)
  | cons piece rest => exact ⟨piece, rest, rfl, by simp [words, splitWhere, visible, pieces]⟩

theorem join_cons (sep piece : Text) (rest : List Text) :
    join sep (piece :: rest) = piece ++ if rest = [] then [] else sep ++ join sep rest := by
  cases rest with
  | nil => simp [join]
  | cons next rest => simp [join]

theorem not_mem_of_mem_splitWhere {p : Char → Bool} {c : Char} (found : p c = true) {t piece : Text}
    (member : piece ∈ splitWhere p t) : c ∉ piece := by
  induction t generalizing piece with
  | nil =>
    rw [splitWhere, List.mem_singleton] at member
    simp [member]
  | cons d r ih =>
    rw [splitWhere] at member
    split at member
    · rcases List.mem_cons.mp member with rfl | later
      · simp
      · exact ih later
    · rename_i other
      have apart : c ≠ d := by
        rintro rfl
        exact other found
      split at member
      · rw [List.mem_singleton.mp member]
        simpa using apart
      · rename_i first rest pieces
        rw [pieces] at ih
        rcases List.mem_cons.mp member with rfl | later
        · simpa [apart] using ih List.mem_cons_self
        · exact ih (List.mem_cons_of_mem first later)

/-- Cuts are told by which characters of the text mark them. -/
theorem splitWhere_congr {p q : Char → Bool} {t : Text} (same : ∀ c ∈ t, p c = q c) :
    splitWhere p t = splitWhere q t := by
  induction t with
  | nil => rfl
  | cons c r ih =>
    rw [splitWhere, splitWhere, same c List.mem_cons_self, ih fun d member => same d (List.mem_cons_of_mem c member)]

theorem splitWhere_eq_self {p : Char → Bool} {t : Text} (clean : ∀ c ∈ t, p c = false) :
    splitWhere p t = [t] := by
  induction t with
  | nil => rfl
  | cons c r ih =>
    simp [splitWhere, clean c (by simp), ih fun d member => clean d (List.mem_cons_of_mem c member)]

theorem splitWhere_append_mark {p : Char → Bool} {front : Text} {mark : Char} (behind : Text)
    (clean : ∀ c ∈ front, p c = false) (marks : p mark = true) :
    splitWhere p (front ++ mark :: behind) = front :: splitWhere p behind := by
  induction front with
  | nil => simp [splitWhere, marks]
  | cons c front ih =>
    have later := ih fun d member => clean d (List.mem_cons_of_mem c member)
    rw [List.cons_append, splitWhere, clean c List.mem_cons_self, if_neg (by simp), later]

/-- The pieces around a mark are the pieces before it and the pieces behind it. -/
theorem splitWhere_append {p : Char → Bool} {mark : Char} (front behind : Text)
    (marks : p mark = true) :
    splitWhere p (front ++ mark :: behind) = splitWhere p front ++ splitWhere p behind := by
  induction front with
  | nil => simp [splitWhere, marks]
  | cons c front ih =>
    rw [List.cons_append, splitWhere, splitWhere, ih]
    split
    · rfl
    · cases pieces : splitWhere p front with
      | nil => exact absurd pieces (splitWhere_ne_nil p front)
      | cons piece rest => rfl

/-- Splitting undoes joining. -/
theorem splitOn_join {sep : Char} {pieces : List Text} (filled : pieces ≠ [])
    (plain : ∀ piece ∈ pieces, sep ∉ piece) : splitOn sep (join [sep] pieces) = pieces := by
  have clean : ∀ piece ∈ pieces, ∀ c ∈ piece, (c == sep) = false := by
    intro piece member c inside
    rw [beq_eq_false_iff_ne]
    rintro rfl
    exact plain piece member inside
  rw [splitOn]
  induction pieces with
  | nil => exact absurd rfl filled
  | cons piece rest ih =>
    cases rest with
    | nil => exact splitWhere_eq_self (clean piece List.mem_cons_self)
    | cons next rest =>
      have later := ih (by simp) (fun q member => plain q (List.mem_cons_of_mem _ member))
        (fun q member => clean q (List.mem_cons_of_mem _ member))
      have shape : join [sep] (piece :: next :: rest) = piece ++ sep :: join [sep] (next :: rest) := by
        simp [join]
      rw [shape, splitWhere_append_mark _ (clean piece List.mem_cons_self) (by simp), later]

theorem join_eq_flatMap (sep piece : Text) (rest : List Text) :
    join sep (piece :: rest) = piece ++ rest.flatMap (sep ++ ·) := by
  induction rest generalizing piece with
  | nil => simp [join]
  | cons next rest ih => simp [join, ih]

/-- The separators stand behind the pieces before one of them and in front of the others. -/
theorem join_append_cons (sep : Text) (front : List Text) (piece : Text) (back : List Text) :
    join sep (front ++ piece :: back) =
      front.flatMap (· ++ sep) ++ piece ++ back.flatMap (sep ++ ·) := by
  induction front with
  | nil => simp [join_eq_flatMap]
  | cons first front ih => simp [join_cons, ih]

theorem join_append_singleton (sep piece : Text) (pieces : List Text) :
    join sep (pieces ++ [piece]) = pieces.flatMap (· ++ sep) ++ piece := by
  induction pieces with
  | nil => simp [join]
  | cons first rest ih => simp [join_cons, ih]

theorem not_mem_join {c : Char} {sep : Text} {pieces : List Text} (outside : c ∉ sep)
    (absent : ∀ piece ∈ pieces, c ∉ piece) : c ∉ join sep pieces := by
  induction pieces with
  | nil => simp [join]
  | cons piece rest ih =>
    have later := ih fun q member => absent q (List.mem_cons_of_mem piece member)
    rw [join_cons]
    split <;> simp [absent piece, outside, later]

theorem join_splitOn (sep : Char) (t : Text) : join [sep] (splitOn sep t) = t := by
  induction t with
  | nil => rfl
  | cons c r ih =>
    rw [splitOn, splitWhere]
    rw [splitOn] at ih
    cases pieces : splitWhere (· == sep) r with
    | nil => exact absurd pieces (splitWhere_ne_nil _ r)
    | cons piece rest =>
      rw [pieces] at ih
      by_cases same : c = sep
      · have again : [sep] ++ join [sep] (piece :: rest) = sep :: r := by simp [ih]
        simpa [same, join_cons [sep] []] using again
      · have again : c :: join [sep] (piece :: rest) = c :: r := by rw [ih]
        simpa [same, join_cons] using again

/-! Runs of characters of a class, and what is cut off behind them. -/

theorem takeWhile_run {α : Type} {p : α → Bool} {run behind : List α} (inside : ∀ c ∈ run, p c = true)
    (stop : ∀ c ∈ behind.head?, p c = false) : (run ++ behind).takeWhile p = run := by
  rw [List.takeWhile_append_of_pos inside]
  cases behind with
  | nil => simp
  | cons c r => simp [stop c rfl]

theorem dropWhile_run {α : Type} {p : α → Bool} {run behind : List α} (inside : ∀ c ∈ run, p c = true)
    (stop : ∀ c ∈ behind.head?, p c = false) : (run ++ behind).dropWhile p = behind := by
  rw [List.dropWhile_append_of_pos inside]
  cases behind with
  | nil => rfl
  | cons c r => simp [stop c rfl]

/-- A run of characters of a class is found by where it ends. -/
theorem run_unique {p : Char → Bool} {a b u v : Text} (as : ∀ c ∈ a, p c = true)
    (bs : ∀ c ∈ b, p c = true) (us : ∀ c ∈ u.head?, p c = false) (vs : ∀ c ∈ v.head?, p c = false)
    (same : a ++ u = b ++ v) : a = b ∧ u = v := by
  constructor
  · rw [← takeWhile_run as us, same, takeWhile_run bs vs]
  · rw [← dropWhile_run as us, same, dropWhile_run bs vs]

theorem dropEndWhile_append {p : Char → Bool} {t tail : Text} (taken : ∀ c ∈ tail, p c = true) :
    dropEndWhile p (t ++ tail) = dropEndWhile p t := by
  rw [dropEndWhile, dropEndWhile, List.reverse_append,
    List.dropWhile_append_of_pos fun c member => taken c (List.mem_reverse.mp member)]

theorem exists_dropEndWhile_append (p : Char → Bool) (t : Text) :
    ∃ tail, t = dropEndWhile p t ++ tail ∧ ∀ c ∈ tail, p c = true := by
  refine ⟨(t.reverse.takeWhile p).reverse, ?_, fun c member => ?_⟩
  · rw [dropEndWhile, ← List.reverse_append, List.takeWhile_append_dropWhile, List.reverse_reverse]
  · exact List.all_eq_true.mp List.all_takeWhile c (List.mem_reverse.mp member)

/-- What is taken at both ends, behind a text whose own ends stay, is all that is taken. -/
theorem trimMatches_append {p : Char → Bool} {t tail : Text} (head : ∀ c ∈ t.head?, p c = false)
    (last : ∀ c ∈ t.getLast?, p c = false) (taken : ∀ c ∈ tail, p c = true) :
    trimMatches p (t ++ tail) = t := by
  have tailEnd : dropEndWhile p (t ++ tail) = t := by
    have kept : t.reverse.dropWhile p = t.reverse := by
      cases back : t.reverse with
      | nil => rfl
      | cons c r =>
        have stays : p c = false := by
          apply last c
          rw [← List.head?_reverse, back]
          rfl
        simp [stays]
    rw [dropEndWhile_append taken, dropEndWhile, kept, List.reverse_reverse]
  cases t with
  | nil =>
    have none : (tail ++ []).dropWhile p = [] := List.dropWhile_append_of_pos taken
    rw [List.append_nil] at none
    simp [trimMatches, none, dropEndWhile]
  | cons c r =>
    have stays : p c = false := head c rfl
    have front : (c :: r ++ tail).dropWhile p = c :: r ++ tail := by simp [stays]
    rw [trimMatches, front, tailEnd]

theorem trimMatches_eq_self {p : Char → Bool} {t : Text} (head : ∀ c ∈ t.head?, p c = false)
    (last : ∀ c ∈ t.getLast?, p c = false) : trimMatches p t = t := by
  have none : ∀ c ∈ ([] : Text), p c = true := by simp
  simpa using trimMatches_append head last none

/-- Blanks behind a text whose two ends are not blank are all that trimming takes. -/
theorem trim_append_blanks {t tail : Text} (head : ∀ c ∈ t.head?, isBlank c = false)
    (last : ∀ c ∈ t.getLast?, isBlank c = false) (blanks : ∀ c ∈ tail, isBlank c = true) :
    trim (t ++ tail) = t :=
  trimMatches_append head last blanks

theorem trim_eq_self {t : Text} (head : ∀ c ∈ t.head?, isBlank c = false)
    (last : ∀ c ∈ t.getLast?, isBlank c = false) : trim t = t :=
  trimMatches_eq_self head last

/-- Trimming leaves the first character where it is not blank. -/
theorem trim_cons_solid {c : Char} (r : Text) (visible : isBlank c = false) :
    ∃ rest, trim (c :: r) = c :: rest := by
  have front : trimStart (c :: r) = c :: r := by simp [trimStart, visible]
  have kept : ∀ back : Text, ∃ most, (back ++ [c]).dropWhile isBlank = most ++ [c] := by
    intro back
    induction back with
    | nil => exact ⟨[], by simp [visible]⟩
    | cons d back ih =>
      by_cases blank : isBlank d = true
      · simpa [blank] using ih
      · exact ⟨d :: back, by simp [blank]⟩
  obtain ⟨most, shape⟩ := kept r.reverse
  exact ⟨most.reverse, by simp [trim, front, trimEnd, dropEndWhile, shape]⟩

theorem head_dropWhile (p : Char → Bool) (t : Text) : ∀ c ∈ (t.dropWhile p).head?, p c = false := by
  induction t with
  | nil =>
    intro c first
    cases first
  | cons d t ih =>
    cases taken : p d with
    | true => rwa [List.dropWhile_cons_of_pos taken]
    | false =>
      rw [List.dropWhile_cons_of_neg (by simp [taken])]
      intro c first
      obtain rfl : d = c := Option.some.inj first
      exact taken

theorem head_trimStart (t : Text) : ∀ c ∈ (trimStart t).head?, isBlank c = false :=
  head_dropWhile isBlank t

/-- A trimmed text does not start with a blank. -/
theorem head_trim (t : Text) : ∀ c ∈ (trim t).head?, isBlank c = false := by
  intro c first
  obtain ⟨tail, whole, -⟩ := exists_dropEndWhile_append isBlank (trimStart t)
  apply head_trimStart t c
  rw [whole, List.head?_append, ← trimEnd, ← trim, Option.mem_def.mp first]
  rfl

theorem last_trim (t : Text) : ∀ c ∈ (trim t).getLast?, isBlank c = false := by
  intro c last
  rw [trim, trimEnd, dropEndWhile, List.getLast?_reverse] at last
  exact head_dropWhile isBlank _ c last

theorem trim_trim (t : Text) : trim (trim t) = trim t := trim_eq_self (head_trim t) (last_trim t)

theorem isBlank_of_trim_eq_nil {t : Text} (empty : trim t = []) : ∀ c ∈ t, isBlank c = true := by
  cases start : trimStart t with
  | nil => exact List.dropWhile_eq_nil_iff.mp start
  | cons c r =>
    have solid := head_trimStart t c (by rw [start]; rfl)
    obtain ⟨rest, kept⟩ := trim_cons_solid r solid
    rw [trim, trimStart, List.dropWhile_cons_of_neg (by simp [solid]), ← start, ← trim, empty] at kept
    cases kept

theorem solid_append {u v : Text} (front : ∀ c ∈ u.head?, isBlank c = false)
    (behind : ∀ c ∈ v.head?, isBlank c = false) : ∀ c ∈ (u ++ v).head?, isBlank c = false := by
  cases u with
  | nil => exact behind
  | cons d r => exact front

theorem mem_of_mem_trim {c : Char} {t : Text} (member : c ∈ trim t) : c ∈ t := by
  simp only [trim, trimEnd, dropEndWhile, trimStart, List.mem_reverse] at member
  have front := (List.dropWhile_sublist isBlank).mem member
  exact (List.dropWhile_sublist isBlank).mem (List.mem_reverse.mp front)

/-- A text in front keeps its blanks when what follows begins with no blank. -/
theorem trim_append {front t : Text} (filled : front ≠ []) (head : ∀ c ∈ front.head?, isBlank c = false)
    {c : Char} (first : t.head? = some c) (visible : isBlank c = false) :
    trim (front ++ t) = front ++ trim t := by
  obtain ⟨d, r, rfl⟩ := List.exists_cons_of_ne_nil filled
  cases t with
  | nil => cases first
  | cons e t =>
    obtain rfl : e = c := Option.some.inj first
    obtain ⟨tail, whole, blanks⟩ := exists_dropEndWhile_append isBlank (e :: t)
    have kept : trim (e :: t) = dropEndWhile isBlank (e :: t) := by
      rw [trim, trimStart, List.dropWhile_cons_of_neg (by simp [visible]), trimEnd]
    obtain ⟨rest, shape⟩ := trim_cons_solid t visible
    have last := last_trim (e :: t)
    rw [← kept] at whole
    have ends : trim (d :: r ++ trim (e :: t) ++ tail) = d :: r ++ trim (e :: t) := by
      refine trim_append_blanks (by simpa using head) (fun z found => ?_) blanks
      rw [List.getLast?_append, Option.or_of_isSome (by simp [shape])] at found
      exact last z found
    rwa [List.append_assoc, ← whole] at ends

theorem cutAt?_append {p : Char → Bool} {front : Text} {mark : Char} (behind : Text)
    (clean : ∀ c ∈ front, p c = false) (found : p mark = true) :
    cutAt? p (front ++ mark :: behind) = some (front, behind) := by
  induction front with
  | nil => simp [cutAt?, found]
  | cons c front ih =>
    have later := ih fun d member => clean d (List.mem_cons_of_mem _ member)
    simp [cutAt?, clean c (by simp), later]

/-- What a cut gives back is the text around the first character that is looked for. -/
theorem cutAt?_eq_some {p : Char → Bool} {t front behind : Text}
    (cut : cutAt? p t = some (front, behind)) :
    ∃ mark, p mark = true ∧ t = front ++ mark :: behind ∧ ∀ c ∈ front, p c = false := by
  induction t generalizing front with
  | nil => simp [cutAt?] at cut
  | cons c r ih =>
    by_cases found : p c = true
    · simp only [cutAt?, found, if_true, Option.some.injEq, Prod.mk.injEq] at cut
      obtain ⟨rfl, rfl⟩ := cut
      exact ⟨c, found, rfl, by simp⟩
    · simp only [cutAt?, found, if_false, Option.map_eq_some_iff, Bool.false_eq_true] at cut
      obtain ⟨⟨a, b⟩, inner, same⟩ := cut
      obtain ⟨rfl, rfl⟩ := Prod.mk.inj same
      obtain ⟨mark, marked, shape, clean⟩ := ih inner
      refine ⟨mark, marked, by simp [shape], ?_⟩
      intro d member
      rcases List.mem_cons.mp member with rfl | member
      · simpa using found
      · exact clean d member

/-! Where a text occurs in another one. -/

theorem startsWith_iff_prefix {lead t : Text} : startsWith lead t = true ↔ lead <+: t := by
  rw [startsWith, Option.isSome_iff_exists]
  constructor
  · rintro ⟨r, found⟩
    exact ⟨r, (dropPrefix?_eq_some.mp found).symm⟩
  · rintro ⟨r, whole⟩
    exact ⟨r, dropPrefix?_eq_some.mpr whole.symm⟩

theorem contains_iff_infix {part t : Text} : contains part t = true ↔ part <:+: t := by
  induction t with
  | nil => rw [contains, List.isEmpty_iff, List.infix_nil]
  | cons c r ih => rw [contains, Bool.or_eq_true, startsWith_iff_prefix, ih, List.infix_cons_iff]

/-- An occurrence is found at one of the places of the text. -/
theorem exists_split_iff {part t : Text} {p : Text → Prop} :
    (∃ front behind, t = front ++ part ++ behind ∧ p front) ↔
      ∃ i ∈ List.range (t.length + 1), startsWith part (t.drop i) = true ∧ p (t.take i) := by
  constructor
  · rintro ⟨front, behind, rfl, holds⟩
    refine ⟨front.length, ?_, ?_, ?_⟩
    · rw [List.mem_range, List.append_assoc, List.length_append]
      omega
    · rw [List.append_assoc, List.drop_left, startsWith_iff_prefix]
      exact List.prefix_append part behind
    · rwa [List.append_assoc, List.take_left]
  · rintro ⟨i, -, found, holds⟩
    obtain ⟨behind, whole⟩ := startsWith_iff_prefix.mp found
    exact ⟨t.take i, behind, by rw [List.append_assoc, whole, List.take_append_drop], holds⟩

end TestSkeleton.Text
