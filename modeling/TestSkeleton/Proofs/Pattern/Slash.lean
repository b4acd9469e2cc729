import TestSkeleton.Proofs.Pattern.Path

/-! What the stars of a path pattern say of slashes.

Main statement: two stars and a slash in front of a pattern stand for any folders or none, and a slash and two stars
behind it for all that lies below. A pattern without two stars in a row admits paths of its own depth only, and one
without stars and question marks only itself. -/

namespace TestSkeleton

/-- What a character of a pattern stands for, where no two stars follow each other. -/
def PathPiece.plain (c : Char) : PathPiece := if c = '*' then many else if c = '?' then one else char c

theorem PathPiece.plain_of_ne {c : Char} (star : c ≠ '*') (question : c ≠ '?') : plain c = char c := by
  rw [plain, if_neg star, if_neg question]

namespace PathPattern

/-! All that lies below what a pattern admits. -/

/-- The piece for all that lies inside is read at the end of a text alone. -/
theorem suffix_of_inside {p : Text} (member : PathPiece.inside ∈ read p) : insideMark <:+ p := by
  induction p using read.induct with
  | case1 r ih => exact (ih (by simpa [read] using member)).trans (List.suffix_append ['*', '*', '/'] r)
  | case2 => exact List.suffix_rfl
  | case3 r folders ih =>
    rw [read.eq_3 _ folders] at member
    exact (ih (by simpa using member)).trans (List.suffix_append ['*', '*'] r)
  | case4 r folders more ih =>
    rw [read.eq_4 _ folders more] at member
    exact (ih (by simpa using member)).trans (List.suffix_cons '*' r)
  | case5 r ih => exact (ih (by simpa [read] using member)).trans (List.suffix_cons '?' r)
  | case6 c r _ inside _ star question ih =>
    rw [read_plain star question inside] at member
    exact (ih (by simpa using member)).trans (List.suffix_cons c r)
  | case7 => exact absurd member List.not_mem_nil

/-- What a pattern admits it admits with a slash and `**` behind it too, unless it has them already. -/
theorem Deepened.admits_of_outer {outer inner : PathPattern} (deepened : Deepened outer inner)
    (open_ : .inside ∉ outer) {path : Text} (admitted : admits outer path = true) : admits inner path = true := by
  cases deepened with
  | usual => exact admits_append.mpr ⟨path, [], by simp, admitted, rfl⟩
  | anything p =>
    obtain ⟨above, names, rfl, first, last⟩ := admits_append.mp admitted
    exact admits_append.mpr ⟨above, names, rfl, first, admits_cons.mpr ⟨[], names, rfl, .inl rfl, last⟩⟩
  | inside p => exact absurd (by simp) open_

theorem admits_insideMark {p path : Text} (open_ : ¬insideMark <:+ p) (oneLine : '\n' ∉ path) :
    (read (p ++ insideMark)).admits path = true ↔ (read p).admits path = true ∨
      ∃ front rest, path = front ++ '/' :: rest ∧ (read p).admits front = true := by
  have deepened := deepened_read p
  have around : (foldersAround path).any (read p).admits = true ↔
      ∃ front rest, path = front ++ '/' :: rest ∧ (read p).admits front = true := by
    simp only [List.any_eq_true, mem_foldersAround, exists_and_right]
  rw [← around]
  constructor
  · exact foldersAround_of_admits deepened
  · rintro (here | folder)
    · exact deepened.admits_of_outer (fun member => open_ (suffix_of_inside member)) here
    · exact admits_of_foldersAround deepened oneLine folder

/-! Patterns without two stars in a row. -/

theorem read_eq_plain {p : Text} (apart : ¬"**".toList <:+: p) : read p = p.map PathPiece.plain := by
  induction p using read.induct with
  | case1 r => exact absurd ⟨[], '/' :: r, rfl⟩ apart
  | case2 => exact absurd ⟨['/'], [], rfl⟩ apart
  | case3 r => exact absurd ⟨[], r, rfl⟩ apart
  | case4 r folders more ih =>
    rw [read.eq_4 _ folders more, ih fun later => apart (later.trans (List.suffix_cons '*' r).isInfix)]
    rfl
  | case5 r ih =>
    rw [read, ih fun later => apart (later.trans (List.suffix_cons '?' r).isInfix)]
    rfl
  | case6 c r _ inside _ star question ih =>
    rw [read_plain star question inside, ih fun later => apart (later.trans (List.suffix_cons c r).isInfix),
      List.map_cons, PathPiece.plain_of_ne star question]
  | case7 => rfl

/-- The piece for a slash takes one, and every other piece takes none. -/
theorem count_of_fits_plain {c : Char} {t : Text} (fits : (PathPiece.plain c).Fits t) :
    t.count '/' = [c].count '/' := by
  unfold PathPiece.plain at fits
  split at fits
  · rename_i star
    rw [star, List.count_eq_zero.mpr fits]
    rfl
  · split at fits
    · rename_i question
      obtain ⟨d, inner, rfl⟩ := fits
      rw [question, List.count_singleton, if_neg (by simpa using inner)]
      rfl
    · rw [show t = [c] from fits]

theorem count_of_admits_plain {p path : Text} (admitted : admits (p.map PathPiece.plain) path = true) :
    path.count '/' = p.count '/' := by
  induction p generalizing path with
  | nil => rw [admits_nil.mp admitted]
  | cons c p ih =>
    obtain ⟨front, back, rfl, fits, rest⟩ := admits_cons.mp admitted
    calc (front ++ back).count '/' = front.count '/' + back.count '/' := List.count_append
      _ = [c].count '/' + p.count '/' := by rw [count_of_fits_plain fits, ih rest]
      _ = (c :: p).count '/' := List.count_append.symm

theorem admits_plain_iff {p path : Text} (stars : '*' ∉ p) (questions : '?' ∉ p) :
    admits (p.map PathPiece.plain) path = true ↔ path = p := by
  induction p generalizing path with
  | nil => exact admits_nil
  | cons c p ih =>
    rw [List.mem_cons, not_or] at stars questions
    rw [List.map_cons, PathPiece.plain_of_ne (Ne.symm stars.1) (Ne.symm questions.1), admits_cons]
    constructor
    · rintro ⟨front, back, rfl, rfl, rest⟩
      rw [(ih stars.2 questions.2).mp rest]
      rfl
    · rintro rfl
      exact ⟨[c], p, rfl, rfl, (ih stars.2 questions.2).mpr rfl⟩

/-- With two stars and a slash in front, a pattern admits the paths that it admits whole or from behind a slash on,
and with a slash and two stars behind it those that it admits whole or up to a slash. Without two stars in a row it
admits only paths with as many slashes as itself, and without stars and question marks only itself. -/
theorem stars_and_slashes (p path : Text) :
    ('\n' ∉ path →
      ((read ("**/".toList ++ p)).admits path = true ↔ (read p).admits path = true ∨
        ∃ front rest, path = front ++ '/' :: rest ∧ (read p).admits rest = true) ∧
      (p.getLast? ≠ some '*' →
        ((read (p ++ "/**".toList)).admits path = true ↔ (read p).admits path = true ∨
          ∃ front rest, path = front ++ '/' :: rest ∧ (read p).admits front = true))) ∧
    (¬"**".toList <:+: p → (read p).admits path = true → path.count '/' = p.count '/') ∧
    ('*' ∉ p → '?' ∉ p → ((read p).admits path = true ↔ path = p)) := by
  refine ⟨fun oneLine => ⟨?_, fun last => ?_⟩, fun apart admitted => ?_, fun stars questions => ?_⟩
  · have opened : read ("**/".toList ++ p) = .folders :: read p := rfl
    rw [opened, admits_folders]
    refine or_congr_right ⟨?_, ?_⟩
    · rintro ⟨front, rest, -, shape, deeper⟩
      exact ⟨front, rest, shape, deeper⟩
    · rintro ⟨front, rest, shape, deeper⟩
      have clean : '\n' ∉ front := fun member => oneLine (shape ▸ List.mem_append_left _ member)
      exact ⟨front, rest, clean, shape, deeper⟩
  · refine admits_insideMark ?_ oneLine
    rintro ⟨front, rfl⟩
    exact last (by simp [insideMark])
  · rw [read_eq_plain apart] at admitted
    exact count_of_admits_plain admitted
  · have apart : ¬"**".toList <:+: p := fun found => stars (found.subset (by decide))
    rw [read_eq_plain apart]
    exact admits_plain_iff stars questions

/-- The inside of folders of one name at any depth, and a star that crosses no slash. -/
theorem target_stars :
    ('\n' ∉ "a/target/debug/x.rs".toList ∧ "**/target".toList.getLast? ≠ some '*' ∧
      (read "**/target/**".toList).admits "a/target/debug/x.rs".toList = true) ∧
    (¬"**".toList <:+: "src/*.rs".toList ∧ (read "src/*.rs".toList).admits "src/x.rs".toList = true ∧
      "src/x.rs".toList.count '/' = "src/*.rs".toList.count '/' ∧
      (read "src/*.rs".toList).admits "src/deep/x.rs".toList = false) ∧
    ('*' ∉ "target".toList ∧ '?' ∉ "target".toList ∧
      (read "target".toList).admits "target".toList = true) := by
  have name : (read "target".toList).admits "target".toList = true :=
    ((stars_and_slashes "target".toList "target".toList).2.2 (by decide) (by decide)).mpr rfl
  have opening : "**/target".toList = "**/".toList ++ "target".toList := rfl
  have closing : "**/target/**".toList = "**/target".toList ++ "/**".toList := rfl
  have folder : (read "**/target".toList).admits "a/target".toList = true := by
    rw [opening]
    obtain ⟨behindSlash, -⟩ := (stars_and_slashes "target".toList "a/target".toList).1 (by decide)
    exact behindSlash.mpr (.inr ⟨"a".toList, "target".toList, rfl, name⟩)
  have below : (read "**/target/**".toList).admits "a/target/debug/x.rs".toList = true := by
    rw [closing]
    obtain ⟨-, belowSlash⟩ := (stars_and_slashes "**/target".toList "a/target/debug/x.rs".toList).1 (by decide)
    exact (belowSlash (by decide)).mpr (.inr ⟨"a/target".toList, "debug/x.rs".toList, rfl, folder⟩)
  have apart : ¬"**".toList <:+: "src/*.rs".toList := by simp [List.infix_cons_iff]
  have inside : (read "src/*.rs".toList).admits "src/x.rs".toList = true := by decide
  have level := (stars_and_slashes "src/*.rs".toList "src/x.rs".toList).2.1 apart inside
  have deeper : (read "src/*.rs".toList).admits "src/deep/x.rs".toList ≠ true := fun admitted =>
    absurd ((stars_and_slashes "src/*.rs".toList "src/deep/x.rs".toList).2.1 apart admitted) (by decide)
  exact ⟨⟨by decide, by decide, below⟩, ⟨apart, inside, level, Bool.eq_false_iff.mpr deeper⟩,
    by decide, by decide, name⟩

end PathPattern

end TestSkeleton
