import TestSkeleton.Pattern.Path

/-! What path patterns admit, piece by piece, and what a slash and `**` at the end of one add. -/

namespace TestSkeleton

theorem Text.mem_endsAfter {p : Char → Bool} {t r : Text} :
    r ∈ Text.endsAfter p t ↔ ∃ run, (∀ c ∈ run, p c = true) ∧ t = run ++ r := by
  induction t with
  | nil =>
    constructor
    · intro member
      rw [Text.endsAfter, List.mem_singleton] at member
      exact ⟨[], by simp, by simp [member]⟩
    · rintro ⟨run, -, shape⟩
      rw [(List.append_eq_nil_iff.mp shape.symm).2]
      exact List.mem_singleton.mpr rfl
  | cons c t ih =>
    rw [Text.endsAfter, List.mem_cons]
    constructor
    · rintro (rfl | later)
      · exact ⟨[], by simp, rfl⟩
      · split at later
        · rename_i taken
          obtain ⟨run, fits, rfl⟩ := ih.mp later
          exact ⟨c :: run, by simpa [taken] using fits, rfl⟩
        · exact absurd later List.not_mem_nil
    · rintro ⟨run, fits, shape⟩
      cases run with
      | nil => exact .inl shape.symm
      | cons d run =>
        obtain ⟨rfl, rest⟩ := List.cons.inj shape
        rw [if_pos (fits c List.mem_cons_self)]
        exact .inr (ih.mpr ⟨run, fun d member => fits d (List.mem_cons_of_mem c member), rest⟩)

namespace PathPiece

/-- The texts that a piece of a pattern stands for. -/
def Fits : PathPiece → Text → Prop
  | char c, t => t = [c]
  | one, t => ∃ c, c ≠ '/' ∧ t = [c]
  | many, t => '/' ∉ t
  | anything, t => '\n' ∉ t
  | folders, t => t = [] ∨ ∃ front, '\n' ∉ front ∧ t = front ++ ['/']
  | inside, t => t = [] ∨ ∃ rest, '\n' ∉ rest ∧ t = '/' :: rest

end PathPiece

namespace PathPattern

theorem forall_inName {t : Text} : (∀ c ∈ t, inName c = true) ↔ '/' ∉ t := by
  simp only [inName, bne_iff_ne]
  exact ⟨fun apart member => apart _ member rfl, fun absent c member same => absent (same ▸ member)⟩

theorem forall_onLine {t : Text} : (∀ c ∈ t, onLine c = true) ↔ '\n' ∉ t := by
  simp only [onLine, bne_iff_ne]
  exact ⟨fun apart member => apart _ member rfl, fun absent c member same => absent (same ▸ member)⟩

/-- A pattern goes on behind any run of admitted characters. -/
theorem any_endsAfter {q : Char → Bool} {p : PathPattern} {path : Text} :
    (Text.endsAfter q path).any (admits p) = true ↔
      ∃ front back, path = front ++ back ∧ (∀ c ∈ front, q c = true) ∧ admits p back = true := by
  rw [List.any_eq_true]
  constructor
  · rintro ⟨back, member, rest⟩
    obtain ⟨front, fits, rfl⟩ := Text.mem_endsAfter.mp member
    exact ⟨front, back, rfl, fits, rest⟩
  · rintro ⟨front, back, rfl, fits, rest⟩
    exact ⟨back, Text.mem_endsAfter.mpr ⟨front, fits, rfl⟩, rest⟩

theorem mem_endsBehindSlash {t r : Text} :
    r ∈ endsBehindSlash t ↔ ∃ front, '\n' ∉ front ∧ t = front ++ '/' :: r := by
  rw [endsBehindSlash, List.mem_filterMap]
  constructor
  · rintro ⟨rest, member, behind⟩
    obtain ⟨front, fits, rfl⟩ := Text.mem_endsAfter.mp member
    refine ⟨front, forall_onLine.mp fits, ?_⟩
    cases rest with
    | nil => cases behind
    | cons c rest =>
      by_cases slash : c = '/'
      · subst slash
        rw [← Option.some.inj behind]
      · split at behind
        · rename_i shape
          exact absurd (List.cons.inj shape).1 slash
        · cases behind
  · rintro ⟨front, clean, rfl⟩
    exact ⟨'/' :: r, Text.mem_endsAfter.mpr ⟨front, forall_onLine.mpr clean, rfl⟩, rfl⟩

theorem admits_folders {p : PathPattern} {path : Text} :
    admits (.folders :: p) path = true ↔ admits p path = true ∨
      ∃ front rest, '\n' ∉ front ∧ path = front ++ '/' :: rest ∧ admits p rest = true := by
  rw [admits, List.any_cons, Bool.or_eq_true, List.any_eq_true]
  simp only [mem_endsBehindSlash]
  constructor
  · rintro (here | ⟨rest, ⟨front, clean, shape⟩, deeper⟩)
    · exact .inl here
    · exact .inr ⟨front, rest, clean, shape, deeper⟩
  · rintro (here | ⟨front, rest, clean, shape, deeper⟩)
    · exact .inl here
    · exact .inr ⟨rest, ⟨front, clean, shape⟩, deeper⟩

theorem admits_inside {p : PathPattern} {path : Text} :
    admits (.inside :: p) path = true ↔ admits p path = true ∨
      ∃ run back, path = '/' :: (run ++ back) ∧ '\n' ∉ run ∧ admits p back = true := by
  cases path with
  | nil => simp [admits]
  | cons c r =>
    by_cases slash : c = '/'
    · subst slash
      rw [admits, Bool.or_eq_true, any_endsAfter]
      simp only [forall_onLine, List.cons.injEq, true_and]
    · simp [admits, slash]

/-- A pattern takes a path from its front, one piece after the other. -/
theorem admits_cons {piece : PathPiece} {p : PathPattern} {path : Text} :
    admits (piece :: p) path = true ↔
      ∃ front back, path = front ++ back ∧ piece.Fits front ∧ admits p back = true := by
  cases piece with
  | char d =>
    cases path with
    | nil => simp [admits, PathPiece.Fits]
    | cons c r =>
      rw [admits, Bool.and_eq_true, beq_iff_eq]
      constructor
      · rintro ⟨rfl, rest⟩
        exact ⟨[c], r, rfl, rfl, rest⟩
      · rintro ⟨front, back, shape, rfl, rest⟩
        obtain ⟨rfl, rfl⟩ := List.cons.inj shape
        exact ⟨rfl, rest⟩
  | one =>
    cases path with
    | nil => simp [admits, PathPiece.Fits]
    | cons c r =>
      rw [admits, Bool.and_eq_true]
      constructor
      · rintro ⟨inner, rest⟩
        exact ⟨[c], r, rfl, ⟨c, by simpa [inName] using inner, rfl⟩, rest⟩
      · rintro ⟨front, back, shape, ⟨d, inner, rfl⟩, rest⟩
        obtain ⟨rfl, rfl⟩ := List.cons.inj shape
        exact ⟨by simpa [inName] using inner, rest⟩
  | many =>
    rw [admits, any_endsAfter]
    simp only [forall_inName, PathPiece.Fits]
  | anything =>
    rw [admits, any_endsAfter]
    simp only [forall_onLine, PathPiece.Fits]
  | folders =>
    rw [admits_folders]
    constructor
    · rintro (here | ⟨above, back, clean, rfl, rest⟩)
      · exact ⟨[], path, rfl, .inl rfl, here⟩
      · exact ⟨above ++ ['/'], back, by simp, .inr ⟨above, clean, rfl⟩, rest⟩
    · rintro ⟨front, back, rfl, rfl | ⟨above, clean, rfl⟩, rest⟩
      · exact .inl rest
      · exact .inr ⟨above, back, clean, by simp, rest⟩
  | inside =>
    rw [admits_inside]
    constructor
    · rintro (here | ⟨run, back, rfl, clean, rest⟩)
      · exact ⟨[], path, rfl, .inl rfl, here⟩
      · exact ⟨'/' :: run, back, rfl, .inr ⟨run, clean, rfl⟩, rest⟩
    · rintro ⟨front, back, rfl, rfl | ⟨run, clean, rfl⟩, rest⟩
      · exact .inl rest
      · exact .inr ⟨run, back, rfl, clean, rest⟩

theorem admits_nil {path : Text} : admits [] path = true ↔ path = [] := List.isEmpty_iff

theorem admits_append {p q : PathPattern} {path : Text} :
    admits (p ++ q) path = true ↔
      ∃ front back, path = front ++ back ∧ admits p front = true ∧ admits q back = true := by
  induction p generalizing path with
  | nil =>
    constructor
    · exact fun here => ⟨[], path, rfl, rfl, here⟩
    · rintro ⟨front, back, rfl, none, rest⟩
      rw [admits_nil.mp none]
      exact rest
  | cons piece p ih =>
    rw [List.cons_append, admits_cons]
    constructor
    · rintro ⟨first, later, rfl, fits, whole⟩
      obtain ⟨front, back, rfl, here, rest⟩ := ih.mp whole
      exact ⟨first ++ front, back, by simp, admits_cons.mpr ⟨first, front, rfl, fits, here⟩, rest⟩
    · rintro ⟨front, back, rfl, here, rest⟩
      obtain ⟨first, later, rfl, fits, middle⟩ := admits_cons.mp here
      exact ⟨first, later ++ back, by simp, fits, ih.mpr ⟨later, back, rfl, middle, rest⟩⟩

theorem admits_singleton {piece : PathPiece} {path : Text} :
    admits [piece] path = true ↔ piece.Fits path := by
  rw [admits_cons]
  constructor
  · rintro ⟨front, back, rfl, fits, none⟩
    rwa [admits_nil.mp none, List.append_nil]
  · exact fun fits => ⟨path, [], by simp, fits, rfl⟩

/-- A character that opens no mark is read for itself. -/
theorem read_plain {c : Char} {r : Text} (star : c ≠ '*') (question : c ≠ '?') (inside : c = '/' → r ≠ ['*', '*']) :
    read (c :: r) = .char c :: read r :=
  read.eq_6 c r (fun _ same _ => star same) inside (fun _ same _ => star same) star question

/-- The end of a pattern for all that lies inside a folder. -/
def insideMark : Text := "/**".toList

/-- How the reading of a pattern changes by a slash and `**` behind it: they are one more piece,
unless the pattern ends in `**` or in a slash and `**` already. -/
inductive Deepened : (outer inner : PathPattern) → Prop where
  | usual (p : PathPattern) : Deepened p (p ++ [.inside])
  | anything (p : PathPattern) : Deepened (p ++ [.anything]) (p ++ [.folders, .anything])
  | inside (p : PathPattern) : Deepened (p ++ [.inside]) (p ++ [.char '/', .folders, .anything])

theorem Deepened.cons {outer inner : PathPattern} (piece : PathPiece) :
    Deepened outer inner → Deepened (piece :: outer) (piece :: inner)
  | usual p => usual (piece :: p)
  | anything p => anything (piece :: p)
  | inside p => inside (piece :: p)

theorem deepened_read (front : Text) : Deepened (read front) (read (front ++ insideMark)) := by
  induction front using read.induct with
  | case1 r ih => exact ih.cons .folders
  | case2 => exact .inside []
  | case3 r open_ ih =>
    cases r with
    | nil => exact .anything []
    | cons c r =>
      have other : ∀ rest, c :: r ++ insideMark = '/' :: rest → False := by
        intro rest shape
        exact open_ r (by rw [(List.cons.inj shape).1])
      rw [read.eq_3 _ open_, List.cons_append, List.cons_append, read.eq_3 _ other]
      exact ih.cons .anything
  | case4 r _ single ih =>
    have other : ∀ rest, r ++ insideMark = '*' :: rest → False := by
      intro rest shape
      cases r with
      | nil => cases shape
      | cons c r => exact single r (by rw [(List.cons.inj shape).1])
    rw [read.eq_4 _ ‹_› single, List.cons_append, read.eq_4 _ (fun rest => other _) other]
    exact ih.cons .many
  | case5 r ih => exact ih.cons .one
  | case6 c r _ inside _ star question ih =>
    have long : r ++ insideMark ≠ ['*', '*'] := by
      intro shape
      have lengths := congrArg List.length shape
      rw [List.length_append] at lengths
      simp [insideMark] at lengths
    rw [read_plain star question inside, List.cons_append, read_plain star question fun _ => long]
    exact ih.cons (.char c)
  | case7 => exact .usual []

/-- The folders around what a path names, as the path names them. -/
def foldersAround : Text → List Text
  | [] => []
  | c :: r => (if c = '/' then [[]] else []) ++ (foldersAround r).map (c :: ·)

theorem mem_foldersAround {t front : Text} :
    front ∈ foldersAround t ↔ ∃ rest, t = front ++ '/' :: rest := by
  induction t generalizing front with
  | nil => simp [foldersAround]
  | cons c r ih =>
    rw [foldersAround, List.mem_append, List.mem_map]
    constructor
    · rintro (here | ⟨inner, member, rfl⟩)
      · split at here
        · rename_i slash
          rw [List.mem_singleton.mp here, slash]
          exact ⟨r, rfl⟩
        · exact absurd here List.not_mem_nil
      · obtain ⟨rest, rfl⟩ := ih.mp member
        exact ⟨rest, rfl⟩
    · rintro ⟨rest, shape⟩
      cases front with
      | nil => exact .inl (by simp [(List.cons.inj shape).1])
      | cons d front =>
        obtain ⟨rfl, later⟩ := List.cons.inj shape
        exact .inr ⟨front, ih.mpr ⟨rest, later⟩, rfl⟩

/-- Inside a folder that a pattern admits, the pattern with a slash and `**` admits every path of one
line. -/
theorem admits_of_foldersAround {outer inner : PathPattern} (deepened : Deepened outer inner)
    {path : Text} (oneLine : '\n' ∉ path) (folder : (foldersAround path).any (admits outer) = true) :
    admits inner path = true := by
  obtain ⟨front, around, here⟩ := List.any_eq_true.mp folder
  obtain ⟨rest, rfl⟩ := mem_foldersAround.mp around
  obtain ⟨-, clean⟩ : '\n' ∉ front ∧ '\n' ∉ '/' :: rest := by simpa using oneLine
  cases deepened with
  | usual =>
    refine admits_append.mpr ⟨front, '/' :: rest, rfl, here, admits_singleton.mpr (.inr ?_)⟩
    exact ⟨rest, by simpa using clean, rfl⟩
  | anything p =>
    obtain ⟨above, middle, rfl, first, -⟩ := admits_append.mp here
    refine admits_append.mpr ⟨above, middle ++ '/' :: rest, by simp, first, ?_⟩
    refine admits_cons.mpr ⟨[], _, rfl, .inl rfl, admits_singleton.mpr fun member => oneLine ?_⟩
    rw [List.append_assoc]
    exact List.mem_append_right above member
  | inside p =>
    obtain ⟨above, middle, rfl, first, last⟩ := admits_append.mp here
    have deeper : ∃ tail, middle ++ '/' :: rest = '/' :: tail := by
      rcases admits_singleton.mp last with rfl | ⟨names, -, rfl⟩
      · exact ⟨rest, rfl⟩
      · exact ⟨names ++ '/' :: rest, rfl⟩
    obtain ⟨tail, shape⟩ := deeper
    rw [List.append_assoc, shape] at oneLine ⊢
    refine admits_append.mpr ⟨above, '/' :: tail, rfl, first, ?_⟩
    refine admits_cons.mpr ⟨['/'], tail, rfl, rfl, admits_cons.mpr ⟨[], tail, rfl, .inl rfl, ?_⟩⟩
    exact admits_singleton.mpr fun member => oneLine (by simp [member])

/-- Apart from what lies inside, a pattern with a slash and `**` admits at most the folder itself. -/
theorem foldersAround_of_admits {outer inner : PathPattern} (deepened : Deepened outer inner)
    {path : Text} (admitted : admits inner path = true) :
    admits outer path = true ∨ (foldersAround path).any (admits outer) = true := by
  have around : ∀ front rest, admits outer front = true →
      (foldersAround (front ++ '/' :: rest)).any (admits outer) = true := fun front rest here =>
    List.any_eq_true.mpr ⟨front, mem_foldersAround.mpr ⟨rest, rfl⟩, here⟩
  cases deepened with
  | usual =>
    obtain ⟨above, last, rfl, first, fits⟩ := admits_append.mp admitted
    rcases admits_singleton.mp fits with rfl | ⟨rest, -, rfl⟩
    · exact .inl (by simpa using first)
    · exact .inr (around above rest first)
  | anything p =>
    obtain ⟨above, last, rfl, first, fits⟩ := admits_append.mp admitted
    obtain ⟨folders, names, rfl, outerFits, innerFits⟩ := admits_cons.mp fits
    have clean : '\n' ∉ folders ++ names := by
      have inner := admits_singleton.mp innerFits
      rcases outerFits with rfl | ⟨front, free, rfl⟩
      · exact inner
      · simpa [PathPiece.Fits, free] using inner
    exact .inl (admits_append.mpr ⟨above, _, rfl, first, admits_singleton.mpr clean⟩)
  | inside p =>
    obtain ⟨above, last, rfl, first, fits⟩ := admits_append.mp admitted
    obtain ⟨slash, names, rfl, rfl, -⟩ := admits_cons.mp fits
    have here : admits (p ++ [.inside]) above = true :=
      admits_append.mpr ⟨above, [], by simp, first, rfl⟩
    exact .inr (around above names here)

end PathPattern

end TestSkeleton
