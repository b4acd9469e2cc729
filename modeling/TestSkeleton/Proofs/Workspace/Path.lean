import Mathlib.Data.List.Basic
import TestSkeleton.Proofs.Text.Basic
import TestSkeleton.Workspace.Path

/-! Names of entries, and paths that end in one. -/

namespace TestSkeleton

open Text

namespace Path

/-- Whether a text can name an entry of a folder. -/
def IsName (name : Text) : Prop := name ≠ [] ∧ name ≠ ['.'] ∧ name ≠ up ∧ '/' ∉ name

instance (name : Text) : Decidable (IsName name) :=
  inferInstanceAs (Decidable (_ ∧ _ ∧ _ ∧ _))

/-- Whether names can stand in a path. Steps up may be among them. -/
def AreParts (names : List Text) : Prop := ∀ name ∈ names, name ≠ [] ∧ name ≠ ['.'] ∧ '/' ∉ name

theorem areParts_names (t : Text) : AreParts (names t) := by
  intro name member
  obtain ⟨piece, kept⟩ := List.mem_filter.mp member
  have filled : name ≠ [] ∧ name ≠ ['.'] := by simpa using kept
  exact ⟨filled.1, filled.2, not_mem_of_mem_splitWhere (by simp) piece⟩

theorem AreParts.filter {parts : List Text} (valid : AreParts parts) :
    parts.filter (fun name => name ≠ [] ∧ name ≠ ['.']) = parts :=
  List.filter_eq_self.mpr fun name member => by
    obtain ⟨filled, dot, -⟩ := valid name member
    simp [filled, dot]

theorem AreParts.ne_slash {parts : List Text} (valid : AreParts parts) {name : Text}
    (member : name ∈ parts) {c : Char} (inside : c ∈ name) : (c == '/') = false := by
  rw [beq_eq_false_iff_ne]
  rintro rfl
  exact (valid name member).2.2 inside

/-- Names between slashes do not start with a slash. -/
theorem AreParts.head?_join {parts : List Text} (valid : AreParts parts) :
    ∀ c ∈ (join ['/'] parts).head?, (c == '/') = false := by
  cases parts with
  | nil =>
    intro c member
    cases member
  | cons first rest =>
    intro c member
    rw [join_cons, List.head?_append_of_ne_nil _ (valid first List.mem_cons_self).1] at member
    exact valid.ne_slash List.mem_cons_self (List.mem_of_head? member)

/-- Names between slashes do not end with a slash. -/
theorem AreParts.getLast?_join {parts : List Text} (valid : AreParts parts) :
    ∀ c ∈ (join ['/'] parts).getLast?, (c == '/') = false := by
  cases ends : parts.getLast? with
  | none =>
    rw [List.getLast?_eq_none_iff.mp ends]
    intro c member
    cases member
  | some last =>
    obtain ⟨front, rfl⟩ := List.getLast?_eq_some_iff.mp ends
    intro c member
    rw [join_append_singleton, List.getLast?_append_of_ne_nil _ (valid last (by simp)).1] at member
    exact valid.ne_slash (by simp) (List.mem_of_getLast? member)

/-- Slashes at the end of names between slashes are all that trimming takes. -/
theorem AreParts.trimMatches_join_append {parts : List Text} (valid : AreParts parts) (n : Nat) :
    trimMatches (· == '/') (join ['/'] parts ++ List.replicate n '/') = join ['/'] parts :=
  trimMatches_append valid.head?_join valid.getLast?_join fun c member => by
    simp [List.eq_of_mem_replicate member]

theorem AreParts.trimMatches_join {parts : List Text} (valid : AreParts parts) :
    trimMatches (· == '/') (join ['/'] parts) = join ['/'] parts :=
  trimMatches_eq_self valid.head?_join valid.getLast?_join

theorem names_append_slash (front behind : Text) :
    names (front ++ '/' :: behind) = names front ++ names behind := by
  rw [names, splitOn, splitWhere_append _ _ (by simp), List.filter_append]
  rfl

theorem names_slashes (n : Nat) : names (List.replicate n '/') = [] := by
  induction n with
  | zero => rfl
  | succ n ih =>
    have front := names_append_slash [] (List.replicate n '/')
    rw [ih] at front
    exact front

theorem ofText_eq_relative {t : Text} (start : ∀ c ∈ t.head?, (c == '/') = false) :
    PathRoot.ofText t = .relative := by
  cases t with
  | nil => rfl
  | cons c rest =>
    have other : c ≠ '/' := by simpa using start c rfl
    simp [PathRoot.ofText, other]

theorem AreParts.names_join {parts : List Text} (valid : AreParts parts) :
    names (join ['/'] parts) = parts := by
  by_cases filled : parts = []
  · rw [filled]
    rfl
  · rw [names, splitOn_join filled fun name member => (valid name member).2.2, valid.filter]

/-- Slashes behind names between slashes make no difference to the path. -/
theorem read_join_append {parts : List Text} (valid : AreParts parts) (filled : parts ≠ []) (n : Nat) :
    read (join ['/'] parts ++ List.replicate n '/') = ⟨.relative, parts⟩ := by
  have whole := valid.names_join
  have start : ∀ c ∈ (join ['/'] parts ++ List.replicate n '/').head?, (c == '/') = false := by
    obtain ⟨first, rest, rfl⟩ := List.exists_cons_of_ne_nil filled
    have shown : join ['/'] (first :: rest) ≠ [] := by
      rw [join_cons]
      exact List.append_ne_nil_of_left_ne_nil (valid first List.mem_cons_self).1 _
    rw [List.head?_append_of_ne_nil _ shown]
    exact valid.head?_join
  have behind : names (join ['/'] parts ++ List.replicate n '/') = parts := by
    cases n with
    | zero => rw [List.replicate_zero, List.append_nil, whole]
    | succ n =>
      rw [List.replicate_succ, names_append_slash, whole, names_slashes, List.append_nil]
  rw [read, ofText_eq_relative start, behind]

/-- Reading undoes writing. -/
theorem read_text_of_absolute {p : Path} (absolute : p.isAbsolute = true) (valid : AreParts p.parts) :
    read p.text = p := by
  obtain ⟨root, parts⟩ := p
  have start := valid.head?_join
  have whole := valid.names_join
  cases root with
  | relative => cases absolute
  | slash =>
    have written : text ⟨.slash, parts⟩ = '/' :: join ['/'] parts := by cases parts <;> rfl
    have root : PathRoot.ofText ('/' :: join ['/'] parts) = .slash := by
      cases shape : join ['/'] parts with
      | nil => rfl
      | cons c rest =>
        rw [shape] at start
        have other : c ≠ '/' := by simpa using start c rfl
        simp [PathRoot.ofText, other]
    have named := names_append_slash [] (join ['/'] parts)
    rw [List.nil_append, whole] at named
    rw [written, read, root, named]
    rfl
  | doubleSlash =>
    have written : text ⟨.doubleSlash, parts⟩ = '/' :: '/' :: join ['/'] parts := by cases parts <;> rfl
    have root : PathRoot.ofText ('/' :: '/' :: join ['/'] parts) = .doubleSlash := by
      cases shape : join ['/'] parts with
      | nil => rfl
      | cons c rest =>
        rw [shape] at start
        have other : c ≠ '/' := by simpa using start c rfl
        simp [PathRoot.ofText, other]
    have named := names_append_slash ['/'] (join ['/'] parts)
    rw [List.singleton_append, whole] at named
    rw [written, read, root, named]
    rfl

theorem read_text {parts : List Text} (valid : AreParts parts) :
    read (text ⟨.slash, parts⟩) = ⟨.slash, parts⟩ :=
  read_text_of_absolute rfl valid

theorem text_relative {parts : List Text} (filled : parts ≠ []) :
    text ⟨.relative, parts⟩ = join ['/'] parts := by
  obtain ⟨first, rest, rfl⟩ := List.exists_cons_of_ne_nil filled
  rfl

/-- A text whose pieces between slashes are all names is read as these names. -/
theorem read_eq_splitOn {t : Text} (valid : AreParts (splitOn '/' t)) :
    read t = ⟨.relative, splitOn '/' t⟩ := by
  have root : PathRoot.ofText t = .relative := by
    cases t with
    | nil => rfl
    | cons c r =>
      have other : c ≠ '/' := by
        rintro rfl
        rw [splitOn, splitWhere, if_pos (by simp)] at valid
        exact (valid [] List.mem_cons_self).1 rfl
      unfold PathRoot.ofText
      split <;> simp_all
  rw [read, root, names, valid.filter]

/-- A text without a slash is one name. -/
theorem read_eq {t : Text} (plain : '/' ∉ t) (filled : t ≠ []) (dot : t ≠ ['.']) :
    read t = ⟨.relative, [t]⟩ := by
  have clean : ∀ c ∈ t, (c == '/') = false := by
    intro c member
    rw [beq_eq_false_iff_ne]
    rintro rfl
    exact plain member
  have whole : splitOn '/' t = [t] := splitWhere_eq_self clean
  have valid : AreParts [t] := by
    intro name member
    rw [List.mem_singleton.mp member]
    exact ⟨filled, dot, plain⟩
  rw [read_eq_splitOn (whole.symm ▸ valid), whole]

theorem IsName.child {name : Text} (isName : IsName name) (p : Path) :
    p.child name = ⟨p.root, p.parts ++ [name]⟩ := by
  obtain ⟨filled, dot, -, plain⟩ := isName
  rw [Path.child, read_eq plain filled dot]
  rfl

theorem text_append_name (root : PathRoot) (parts : List Text) (name : Text) :
    text ⟨root, parts ++ [name]⟩ = root.text ++ parts.flatMap (· ++ ['/']) ++ name := by
  have written : text ⟨root, parts ++ [name]⟩ = root.text ++ join ['/'] (parts ++ [name]) := by
    unfold text
    split
    · rename_i empty
      simp at empty
    · rfl
  rw [written, join_append_singleton, List.append_assoc]

/-- The beginning of a path text in which a name has the last place. -/
def IsFront (front : Text) : Prop := front = [] ∨ ∃ outer, front = outer ++ ['/']

theorem isFront_text (root : PathRoot) (parts : List Text) :
    IsFront (root.text ++ parts.flatMap (· ++ ['/'])) := by
  cases ends : parts.getLast? with
  | none =>
    rw [List.getLast?_eq_none_iff.mp ends]
    cases root with
    | relative => exact .inl rfl
    | slash => exact .inr ⟨[], rfl⟩
    | doubleSlash => exact .inr ⟨['/'], rfl⟩
  | some last =>
    obtain ⟨outer, rfl⟩ := List.getLast?_eq_some_iff.mp ends
    exact .inr ⟨root.text ++ outer.flatMap (· ++ ['/']) ++ last, by simp⟩

/-- What a path text begins with is read alike before any last name. -/
theorem exists_read_append {front : Text} (isFront : IsFront front) :
    ∃ folder : Path, ∀ name, IsName name → read (front ++ name) = ⟨folder.root, folder.parts ++ [name]⟩ := by
  have start : ∀ name, IsName name → ∃ c rest, name = c :: rest ∧ c ≠ '/' := by
    rintro name ⟨filled, -, -, plain⟩
    cases name with
    | nil => exact absurd rfl filled
    | cons c rest => exact ⟨c, rest, rfl, fun same => plain (same ▸ List.mem_cons_self)⟩
  have root : ∀ name, IsName name →
      PathRoot.ofText (front ++ name) = PathRoot.ofText (front ++ ['x']) := by
    intro name isName
    obtain ⟨c, rest, rfl, other⟩ := start name isName
    match front with
    | [] => simp [PathRoot.ofText, other]
    | [a] => by_cases slash : a = '/' <;> simp [PathRoot.ofText, other, slash]
    | [a, b] =>
      by_cases slash : a = '/' <;> by_cases again : b = '/' <;>
        simp [PathRoot.ofText, other, slash, again]
    | a :: b :: d :: more =>
      by_cases slash : a = '/' <;> by_cases again : b = '/' <;> by_cases third : d = '/' <;>
        simp [PathRoot.ofText, slash, again, third]
  refine ⟨⟨PathRoot.ofText (front ++ ['x']), names front⟩, fun name isName => ?_⟩
  have kept : [name].filter (fun name => name ≠ [] ∧ name ≠ ['.']) = [name] := by
    simp [isName.1, isName.2.1]
  have whole : splitOn '/' name = [name] := splitWhere_eq_self fun c member => by
    rw [beq_eq_false_iff_ne]
    rintro rfl
    exact isName.2.2.2 member
  rw [read, root name isName]
  congr 1
  rcases isFront with rfl | ⟨outer, rfl⟩
  · rw [List.nil_append, names, whole, kept]
    rfl
  · have around : splitOn '/' (outer ++ '/' :: name) = splitOn '/' outer ++ [name] := by
      rw [splitOn, splitWhere_append _ _ (by simp), ← splitOn, ← splitOn, whole]
    have before : splitOn '/' (outer ++ ['/']) = splitOn '/' outer ++ [[]] := by
      rw [splitOn, splitWhere_append _ _ (by simp), ← splitOn]
      rfl
    rw [List.append_assoc, List.singleton_append, names, names, around, before, List.filter_append,
      List.filter_append, kept]
    simp

end Path

end TestSkeleton
