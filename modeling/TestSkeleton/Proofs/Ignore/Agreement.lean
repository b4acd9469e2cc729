import TestSkeleton.Ignore.Rule
import TestSkeleton.Pattern.Skip
import TestSkeleton.Proofs.Pattern.Name

/-! A pattern for one name against the same pattern with a slash.

Main statement: at the root, below a folder and among skip patterns the slash makes the same difference. Without a
class it makes none on names of one line. With a class there is a name that only one of the two admits. -/

namespace TestSkeleton

open Text NamePattern

/-- A pattern for one name, as trimming leaves it. -/
structure IsNamePattern (p : Text) : Prop where
  filled : p ≠ []
  single : '/' ∉ p
  solid : trim p = p

/-- A folder as a pattern can name it, below the folder of the pattern. -/
structure IsPlainFolder (d : Text) : Prop where
  filled : d ≠ []
  head : ∀ c ∈ d.head?, isBlank c = false ∧ c ≠ '/'
  stars : '*' ∉ d
  questions : '?' ∉ d

/-- One name of a path. -/
structure IsComponent (n : Text) : Prop where
  filled : n ≠ []
  single : '/' ∉ n

namespace IsPlainFolder

variable {d : Text}

theorem head?_append (folder : IsPlainFolder d) (behind : Text) : (d ++ behind).head? = d.head? := by
  rw [List.head?_append, Option.or_of_isSome (by simp [folder.filled])]

end IsPlainFolder

theorem Text.splitOn_eq_self {sep : Char} {t : Text} (absent : sep ∉ t) : splitOn sep t = [t] :=
  splitWhere_eq_self fun c member => by
    have apart : c ≠ sep := fun same => absent (same ▸ member)
    simpa using apart

theorem Text.dropWhile_of_head {q : Char → Bool} {t : Text} (head : ∀ c ∈ t.head?, q c = false) :
    t.dropWhile q = t := by
  cases t with
  | nil => rfl
  | cons c r => exact List.dropWhile_cons_of_neg (by simp [head c rfl])

namespace IsNamePattern

variable {p : Text}

theorem getLast?_append (shape : IsNamePattern p) (front : Text) : (front ++ p).getLast? = p.getLast? := by
  rw [List.getLast?_append, Option.or_of_isSome (by simp [shape.filled])]

theorem last (shape : IsNamePattern p) (front : Text) :
    ∀ c ∈ (front ++ p).getLast?, isBlank c = false ∧ c ≠ '/' := by
  intro c found
  rw [shape.getLast?_append] at found
  have visible := last_trim p c (by rwa [shape.solid])
  exact ⟨visible, fun slash => shape.single (slash ▸ List.mem_of_getLast? found)⟩

theorem trim_append (shape : IsNamePattern p) {front : Text} (head : ∀ c ∈ (front ++ p).head?, isBlank c = false) :
    trim (front ++ p) = front ++ p :=
  trim_eq_self head fun c found => (shape.last front c found).1

theorem trim_below (shape : IsNamePattern p) {d : Text} (folder : IsPlainFolder d) :
    trim (d ++ '/' :: p) = d ++ '/' :: p := by
  have whole : d ++ '/' :: p = (d ++ ['/']) ++ p := by simp
  rw [whole]
  refine shape.trim_append fun c first => ?_
  rw [← whole, folder.head?_append] at first
  exact (folder.head c first).1

end IsNamePattern

namespace IgnoreRule

/-- Whether the rule of a text admits a path. -/
def textAdmits (base : Text) (negated : Bool) (text path : Text) (isFolder : Bool) : Bool :=
  (ofPattern? base negated text).any (·.admits path isFolder)

/-- What lies below a folder. The root has no name. -/
def below (base inner : Text) : Text := if base = [] then inner else base ++ '/' :: inner

theorem inner?_below (r : IgnoreRule) (inner : Text) : r.inner? (below r.base inner) = some inner := by
  unfold inner? below
  by_cases root : r.base = []
  · simp [root]
  · simp [root, dropPrefix?_eq_some]

/-- The rule of a text without blanks around it and without a slash at its end. -/
theorem ofPattern?_of_last {t : Text} (base : Text) (negated : Bool) (filled : t ≠ []) (solid : trim t = t)
    (last : ∀ c ∈ t.getLast?, c ≠ '/') : ofPattern? base negated t = some {
      pattern := (cutFirst '/' t).1
      anchored := (cutFirst '/' t).2
      negated
      hasSlash := '/' ∈ (cutFirst '/' t).1
      base } := by
  have whole : cutLast '/' t = (t, false) := if_neg fun slash => last '/' slash rfl
  rw [ofPattern?, solid]
  simp [filled, whole]

theorem cutFirst_of_head {t : Text} (head : ∀ c ∈ t.head?, c ≠ '/') : cutFirst '/' t = (t, false) :=
  if_neg fun slash => head '/' slash rfl

section Texts

variable {p d : Text} (shape : IsNamePattern p) (base : Text) (negated : Bool)

include shape

theorem ofPattern?_name : ofPattern? base negated p = some { pattern := p, negated, base } := by
  have whole : cutFirst '/' p = (p, false) := cutFirst_of_head fun c first slash =>
    shape.single (slash ▸ List.mem_of_head? first)
  rw [ofPattern?_of_last base negated shape.filled shape.solid fun c found => (shape.last [] c found).2, whole]
  simp [shape.single]

theorem ofPattern?_anchored :
    ofPattern? base negated ('/' :: p) = some { pattern := p, anchored := true, negated, base } := by
  have head : ∀ c ∈ (['/'] ++ p).head?, isBlank c = false := by
    intro c first
    cases first
    rfl
  have solid : trim ('/' :: p) = '/' :: p := shape.trim_append head
  rw [ofPattern?_of_last base negated (List.cons_ne_nil _ _) solid fun c found => (shape.last ['/'] c found).2]
  simp [cutFirst, shape.single]

theorem ofPattern?_below (folder : IsPlainFolder d) : ofPattern? base negated (d ++ '/' :: p) =
    some { pattern := d ++ '/' :: p, negated, hasSlash := true, base } := by
  have whole : cutFirst '/' (d ++ '/' :: p) = (d ++ '/' :: p, false) := cutFirst_of_head fun c first => by
    rw [folder.head?_append] at first
    exact (folder.head c first).2
  have last : ∀ c ∈ (d ++ '/' :: p).getLast?, c ≠ '/' := fun c found =>
    (shape.last (d ++ ['/']) c (by rwa [List.append_assoc])).2
  rw [ofPattern?_of_last base negated (by simp) (shape.trim_below folder) last, whole]
  simp

variable {n : Text}

theorem textAdmits_name (component : IsComponent n) (isFolder : Bool) :
    textAdmits base negated p (below base n) isFolder = (NamePattern.read p).admits n := by
  have inner := inner?_below { pattern := p, negated, base } n
  rw [textAdmits, ofPattern?_name shape, Option.any_some, admits, inner]
  simp [shape.filled, splitOn_eq_self component.single]

theorem textAdmits_anchored (isFolder : Bool) :
    textAdmits base negated ('/' :: p) (below base n) isFolder = (PathPattern.read p).admits n := by
  have inner := inner?_below { pattern := p, anchored := true, negated, base } n
  rw [textAdmits, ofPattern?_anchored shape, Option.any_some, admits, inner]
  simp [shape.filled]

theorem textAdmits_below (folder : IsPlainFolder d) (isFolder : Bool) :
    textAdmits base negated (d ++ '/' :: p) (below base (d ++ '/' :: n)) isFolder =
      (PathPattern.read p).admits n := by
  have inner := inner?_below { pattern := d ++ '/' :: p, negated, hasSlash := true, base } (d ++ '/' :: n)
  rw [textAdmits, ofPattern?_below shape base negated folder, Option.any_some, admits, inner,
    ← PathPattern.read_below folder.stars folder.questions p n]
  simp

end Texts

end IgnoreRule

namespace SkipPattern

variable {p d n : Text}

theorem admits_name (shape : IsNamePattern p) (component : IsComponent n) :
    admits p n = (NamePattern.read p).admits n := by
  have core_eq : core p = p := by
    rw [core, shape.solid]
    refine dropWhile_of_head fun c first => ?_
    have apart : c ≠ '/' := fun slash => shape.single (slash ▸ List.mem_of_head? first)
    simpa using apart
  rw [admits, core_eq]
  simp [shape.filled, shape.single, splitOn_eq_self component.single]

theorem admits_below (shape : IsNamePattern p) (folder : IsPlainFolder d) :
    admits (d ++ '/' :: p) (d ++ '/' :: n) = (PathPattern.read p).admits n := by
  have head : ∀ c ∈ (d ++ '/' :: p).head?, (c == '/') = false := fun c first => by
    rw [folder.head?_append] at first
    simpa using (folder.head c first).2
  have front := dropWhile_of_head head
  have core_eq : core (d ++ '/' :: p) = d ++ '/' :: p := by rw [core, shape.trim_below folder, front]
  have last : ∀ c ∈ (d ++ '/' :: p).getLast?, (c == '/') = false := fun c found => by
    simpa using (shape.last (d ++ ['/']) c (by rwa [List.append_assoc])).2
  have whole : dropEndWhile (· == '/') (d ++ '/' :: p) = d ++ '/' :: p := by
    have kept := trimMatches_eq_self (p := (· == '/')) head last
    rwa [trimMatches, front] at kept
  rw [admits, core_eq, whole, ← PathPattern.read_below folder.stars folder.questions p n]
  simp

end SkipPattern

/-- How a pattern behind a slash compares with the pattern alone, on one name: in rules tied to the folder of their
file, in rules below a further folder, and in skip patterns. -/
structure Compares (R : Bool → Bool → Prop) (p n : Text) : Prop where
  anchored : ∀ base negated isFolder,
    R (IgnoreRule.textAdmits base negated ('/' :: p) (IgnoreRule.below base n) isFolder)
      (IgnoreRule.textAdmits base negated p (IgnoreRule.below base n) isFolder)
  below : ∀ base negated isFolder d, IsPlainFolder d →
    R (IgnoreRule.textAdmits base negated (d ++ '/' :: p) (IgnoreRule.below base (d ++ '/' :: n)) isFolder)
      (IgnoreRule.textAdmits base negated p (IgnoreRule.below base n) isFolder)
  skips : ∀ d, IsPlainFolder d → R (SkipPattern.admits (d ++ '/' :: p) (d ++ '/' :: n)) (SkipPattern.admits p n)

def Agree : Text → Text → Prop := Compares (· = ·)

def Differ : Text → Text → Prop := Compares (· ≠ ·)

/-- In all places it is the reading for whole paths against the reading for one name. -/
theorem compares_of_readings {R : Bool → Bool → Prop} {p n : Text} (shape : IsNamePattern p)
    (component : IsComponent n) (holds : R ((PathPattern.read p).admits n) ((NamePattern.read p).admits n)) :
    Compares R p n := by
  constructor
  case anchored =>
    intro base negated isFolder
    rwa [IgnoreRule.textAdmits_anchored shape, IgnoreRule.textAdmits_name shape base negated component]
  case below =>
    intro base negated isFolder d folder
    rwa [IgnoreRule.textAdmits_below shape base negated folder,
      IgnoreRule.textAdmits_name shape base negated component]
  case skips =>
    intro d folder
    rwa [SkipPattern.admits_below shape folder, SkipPattern.admits_name shape component]

/-- A slash makes the same difference in all places. To a pattern without a class it makes none, on names of one line
and, where no two stars follow each other, on all names. With a class there is a name on which it makes a difference,
since brackets are plain characters behind a slash. -/
theorem matchers_agree_without_class {p : Text} (shape : IsNamePattern p) :
    (∀ n, IsComponent n → Agree p n ∨ Differ p n) ∧
    (¬HasClass p → ∀ n, IsComponent n → '\n' ∉ n ∨ ¬"**".toList <:+: p → Agree p n) ∧
    (HasClass p → ∃ n, IsComponent n ∧ ('\n' ∈ n → '\n' ∈ p) ∧ Differ p n) := by
  refine ⟨fun n component => ?_, fun classless n component oneLine => ?_, fun found => ?_⟩
  · by_cases same : (PathPattern.read p).admits n = (NamePattern.read p).admits n
    · exact .inl (compares_of_readings shape component same)
    · exact .inr (compares_of_readings shape component same)
  · have same := PathPattern.read_eq_name shape.single classless component.single oneLine
    exact compares_of_readings shape component same
  · obtain ⟨n, filled, single, oneLine, other⟩ := PathPattern.exists_read_ne_name shape.single found
    exact ⟨n, ⟨filled, single⟩, oneLine, compares_of_readings shape ⟨filled, single⟩ other⟩

/-- A class, a pattern without one, and two stars on a name of two lines. -/
theorem bracketed_differ :
    (IsNamePattern "[ab].rs".toList ∧ HasClass "[ab].rs".toList ∧ Differ "[ab].rs".toList "a.rs".toList ∧
      ∃ n, IsComponent n ∧ Differ "[ab].rs".toList n) ∧
    (IsNamePattern "*.rs".toList ∧ ¬HasClass "*.rs".toList ∧ Agree "*.rs".toList "a.rs".toList) ∧
    (IsNamePattern "a**".toList ∧ ¬HasClass "a**".toList ∧ Differ "a**".toList "a\n".toList) := by
  have head : ∀ c ∈ "src".toList.head?, isBlank c = false ∧ c ≠ '/' := by
    rintro _ ⟨⟩
    decide
  have folder : IsPlainFolder "src".toList := ⟨by decide, head, by decide, by decide⟩
  have classless : ∀ p : Text, '[' ∉ p → ¬HasClass p := by
    rintro p absent ⟨front, rest, rfl, -⟩
    exact absent (by simp)
  have bracket : IsNamePattern "[ab].rs".toList := ⟨by decide, by decide, by decide⟩
  have star : IsNamePattern "*.rs".toList := ⟨by decide, by decide, by decide⟩
  have stars : IsNamePattern "a**".toList := ⟨by decide, by decide, by decide⟩
  have found : HasClass "[ab].rs".toList := ⟨[], _, rfl, rfl⟩
  obtain ⟨either, -, differs⟩ := matchers_agree_without_class bracket
  obtain ⟨-, agrees, -⟩ := matchers_agree_without_class star
  obtain ⟨eitherStars, -, -⟩ := matchers_agree_without_class stars
  have bracketed : Differ "[ab].rs".toList "a.rs".toList :=
    (either _ ⟨by decide, by decide⟩).resolve_left fun agree => absurd (agree.skips _ folder) (by decide)
  have broken : Differ "a**".toList "a\n".toList :=
    (eitherStars _ ⟨by decide, by decide⟩).resolve_left fun agree => absurd (agree.skips _ folder) (by decide)
  obtain ⟨n, component, -, other⟩ := differs found
  refine ⟨⟨bracket, found, bracketed, n, component, other⟩, ⟨star, classless _ (by decide), ?_⟩,
    ⟨stars, classless _ (by decide), broken⟩⟩
  exact agrees (classless _ (by decide)) _ ⟨by decide, by decide⟩ (.inl (by decide))

end TestSkeleton
