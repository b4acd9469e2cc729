import TestSkeleton.Proofs.Rust.TypeRules
import TestSkeleton.Proofs.Rust.CratePath

/-! What the rule for library types sees of the text between an ampersand and the type behind it.

The rule cuts a text at its first bracket and takes what follows the last double colon. An ampersand in
the middle keeps whatever stands directly behind it from being read: either a path goes on behind that,
and then the part from its last colons on decides, or the ampersand itself is in the last segment, and
no library type has one. -/

namespace TestSkeleton.Rust

open Text Signature

theorem lookup_ampersand {t : Text} (member : '&' ∈ t) : wellKnownTypes.lookup t = none := by
  apply Table.lookup_eq_none_of_keys
  intro entry listed same
  have named := (wellKnownTypes_keys entry listed).1 '&' (same ▸ member)
  exact absurd named (by decide)

section Front

variable (front : Text) {w : Text} (absent : ':' ∉ w)

include absent

/-- Behind an ampersand a text without colons does not begin a segment. -/
theorem lastSegment_ampersand (t : Text) :
    (∃ segment, afterLast? "::".toList t = some segment ∧
      lastSegment (front ++ '&' :: (w ++ t)) = segment) ∨
    afterLast? "::".toList t = none ∧ '&' ∈ lastSegment (front ++ '&' :: (w ++ t)) := by
  have marks : ':' ∉ '&' :: w := by simpa using absent
  have reads : afterLast? "::".toList ('&' :: (w ++ t)) = afterLast? "::".toList t := by
    rw [← List.cons_append]
    exact afterLast?_append marks t
  cases path : afterLast? "::".toList t with
  | some segment =>
    have found := afterLast?_of_some front (reads.trans path)
    exact .inl ⟨segment, rfl, by rw [lastSegment, found, Option.getD_some]⟩
  | none =>
    rcases lastSegment_append_mark front (by decide : '&' ≠ ':') (reads.trans path) with ⟨lead, shape⟩
    exact .inr ⟨rfl, by simp [shape]⟩

/-- Whether the last segment is a given name shows behind the ampersand alone. -/
theorem lastSegment_ampersand_iff {name : Text} (plain : '&' ∉ name) (t : Text) :
    lastSegment (front ++ '&' :: (w ++ t)) = name ↔ afterLast? "::".toList t = some name := by
  rcases lastSegment_ampersand front absent t with ⟨segment, path, same⟩ | ⟨path, inside⟩
  · rw [path, same, Option.some.injEq]
  · rw [path]
    refine iff_of_false (fun same => plain (same ▸ inside)) nofun

end Front

/-- The library type that is read in a text with an ampersand in it and no bracket before that, given
what stands before and behind. -/
def libraryBehind? (front t : Text) : Option Text :=
  match afterLast? "::".toList (baseName t) with
  | none => none
  | some short =>
    match wellKnownTypes.lookup short with
    | none => none
    | some literal =>
      if baseName t ≠ t ∧ short ≠ "DateTime".toList then none
      else if short == "Duration".toList && startsWith "chrono::".toList front then
        some "chrono::Duration::seconds(1)".toList
      else some literal

section Library

variable {front w t : Text} (solid : ∀ c ∈ front.head?, isBlank c = false)
  (clean : ∀ c ∈ w, c ≠ '<' ∧ c ≠ '[' ∧ c ≠ ':')

include clean

theorem absent_colon : ':' ∉ w := fun member => (clean ':' member).2.2 rfl

theorem unbracketed_ampersand (plain : ∀ c ∈ front, c ≠ '<' ∧ c ≠ '[') :
    ∀ c ∈ front ++ '&' :: w, c ≠ '<' ∧ c ≠ '[' := by
  intro c member
  rcases List.mem_append.mp member with before | behind
  · exact plain c before
  · rcases List.mem_cons.mp behind with rfl | inside
    · decide
    · exact ⟨(clean c inside).1, (clean c inside).2.1⟩

include solid

/-- A bracket directly behind the marks leaves only them to be read. -/
theorem libraryLiteral?_stopped (plain : ∀ c ∈ front, c ≠ '<' ∧ c ≠ '[')
    (stopped : ∀ c ∈ t.head?, c = '<' ∨ c = '[') :
    libraryLiteral? (front ++ '&' :: (w ++ t)) = none := by
  have taken : (front ++ '&' :: (w ++ t)).takeWhile (fun c => decide (c ≠ '<' ∧ c ≠ '[')) =
      front ++ '&' :: w := by
    have run : ∀ c ∈ front ++ '&' :: w, decide (c ≠ '<' ∧ c ≠ '[') = true := fun c member =>
      decide_eq_true (unbracketed_ampersand clean plain c member)
    have ends : ∀ c ∈ t.head?, decide (c ≠ '<' ∧ c ≠ '[') = false := by
      intro c first
      rcases stopped c first with rfl | rfl <;> decide
    simpa using takeWhile_run run ends
  rcases trim_cons_solid w (by decide : isBlank '&' = false) with ⟨rest, shape⟩
  have kept : trim (front ++ '&' :: w) = front ++ '&' :: rest := by
    cases front with
    | nil => exact shape
    | cons d front =>
      rw [trim_append (List.cons_ne_nil d front) solid rfl (by decide), shape]
  have absent : ':' ∉ rest := by
    intro member
    have inside : ':' ∈ '&' :: w := mem_of_mem_trim (shape ▸ List.mem_cons_of_mem '&' member)
    rcases List.mem_cons.mp inside with colon | inside
    · exact absurd colon (by decide)
    · exact absent_colon clean inside
  apply libraryLiteral?_of_lookup
  rw [baseName_eq_trim_takeWhile, taken, kept]
  apply lookup_ampersand
  rcases lastSegment_ampersand front absent [] with ⟨segment, path, -⟩ | ⟨-, inside⟩
  · cases path
  · simpa using inside

/-- Without a bracket, the type behind the marks is read from its last colons on. -/
theorem libraryLiteral?_ampersand (plain : ∀ c ∈ front, c ≠ '<' ∧ c ≠ '[') {c : Char}
    (first : t.head? = some c) (visible : isBlank c = false) (other : c ≠ '<' ∧ c ≠ '[') :
    libraryLiteral? (front ++ '&' :: (w ++ t)) = libraryBehind? front t := by
  have head : ∀ d ∈ (front ++ '&' :: w).head?, isBlank d = false :=
    solid_append solid (by simp; decide)
  have base : baseName (front ++ '&' :: (w ++ t)) = front ++ '&' :: (w ++ baseName t) := by
    have cut := baseName_behind (by simp) head (unbracketed_ampersand clean plain) first visible other
    simpa using cut
  have chrono : startsWith "chrono::".toList (front ++ '&' :: (w ++ baseName t)) =
      startsWith "chrono::".toList front :=
    startsWith_append (by simp) front
  have whole : front ++ '&' :: (w ++ baseName t) ≠ front ++ '&' :: (w ++ t) ↔ baseName t ≠ t := by
    simp
  rcases lastSegment_ampersand front (absent_colon clean) (baseName t) with
    ⟨short, path, segment⟩ | ⟨path, inside⟩
  · cases known : wellKnownTypes.lookup short <;>
      simp only [libraryLiteral?, libraryBehind?, base, segment, path, chrono, whole, known]
  · rw [libraryLiteral?_of_lookup (by rw [base]; exact lookup_ampersand inside), libraryBehind?, path]

end Library

/-- What is written between an ampersand and a type does not change which library type is read. -/
theorem libraryLiteral?_congr (front : Text) {w t : Text} (solid : ∀ c ∈ front.head?, isBlank c = false)
    (clean : ∀ c ∈ w, c ≠ '<' ∧ c ≠ '[' ∧ c ≠ ':') (head : ∀ c ∈ t.head?, isBlank c = false) :
    libraryLiteral? (front ++ '&' :: (w ++ t)) = libraryLiteral? (front ++ '&' :: t) := by
  have none : ∀ c ∈ ([] : Text), c ≠ '<' ∧ c ≠ '[' ∧ c ≠ ':' := by simp
  by_cases bracket : ∃ c ∈ front, c = '<' ∨ c = '['
  · have base (r : Text) : baseName (front ++ r) = baseName front := baseName_bracket bracket r
    have apart (r : Text) : baseName front ≠ front ++ r := by
      intro same
      rcases bracket with ⟨c, member, mark⟩
      have inside : c ∈ baseName front := same ▸ List.mem_append_left r member
      rw [baseName_eq_trim_takeWhile] at inside
      have kept := List.all_eq_true.mp List.all_takeWhile c (mem_of_mem_trim inside)
      rw [decide_eq_true_eq] at kept
      exact mark.elim kept.1 kept.2
    simp only [libraryLiteral?, base, apart, ne_eq, not_false_eq_true, true_and]
  · have plain : ∀ c ∈ front, c ≠ '<' ∧ c ≠ '[' := by
      intro c member
      exact ⟨fun same => bracket ⟨c, member, .inl same⟩, fun same => bracket ⟨c, member, .inr same⟩⟩
    by_cases stopped : ∀ c ∈ t.head?, c = '<' ∨ c = '['
    · have bare := libraryLiteral?_stopped solid none plain stopped
      rw [List.nil_append] at bare
      rw [libraryLiteral?_stopped solid clean plain stopped, bare]
    · simp only [not_forall, not_or] at stopped
      rcases stopped with ⟨c, first, other⟩
      have bare := libraryLiteral?_ampersand solid none plain first (head c first) other
      rw [List.nil_append] at bare
      rw [libraryLiteral?_ampersand solid clean plain first (head c first) other, bare]

/-- Nor does it where more than an ampersand stands before the type. -/
theorem wellKnown?_congr {d : Char} {front w t : Text} (visible : isBlank d = false)
    (solid : ∀ c ∈ front.head?, isBlank c = false)
    (clean : ∀ c ∈ w, c ≠ '<' ∧ c ≠ '[' ∧ c ≠ ':') (head : ∀ c ∈ t.head?, isBlank c = false) :
    wellKnown? (d :: (front ++ '&' :: (w ++ t))) = wellKnown? (d :: (front ++ '&' :: t)) := by
  have whole : ∀ c ∈ (d :: front).head?, isBlank c = false := by simpa using visible
  have outer := libraryLiteral?_congr _ whole clean head
  rw [List.cons_append, List.cons_append] at outer
  by_cases reference : d = '&'
  · have inner := libraryLiteral?_congr _ solid clean head
    have path : lastSegment (front ++ '&' :: (w ++ t)) = "Path".toList ↔
        lastSegment (front ++ '&' :: t) = "Path".toList := by
      have bare := lastSegment_ampersand_iff front (w := []) (by simp)
        (by decide : '&' ∉ "Path".toList) t
      rw [List.nil_append] at bare
      rw [lastSegment_ampersand_iff front (absent_colon clean) (by decide : '&' ∉ "Path".toList), bare]
    rw [reference] at outer ⊢
    rw [wellKnown?_reference, wellKnown?_reference, inner, outer]
    exact if_congr path rfl rfl
  · rw [wellKnown?_eq (by simpa using reference), wellKnown?_eq (by simpa using reference), outer]

/-! What a lifetime in a reference changes.

The rules that look behind an ampersand drop a lifetime first, but for the rule for library types. That
one takes a reference to a path for the path itself when nothing stands between the two. -/

/-- The name of a lifetime, without its mark. -/
structure Lifetime where
  name : Text
  filled : name ≠ []
  word : ∀ c ∈ name, isWord c = true

namespace Lifetime

variable (a : Lifetime) (tight : Bool) (target : Text)

/-- What stands between the ampersand and what is referred to. A space may be missing where the name ends
without one. -/
def mark : Text :=
  '\'' :: (a.name ++ if tight && !target.head?.any isWord then [] else [' '])

def borrow : Text := '&' :: (a.mark tight target ++ target)

/-- A reference with that lifetime has none of these between its ampersand and its target. -/
theorem not_mem_mark {c : Char} (other : c ≠ '\'' ∧ c ≠ ' ' ∧ isWord c = false) :
    c ∉ a.mark tight target := by
  intro member
  rcases List.mem_cons.mp member with quote | inside
  · exact other.1 quote
  · rcases List.mem_append.mp inside with named | gap
    · exact absurd (a.word c named) (by simp [other.2.2])
    · split at gap
      · cases gap
      · exact other.2.1 (List.mem_singleton.mp gap)

theorem mark_clean : ∀ c ∈ a.mark tight target, c ≠ '<' ∧ c ≠ '[' ∧ c ≠ ':' := by
  have marks : ∀ c ∈ ['<', '[', ':'], c ≠ '\'' ∧ c ≠ ' ' ∧ isWord c = false := by decide
  have absent : ∀ c ∈ ['<', '[', ':'], c ∉ a.mark tight target := fun c listed =>
    a.not_mem_mark tight target (marks c listed)
  intro c member
  refine ⟨?_, ?_, ?_⟩
  · intro same
    exact absent '<' (by decide) (same ▸ member)
  · intro same
    exact absent '[' (by decide) (same ▸ member)
  · intro same
    exact absent ':' (by decide) (same ▸ member)

variable {target}

theorem dropLifetime_borrow (head : ∀ c ∈ target.head?, isBlank c = false) :
    dropLifetime (a.borrow tight target) = '&' :: target := by
  rcases List.exists_cons_of_ne_nil a.filled with ⟨c, r, shape⟩
  have first : (a.name ++ (if tight && !target.head?.any isWord then [] else [' ']) ++
      target).head?.any isWord = true := by
    simp [shape, a.word c (by simp [shape])]
  have stops : ∀ d ∈ ((if tight && !target.head?.any isWord then [] else [' ']) ++ target).head?,
      isWord d = false := by
    intro d found
    split at found
    · rename_i unspaced
      cases target with
      | nil => cases found
      | cons e rest =>
        obtain rfl : e = d := Option.some.inj found
        simpa using (Bool.and_eq_true_iff.mp unspaced).2
    · rw [← Option.some.inj found]
      decide
  have skipped : trimStart ((if tight && !target.head?.any isWord then [] else [' ']) ++ target) =
      target := by
    have kept : trimStart target = target := by
      cases target with
      | nil => rfl
      | cons e rest => exact List.dropWhile_cons_of_neg (by simp [head e rfl])
    split
    · exact kept
    · exact kept
  have shown : a.borrow tight target = '&' :: '\'' :: (a.name ++
      (if tight && !target.head?.any isWord then [] else [' ']) ++ target) := by
    simp [borrow, mark]
  rw [shown, dropLifetime, if_pos first, List.append_assoc, dropWhile_run a.word stops, skipped]

end Lifetime

/-- Whether a type behind an ampersand is taken for a path, which a lifetime in between prevents: the type
`Path`, and the name `Path` below a `DateTime`. -/
def IsBarePath (target : Text) : Prop :=
  target = "Path".toList ∨
    baseName target = "DateTime".toList ∧ afterLast? "::".toList target = some "Path".toList

/-- What has a nominal part does not begin with a bracket. -/
theorem exists_head_of_baseName {t : Text} (filled : baseName t ≠ []) :
    ∃ c, t.head? = some c ∧ c ≠ '<' ∧ c ≠ '[' := by
  cases t with
  | nil => exact absurd rfl filled
  | cons c r =>
    by_cases plain : c ≠ '<' ∧ c ≠ '['
    · exact ⟨c, rfl, plain⟩
    · rw [baseName_eq_trim_takeWhile, List.takeWhile_cons_of_neg (by simpa using plain)] at filled
      exact absurd rfl filled

/-- A text whose last segment is `Path` is no other library type without arguments. -/
theorem libraryLiteral?_of_path {target : Text}
    (below : afterLast? "::".toList target = some "Path".toList) :
    libraryLiteral? target =
      match wellKnownTypes.lookup (lastSegment (baseName target)) with
      | none => none
      | some literal =>
        if baseName target ≠ target ∧ lastSegment (baseName target) ≠ "DateTime".toList then none
        else some literal := by
  have segment : lastSegment target = "Path".toList := by rw [lastSegment, below, Option.getD_some]
  unfold libraryLiteral?
  dsimp only
  cases wellKnownTypes.lookup (lastSegment (baseName target)) with
  | none => rfl
  | some literal =>
    dsimp only
    by_cases whole : baseName target = target
    · have other : (lastSegment target == "Duration".toList) = false := by
        rw [segment]
        decide
      simp only [whole, other, Bool.false_and, Bool.false_eq_true, if_false]
    · by_cases date : lastSegment (baseName target) = "DateTime".toList
      · have other : (lastSegment (baseName target) == "Duration".toList) = false := by
          rw [date]
          decide
        simp only [other, Bool.false_and, Bool.false_eq_true, if_false]
      · rw [if_pos ⟨whole, date⟩, if_pos ⟨whole, date⟩]

namespace Lifetime

variable (a : Lifetime) (tight : Bool) {target : Text}

/-- The rule for library types reads a text without its ampersand where its last segment is `Path`. There
a lifetime hides a name that no path leads to. -/
theorem libraryLiteral?_mark (head : ∀ c ∈ target.head?, isBlank c = false)
    (below : afterLast? "::".toList target = some "Path".toList) :
    libraryLiteral? (a.mark tight target ++ target) =
      if baseName target = "DateTime".toList then none else libraryLiteral? target := by
  have clean := a.mark_clean tight target
  have absent : ':' ∉ a.mark tight target := fun member => (clean ':' member).2.2 rfl
  cases path : afterLast? "::".toList (baseName target) with
  | some short =>
    have filled : baseName target ≠ [] := by
      intro empty
      rw [empty] at path
      cases path
    have other : baseName target ≠ "DateTime".toList := by
      intro same
      rw [same] at path
      cases path
    rcases exists_head_of_baseName filled with ⟨c, first, plain⟩
    have base : baseName (a.mark tight target ++ target) = a.mark tight target ++ baseName target :=
      baseName_behind (List.cons_ne_nil _ _) (by simp [mark]; decide)
        (fun d member => ⟨(clean d member).1, (clean d member).2.1⟩) first (head c first) plain
    have segment : lastSegment (a.mark tight target ++ baseName target) = short := by
      rw [lastSegment, afterLast?_append absent, path, Option.getD_some]
    have bare : lastSegment (baseName target) = short := by rw [lastSegment, path, Option.getD_some]
    have chrono : startsWith "chrono::".toList (a.mark tight target ++ baseName target) = false := rfl
    rw [if_neg other, libraryLiteral?_of_path below]
    cases known : wellKnownTypes.lookup short <;>
      simp only [libraryLiteral?, base, segment, bare, chrono, Bool.and_false, Bool.false_eq_true, if_false,
        ne_eq, List.append_cancel_left_eq, known]
  | none =>
    have bare : lastSegment (baseName target) = baseName target := by rw [lastSegment, path, Option.getD_none]
    have hidden : libraryLiteral? (a.mark tight target ++ target) = none := by
      have quote : (a.mark tight target).head? = some '\'' := rfl
      rcases lastSegment_behind quote (by decide) clean head with found | first
      · rw [path] at found
        cases found
      · apply libraryLiteral?_of_lookup
        apply Table.lookup_eq_none_of_keys
        intro entry listed same
        have names := (wellKnownTypes_keys entry listed).1
        rw [← same] at first
        exact absurd (names '\'' (List.mem_of_mem_head? first)) (by decide)
    have whole : baseName target ≠ target := by
      intro same
      rw [same, below] at path
      cases path
    rw [hidden, libraryLiteral?_of_path below, bare]
    by_cases date : baseName target = "DateTime".toList
    · rw [if_pos date]
    · rw [if_neg date]
      cases wellKnownTypes.lookup (baseName target) with
      | none => rfl
      | some literal => exact (if_pos ⟨whole, date⟩).symm

theorem lastSegment_mark_iff : lastSegment (a.mark tight target ++ target) = "Path".toList ↔
    afterLast? "::".toList target = some "Path".toList := by
  have absent : ':' ∉ a.mark tight target := fun member => (a.mark_clean tight target ':' member).2.2 rfl
  rw [lastSegment, afterLast?_append absent]
  cases afterLast? "::".toList target with
  | some segment => rw [Option.getD_some, Option.some.injEq]
  | none =>
    rw [Option.getD_none]
    constructor
    · intro same
      cases List.head_eq_of_cons_eq same
    · intro found
      cases found

/-- A lifetime does not change which library type a reference is read as, but for a bare path. -/
theorem wellKnown?_borrow (head : ∀ c ∈ target.head?, isBlank c = false) (kept : ¬IsBarePath target) :
    wellKnown? (a.borrow tight target) = wellKnown? ('&' :: target) := by
  have outer := libraryLiteral?_congr [] (by simp) (a.mark_clean tight target) head
  rw [List.nil_append, List.nil_append] at outer
  rw [borrow, wellKnown?_reference, wellKnown?_reference, outer]
  by_cases below : afterLast? "::".toList target = some "Path".toList
  · have other : baseName target ≠ "DateTime".toList := fun date => kept (.inr ⟨date, below⟩)
    have segment : lastSegment target = "Path".toList := by rw [lastSegment, below, Option.getD_some]
    rw [if_pos ((a.lastSegment_mark_iff tight).mpr below), if_pos segment,
      a.libraryLiteral?_mark tight head below, if_neg other]
  · have segment : lastSegment target ≠ "Path".toList := by
      intro same
      rw [lastSegment] at same
      cases path : afterLast? "::".toList target with
      | some short =>
        rw [path, Option.getD_some] at same
        exact below (path.trans (congrArg some same))
      | none =>
        rw [path, Option.getD_none] at same
        exact kept (.inl same)
    rw [if_neg ((a.lastSegment_mark_iff tight).not.mpr below), if_neg segment]

/-- A bare path is not read as one behind a lifetime. -/
theorem wellKnown?_bare (head : ∀ c ∈ target.head?, isBlank c = false) (bare : IsBarePath target) :
    wellKnown? (a.borrow tight target) = none ∧ ∃ literal, wellKnown? ('&' :: target) = some literal := by
  rcases bare with rfl | ⟨date, below⟩
  · have outer := libraryLiteral?_congr [] (by simp) (a.mark_clean tight "Path".toList) head
    have plain : libraryLiteral? "&Path".toList = none := by decide
    have other : afterLast? "::".toList "Path".toList ≠ some "Path".toList := by decide
    refine ⟨?_, _, (by decide : wellKnown? "&Path".toList = some "std::path::Path::new(\".\")".toList)⟩
    rw [borrow, wellKnown?_reference, if_neg ((a.lastSegment_mark_iff tight).not.mpr other)]
    exact outer.trans plain
  · have segment : lastSegment target = "Path".toList := by rw [lastSegment, below, Option.getD_some]
    have known : wellKnownTypes.lookup (lastSegment (baseName target)) =
        some "chrono::Utc::now()".toList := by
      rw [date]
      decide
    constructor
    · rw [borrow, wellKnown?_reference, if_pos ((a.lastSegment_mark_iff tight).mpr below),
        a.libraryLiteral?_mark tight head below, if_pos date]
    · refine ⟨"chrono::Utc::now()".toList, ?_⟩
      have named : lastSegment (baseName target) = "DateTime".toList := by
        rw [date]
        decide
      rw [wellKnown?_reference, if_pos segment, libraryLiteral?_of_path below, known]
      exact if_neg fun apart => apart.2 named

end Lifetime

end TestSkeleton.Rust
