import TestSkeleton.Proofs.Rust.LayerText

/-! Library types with their crate path in front.

The rule for library types goes first and looks at the whole text: at what stands before its first
bracket, and there at what follows the last double colon. So the path of a library type inside a larger
type can make the larger type pass for it. -/

namespace TestSkeleton.Rust

open Text Signature TypeTerm

/-- The names without arguments that are known with their crate path and without it. -/
def cratePaths : List (Text × Text) :=
  [("PathBuf", "std::path"), ("Path", "std::path"), ("Uuid", "uuid"), ("Url", "url"),
   ("NaiveDate", "chrono")].map fun entry => (entry.1.toList, entry.2.toList)

def dateTimeName : Text := "DateTime".toList

def chronoPath : Text := "chrono".toList

def libraryNames : List Text := dateTimeName :: cratePaths.map Prod.fst

/-- The crate paths, up to the name. -/
def crateFronts : List Text := (chronoPath :: cratePaths.map Prod.snd).map (· ++ [':', ':'])

/-- The library types that have a crate path. -/
inductive LibraryType where
  | named (name path : Text) (listed : (name, path) ∈ cratePaths)
  | dateTime (arguments : List Piece)

namespace LibraryType

def name : LibraryType → Text
  | named name _ _ => name
  | dateTime _ => dateTimeName

/-- The crate path, up to the name. -/
def front : LibraryType → Text
  | named _ path _ => path ++ [':', ':']
  | dateTime _ => chronoPath ++ [':', ':']

/-- What stands behind the name. -/
def behind : LibraryType → Text
  | named _ _ _ => []
  | dateTime arguments => '<' :: (join [',', ' '] (arguments.map Piece.text) ++ ['>'])

def text (k : LibraryType) : Text := k.name ++ k.behind

/-- The type with its crate path in front of the name. -/
def qualified (k : LibraryType) : Text := k.front ++ k.text

theorem name_mem (k : LibraryType) : k.name ∈ libraryNames := by
  cases k with
  | named name path listed => exact List.mem_cons_of_mem _ (List.mem_map.mpr ⟨(name, path), listed, rfl⟩)
  | dateTime arguments => exact List.mem_cons_self

theorem front_mem (k : LibraryType) : k.front ∈ crateFronts := by
  cases k with
  | named name path listed =>
    exact List.mem_map_of_mem (List.mem_cons_of_mem _ (List.mem_map.mpr ⟨(name, path), listed, rfl⟩))
  | dateTime arguments => exact List.mem_map_of_mem List.mem_cons_self

theorem name_ne_nil (k : LibraryType) : k.name ≠ [] :=
  (by decide : ∀ u ∈ libraryNames, u ≠ []) k.name k.name_mem

theorem isNameChar_name (k : LibraryType) : ∀ c ∈ k.name, isNameChar c = true :=
  (by decide : ∀ u ∈ libraryNames, ∀ c ∈ u, isNameChar c = true) k.name k.name_mem

/-- The names are known, and none is that of a type with two crates. -/
theorem lookup_name (k : LibraryType) :
    (wellKnownTypes.lookup k.name).isSome = true ∧ k.name ≠ "Duration".toList :=
  (by decide : ∀ u ∈ libraryNames, (wellKnownTypes.lookup u).isSome = true ∧ u ≠ "Duration".toList)
    k.name k.name_mem

theorem not_mem_name (k : LibraryType) {mark : Char} (other : isNameChar mark = false) : mark ∉ k.name := by
  intro member
  rw [k.isNameChar_name mark member] at other
  cases other

theorem name_clean (k : LibraryType) : ∀ c ∈ k.name, c ≠ '<' ∧ c ≠ '[' := by
  intro c member
  simpa using not_mem_of_isNameChar ['<', '['] (by decide) (k.isNameChar_name c member)

theorem head_text (k : LibraryType) : ∀ c ∈ k.text.head?, c ∈ ['P', 'U', 'N', 'D'] := by
  rw [text, List.head?_append, Option.or_of_isSome (by simpa using k.name_ne_nil)]
  intro c found
  exact (by decide : ∀ u ∈ libraryNames, ∀ d ∈ u.head?.toList, d ∈ ['P', 'U', 'N', 'D']) k.name k.name_mem c
    (Option.mem_toList.mpr found)

theorem front_ne_nil (k : LibraryType) : k.front ≠ [] :=
  (by decide : ∀ u ∈ crateFronts, u ≠ []) k.front k.front_mem

theorem head_front (k : LibraryType) : ∀ c ∈ k.front.head?, c ∈ ['s', 'u', 'c'] := fun c found =>
  (by decide : ∀ u ∈ crateFronts, ∀ d ∈ u.head?.toList, d ∈ ['s', 'u', 'c']) k.front k.front_mem c
    (Option.mem_toList.mpr found)

theorem front_solid (k : LibraryType) : ∀ c ∈ k.front.head?, isBlank c = false := fun c found =>
  (by decide : ∀ d ∈ ['s', 'u', 'c'], isBlank d = false) c (k.head_front c found)

theorem head_qualified (k : LibraryType) : ∀ c ∈ k.qualified.head?, c ∈ ['s', 'u', 'c'] := by
  rw [qualified, List.head?_append, Option.or_of_isSome (by simpa using k.front_ne_nil)]
  exact k.head_front

theorem front_clean (k : LibraryType) : ∀ c ∈ k.front, c ≠ '<' ∧ c ≠ '[' :=
  (by decide : ∀ u ∈ crateFronts, ∀ c ∈ u, c ≠ '<' ∧ c ≠ '[') k.front k.front_mem

theorem front_eq (k : LibraryType) : ∃ path, k.front = path ++ "::".toList := by
  cases k with
  | named name path listed => exact ⟨path, rfl⟩
  | dateTime arguments => exact ⟨chronoPath, rfl⟩

theorem isPiece_text (k : LibraryType) : IsPiece k.text := by
  have filled := k.name_ne_nil
  have names := k.isNameChar_name
  cases k with
  | dateTime arguments =>
    rw [text, behind, ← applied_eq]
    apply IsPiece.applied names
    intro u member
    obtain ⟨p, -, rfl⟩ := List.mem_map.mp member
    exact p.isPiece
  | named name path listed =>
    rw [text, behind, List.append_nil]
    exact IsPiece.names filled names

theorem isPart_text (k : LibraryType) : IsPart k.text := by
  have heads := k.head_text
  refine ⟨k.isPiece_text, IsTarget.of_head fun c found => ?_, fun same => ?_⟩
  · exact (by decide : ∀ d ∈ ['P', 'U', 'N', 'D'], d ≠ '\'' ∧ d ≠ 'm') c (heads c found)
  · exact absurd (heads 's' (by rw [same]; rfl)) (by decide)

theorem isPart_qualified (k : LibraryType) : IsPart k.qualified := by
  have marks : ∀ u ∈ crateFronts, Whole [','] u ∧ u.getLast? ≠ some '-' ∧ ';' ∉ u ∧ ':' ∈ u := by decide
  obtain ⟨whole, dash, plain, colon⟩ := marks k.front k.front_mem
  refine ⟨k.isPiece_text.behind k.front_ne_nil k.front_solid whole dash plain, ?_, ?_⟩
  · apply IsTarget.of_head
    exact fun c found => (by decide : ∀ d ∈ ['s', 'u', 'c'], d ≠ '\'' ∧ d ≠ 'm') c (k.head_qualified c found)
  · intro same
    have member : ':' ∈ "str".toList := same ▸ List.mem_append_left _ colon
    exact absurd member (by decide)

section Reading

variable (k : LibraryType) (lead rest : Text)

/-- Behind anything without brackets, the nominal part reaches to the end of the name. -/
theorem baseName_text (clean : ∀ c ∈ lead, c ≠ '<' ∧ c ≠ '[') (solid : ∀ c ∈ lead.head?, isBlank c = false)
    (stopped : ∀ c ∈ (k.behind ++ rest).head?, c = '<') :
    baseName (lead ++ k.text ++ rest) = lead ++ k.name := by
  have names := k.isNameChar_name
  have split : lead ++ k.text ++ rest = lead ++ k.name ++ (k.behind ++ rest) := by simp [text]
  rw [split]
  refine baseName_run (fun c member => ?_) (fun c first => Or.inl (stopped c first)) (trim_eq_self ?_ ?_)
  · rcases List.mem_append.mp member with member | member
    · exact clean c member
    · exact k.name_clean c member
  · exact solid_append solid fun c found => solid_of_isNameChar (names c (List.mem_of_head? found))
  · intro c found
    rw [List.getLast?_append, Option.or_of_isSome (by simpa using k.name_ne_nil)] at found
    exact solid_of_isNameChar (names c (List.mem_of_getLast? found))

/-- Behind its crate path the name is the last segment. -/
theorem baseName_qualified (clean : ∀ c ∈ lead, c ≠ '<' ∧ c ≠ '[')
    (solid : ∀ c ∈ lead.head?, isBlank c = false) (stopped : ∀ c ∈ (k.behind ++ rest).head?, c = '<') :
    baseName (lead ++ k.qualified ++ rest) = lead ++ k.front ++ k.name ∧
      lastSegment (baseName (lead ++ k.qualified ++ rest)) = k.name := by
  obtain ⟨path, shape⟩ := k.front_eq
  have base := k.baseName_text (lead ++ k.front) rest
    (fun c member => (List.mem_append.mp member).elim (clean c) (k.front_clean c))
    (solid_append solid k.front_solid) stopped
  have whole : baseName (lead ++ k.qualified ++ rest) = lead ++ k.front ++ k.name := by
    rw [qualified, ← List.append_assoc, base]
  refine ⟨whole, ?_⟩
  rw [whole, shape, ← List.append_assoc, lastSegment_separated _ (k.not_mem_name (by decide))]

/-- Behind a mark, the name without a path is not the whole of the last segment. -/
theorem mark_mem_lastSegment {mark : Char} (clean : ∀ c ∈ lead ++ [mark], c ≠ '<' ∧ c ≠ '[')
    (solid : ∀ c ∈ (lead ++ [mark]).head?, isBlank c = false) (other : mark ≠ ':')
    (stopped : ∀ c ∈ (k.behind ++ rest).head?, c = '<') :
    mark ∈ lastSegment (baseName (lead ++ [mark] ++ k.text ++ rest)) := by
  have absent : ':' ∉ mark :: k.name := by simpa [other.symm] using k.not_mem_name (by decide)
  obtain ⟨before, segment⟩ := lastSegment_append_mark lead other (afterLast?_eq_none absent)
  rw [k.baseName_text _ rest clean solid stopped, List.append_assoc, List.singleton_append, segment]
  simp

theorem libraryLiteral?_qualified (clean : ∀ c ∈ lead, c ≠ '<' ∧ c ≠ '[')
    (solid : ∀ c ∈ lead.head?, isBlank c = false) (plain : k.behind = []) :
    libraryLiteral? (lead ++ k.qualified) = wellKnownTypes.lookup k.name := by
  obtain ⟨base, segment⟩ := k.baseName_qualified lead [] clean solid (by simp [plain])
  have whole : lead ++ k.front ++ k.name = lead ++ k.qualified := by simp [qualified, text, plain]
  rw [List.append_nil] at base segment
  rw [base, whole] at segment
  rw [whole] at base
  rw [libraryLiteral?_path base (by rw [segment]; exact k.lookup_name.2), segment]

end Reading

/-- With its path or without it, a type with arguments ends in a bracket. -/
theorem last_dateTime (arguments : List Piece) : (dateTime arguments).text.getLast? = some '>' ∧
    (dateTime arguments).qualified.getLast? = some '>' := by
  simp [qualified, text, behind, List.getLast?_append, List.getLast?_cons]

theorem exists_wellKnown? (k : LibraryType) : ∃ literal, wellKnown? k.text = some literal := by
  have filled := k.name_ne_nil
  have names := k.isNameChar_name
  have known := k.lookup_name.1
  cases k with
  | named name path listed =>
    rw [text, behind, List.append_nil, wellKnown?_names filled names, ← Option.isSome_iff_exists]
    exact known
  | dateTime arguments =>
    rw [text, behind, wellKnown?_applied filled names]
    exact ⟨_, if_pos rfl⟩

/-- A library type itself is known with its crate path and without it. -/
theorem wellKnown?_qualified (k : LibraryType) : wellKnown? k.qualified = wellKnown? k.text := by
  have filled := k.name_ne_nil
  have names := k.isNameChar_name
  have first : ∀ c ∈ k.qualified.head?, c ≠ '&' := fun c found =>
    (by decide : ∀ d ∈ ['s', 'u', 'c'], d ≠ '&') c (k.head_qualified c found)
  cases k with
  | named name path listed =>
    have alone := libraryLiteral?_qualified (named name path listed) [] (by simp) (by simp) rfl
    rw [List.nil_append] at alone
    rw [wellKnown?_eq first, alone, text, behind, List.append_nil, wellKnown?_names filled names]
  | dateTime arguments =>
    obtain ⟨-, segment⟩ := (dateTime arguments).baseName_qualified [] [] (by simp)
      (by simp) (by simp [behind])
    rw [List.nil_append, List.append_nil] at segment
    rw [wellKnown?_closed (last_dateTime arguments).2 (by decide), segment, text, behind,
      wellKnown?_applied filled names]

end LibraryType

def pathName : Text := "Path".toList

/-- Whether the layers around a library type with its crate path are read as if they were part of the path.
A reference to a path is known without its ampersand, so that one is rightly read. -/
def LibraryType.Swallows (k : LibraryType) (ls : List Layer) : Prop :=
  ls ≠ [] ∧ match k with
    | named name _ _ => (∀ l ∈ ls, l.IsReference) ∧ ¬(name = pathName ∧ ls = [.wrapper .reference])
    | dateTime _ => ∀ l ∈ ls, l.IsOpen

namespace LibraryType

section Layers

variable {k : LibraryType} {ls : List Layer}

/-- References around a name are read as part of its path where the name has one, and only there. -/
theorem wellKnown?_references {name path : Text} (listed : (name, path) ∈ cratePaths) (filled : ls ≠ [])
    (references : ∀ l ∈ ls, l.IsReference) (other : ¬(name = pathName ∧ ls = [.wrapper .reference])) :
    wellKnown? (ls.foldr Layer.spell (named name path listed).text) = none ∧
      wellKnown? (ls.foldr Layer.spell (named name path listed).qualified) =
        wellKnownTypes.lookup name := by
  obtain ⟨marks, chars, solid, alone, shape⟩ := foldr_references filled references
  rw [shape, shape]
  constructor
  · have bare : (named name path listed).text = name := by simp [text, behind, LibraryType.name]
    rw [bare]
    apply wellKnown?_marked
    · intro member
      rcases List.mem_append.mp (List.mem_of_ne_of_mem (by decide) member) with inside | inside
      · exact absurd (chars ':' inside) (by decide)
      · exact (named name path listed).not_mem_name (by decide) inside
    · exact ⟨'&', rfl, by simp⟩
    · intro same
      have whole : marks ++ name = pathName := List.tail_eq_of_cons_eq same
      cases marks with
      | nil => exact other ⟨whole, alone rfl⟩
      | cons c r =>
        obtain rfl : c = 'P' := List.head_eq_of_cons_eq whole
        exact absurd (chars 'P' (by simp)) (by decide)
  · have plain : ∀ d ∈ '&' :: Layer.referenceChars, d ≠ '<' ∧ d ≠ '[' := by decide
    have clean : ∀ c ∈ '&' :: marks, c ≠ '<' ∧ c ≠ '[' := fun c member =>
      plain c (List.cons_subset_cons '&' chars member)
    have target := libraryLiteral?_qualified (named name path listed) marks
      (fun c member => clean c (List.mem_cons_of_mem '&' member)) solid rfl
    have whole := libraryLiteral?_qualified (named name path listed) ('&' :: marks) clean
      (by simp; decide) rfl
    rw [List.cons_append] at whole
    rw [wellKnown?_reference, target, whole, ite_self]
    rfl

/-- What is read of a type when its layers are swallowed. -/
theorem wellKnown?_swallowed (swallows : k.Swallows ls) :
    wellKnown? (ls.foldr Layer.spell k.text) = none ∧
      ∃ literal, wellKnown? (ls.foldr Layer.spell k.qualified) = some literal := by
  obtain ⟨filled, around⟩ := swallows
  cases k with
  | named name path listed =>
    obtain ⟨unread, read⟩ := wellKnown?_references listed filled around.1 around.2
    refine ⟨unread, ?_⟩
    rw [read, ← Option.isSome_iff_exists]
    exact (named name path listed).lookup_name.1
  | dateTime arguments =>
    have clean := beforePart_clean around
    have solid := beforePart_solid around
    have stopped : ∀ c ∈ ((dateTime arguments).behind ++ behindPart ls).head?, c = '<' := by
      simp [behind]
    obtain ⟨bare, full⟩ := last_dateTime arguments
    constructor
    · obtain ⟨z, last, mark⟩ := foldr_spell_last ls (Or.inl ⟨'>', by decide, bare⟩)
      obtain ⟨-, lead, before, listed, shape⟩ := beforePart_ends filled around
      have inside := (dateTime arguments).mark_mem_lastSegment lead _ (shape ▸ clean) (shape ▸ solid)
        ((by decide : ∀ d ∈ Layer.partMarks, d ≠ ':') before listed) stopped
      rw [← shape, ← foldr_spell_eq] at inside
      rw [wellKnown?_closed last mark, if_neg]
      intro same
      rw [same] at inside
      exact (by decide : ∀ d ∈ Layer.partMarks, d ∉ "DateTime".toList) before listed inside
    · obtain ⟨z, last, mark⟩ := foldr_spell_last ls (Or.inl ⟨'>', by decide, full⟩)
      obtain ⟨-, segment⟩ := (dateTime arguments).baseName_qualified _ _ clean solid stopped
      rw [← foldr_spell_eq] at segment
      rw [wellKnown?_closed last mark, segment, if_pos (by rfl)]
      exact ⟨_, rfl⟩

/-- Whether a mark is followed by a path to `DateTime` does not depend on what stands before the mark. -/
theorem lastSegment_dateTime_iff {front rest : Text} {mark : Char} (filled : front ≠ [])
    (solid : ∀ c ∈ front.head?, isBlank c = false) (clean : ∀ c ∈ front, c ≠ '<' ∧ c ≠ '[')
    (listed : mark ∈ [',', ')']) : lastSegment (baseName (front ++ mark :: rest)) = dateTimeName ↔
      afterLast? "::".toList (baseName (mark :: rest)) = some dateTimeName := by
  have marks : ∀ d ∈ [',', ')'], isBlank d = false ∧ d ≠ '<' ∧ d ≠ '[' ∧ d ≠ ':' ∧ d ∉ dateTimeName := by
    decide
  obtain ⟨visible, angle, square, colon, absent⟩ := marks mark listed
  have base : baseName (front ++ mark :: rest) = front ++ baseName (mark :: rest) :=
    baseName_behind filled solid clean rfl visible ⟨angle, square⟩
  rw [base]
  cases path : afterLast? "::".toList (baseName (mark :: rest)) with
  | some segment => rw [lastSegment, afterLast?_of_some front path, Option.getD_some, Option.some.injEq]
  | none =>
    obtain ⟨kept, shape⟩ := trim_cons_solid (rest.takeWhile fun c => decide (c ≠ '<' ∧ c ≠ '[')) visible
    have start : baseName (mark :: rest) = mark :: kept := by
      rw [baseName_eq_trim_takeWhile, List.takeWhile_cons_of_pos (by simp [angle, square]), shape]
    obtain ⟨lead, segment⟩ := lastSegment_append_mark front colon (start ▸ path)
    rw [start, segment]
    simp only [reduceCtorEq, iff_false]
    intro same
    exact absent (same ▸ by simp)

/-- Between the parts of a tuple, what stands before the first bracket in its place does not matter. -/
theorem lastSegment_enclosed (open' : ∀ l ∈ ls, l.IsOpen) (other : ¬∀ l ∈ ls, l.IsReference) {u v : Text}
    (piece : IsPiece u) (clean : ∀ c ∈ u, c ≠ '<' ∧ c ≠ '[') (piece' : IsPiece v)
    (clean' : ∀ c ∈ v, c ≠ '<' ∧ c ≠ '[') :
    lastSegment (baseName (ls.foldr Layer.spell u)) = dateTimeName ↔
      lastSegment (baseName (ls.foldr Layer.spell v)) = dateTimeName := by
  obtain ⟨mark, listed, rest, behind⟩ := behindPart_head open' other
  have read : ∀ w, IsPiece w → (∀ c ∈ w, c ≠ '<' ∧ c ≠ '[') →
      (lastSegment (baseName (ls.foldr Layer.spell w)) = dateTimeName ↔
        afterLast? "::".toList (baseName (mark :: rest)) = some dateTimeName) := by
    intro w piece clean
    rw [foldr_spell_eq, behind]
    refine lastSegment_dateTime_iff (by simp [piece.filled])
      (solid_append (beforePart_solid open') piece.head_solid) (fun c member => ?_) listed
    exact (List.mem_append.mp member).elim (beforePart_clean open' c) (clean c)
  rw [read u piece clean, read v piece' clean']

/-- Where the layers are not swallowed, the path makes no difference to what the whole text is read as. -/
theorem wellKnown?_kept (filled : ls ≠ []) (kept : ¬k.Swallows ls) :
    wellKnown? (ls.foldr Layer.spell k.qualified) = wellKnown? (ls.foldr Layer.spell k.text) := by
  by_cases references : ∀ l ∈ ls, l.IsReference
  · have open' : ∀ l ∈ ls, l.IsOpen := fun l member => (references l member).isOpen
    cases k with
    | dateTime arguments => exact absurd ⟨filled, open'⟩ kept
    | named name path listed =>
      obtain ⟨rfl, rfl⟩ : name = pathName ∧ ls = [.wrapper .reference] := by
        by_contra other
        exact kept ⟨filled, references, other⟩
      have only : ∀ entry ∈ cratePaths, entry.1 = pathName → entry.2 = "std::path".toList := by decide
      obtain rfl : path = "std::path".toList := only (pathName, path) listed rfl
      have same : wellKnown? "&std::path::Path".toList = wellKnown? "&Path".toList := by decide
      exact same
  · -- The text ends in a bracket, so all that counts is whether it reads as `DateTime` with arguments.
    obtain ⟨z, bare, mark⟩ := foldr_spell_last ls (u := k.text) (Or.inr references)
    obtain ⟨z', full, mark'⟩ := foldr_spell_last ls (u := k.qualified) (Or.inr references)
    rw [wellKnown?_closed bare mark, wellKnown?_closed full mark']
    by_cases open' : ∀ l ∈ ls, l.IsOpen
    · cases k with
      | dateTime arguments => exact absurd ⟨filled, open'⟩ kept
      | named name path listed =>
        have bare : (named name path listed).text = (named name path listed).name := by simp [text, behind]
        have clean : ∀ c ∈ (named name path listed).text, c ≠ '<' ∧ c ≠ '[' := by
          rw [bare]
          exact name_clean _
        have same := lastSegment_enclosed open' references
          (isPart_qualified (named name path listed)).isPiece
          (fun c member => (List.mem_append.mp member).elim (front_clean _ c) (clean c)) (isPiece_text _)
          clean
        exact if_congr same rfl rfl
    · have bracket := exists_bracket_beforePart open'
      simp only [foldr_spell_eq, List.append_assoc, baseName_bracket bracket]

end Layers

end LibraryType

end TestSkeleton.Rust
