import TestSkeleton.Proofs.Rust.LayerLiteral

/-! Literals of types that begin with a keyword and not with a path.

A trait object, an opaque type and a function pointer have the general default. The rule for nominal
types cuts off the last segment of the text before the first bracket and does not see where that path
begins. So a path behind the keyword, in a trait or in a signature, can pass for the type itself. -/

namespace TestSkeleton.Rust

open Text Signature TypeTerm

/-- What opaque types, trait objects and function pointers begin with. -/
def typeKeywords : List Text := ["impl ", "dyn ", "fn("].map String.toList

/-- A type that begins with a keyword, whatever path, arguments and result stand behind it. -/
structure KeywordType extends Piece where
  keyword : ∃ word ∈ typeKeywords, ∃ rest, text = word ++ rest

/-- Whether a path stands before the first bracket whose last segment is capitalized. -/
def KeywordType.isMisread (k : KeywordType) : Bool :=
  (afterLast? "::".toList (baseName k.text)).any isCapitalized

namespace KeywordType

theorem head (k : KeywordType) : ∃ c ∈ ['i', 'd', 'f'], k.text.head? = some c := by
  obtain ⟨word, listed, rest, shape⟩ := k.keyword
  simp only [typeKeywords, List.map_cons, List.map_nil, List.mem_cons, List.not_mem_nil, or_false] at listed
  rw [shape]
  rcases listed with rfl | rfl | rfl
  · exact ⟨'i', by decide, rfl⟩
  · exact ⟨'d', by decide, rfl⟩
  · exact ⟨'f', by decide, rfl⟩

/-- No other rule looks at types with these first letters. -/
theorem head_ne (k : KeywordType) {c : Char} (other : c ∉ ['i', 'd', 'f']) : ∀ d ∈ k.text.head?, d ≠ c := by
  obtain ⟨e, listed, first⟩ := k.head
  rintro d found rfl
  obtain rfl : e = d := Option.some.inj (first.symm.trans found)
  exact other listed

theorem exists_mark (k : KeywordType) : ∃ mark ∈ k.text, isNameChar mark = false := by
  obtain ⟨word, listed, rest, shape⟩ := k.keyword
  have marked : ∀ w ∈ typeKeywords, w.any (!isNameChar ·) = true := by decide
  obtain ⟨mark, member, other⟩ := List.any_eq_true.mp (marked word listed)
  exact ⟨mark, shape ▸ List.mem_append_left rest member, by simpa using other⟩

theorem head_baseName (k : KeywordType) : isCapitalized (baseName k.text) = false := by
  obtain ⟨c, listed, first⟩ := k.head
  have plain : ∀ d ∈ ['i', 'd', 'f'], isBlank d = false ∧ isUpper d = false ∧ d ≠ '<' ∧ d ≠ '[' := by
    decide
  obtain ⟨visible, lower, bracket⟩ := plain c listed
  cases shape : k.text with
  | nil => simp [shape] at first
  | cons d r =>
    obtain rfl : d = c := by simpa [shape] using first
    rw [baseName_eq_trim_takeWhile, List.takeWhile_cons_of_pos (by simpa using bracket)]
    obtain ⟨rest, kept⟩ := trim_cons_solid (r.takeWhile fun c => decide (c ≠ '<' ∧ c ≠ '[')) visible
    rw [kept]
    exact lower

theorem isNominal_eq (k : KeywordType) : isNominal k.text = k.isMisread := by
  rw [isNominal, isMisread, lastSegment]
  cases afterLast? "::".toList (baseName k.text) with
  | none => exact k.head_baseName
  | some segment => rfl

theorem isPart (k : KeywordType) : IsPart k.text where
  isPiece := k.isPiece
  isTarget :=
    IsTarget.of_head fun c found => ⟨k.head_ne (by decide) c found, k.head_ne (by decide) c found⟩
  notText := by
    intro same
    exact k.head_ne (c := 's') (by decide) 's' (by rw [same]; rfl) rfl

/-- A name behind the segments of a path. -/
def pathText (front : List TypeName) (name : TypeName) : Text :=
  front.flatMap (·.text ++ "::".toList) ++ name.text

theorem pathText_clean (front : List TypeName) (name : TypeName) :
    ∀ c ∈ pathText front name, c ≠ '<' ∧ c ≠ '[' := by
  have named : ∀ n : TypeName, ∀ c ∈ n.text, c ≠ '<' ∧ c ≠ '[' := by
    intro n c member
    simpa using not_mem_of_isNameChar ['<', '['] (by decide) (n.isNameChar c member)
  intro c member
  simp only [pathText, List.mem_append, List.mem_flatMap] at member
  rcases member with ⟨n, -, member | colon⟩ | member
  · exact named n c member
  · exact (by decide : ∀ d ∈ "::".toList, d ≠ '<' ∧ d ≠ '[') c colon
  · exact named name c member

/-- Behind a keyword a name has a path only when it has segments in front of it. -/
theorem afterLast?_pathText {word : Text} (plain : ':' ∉ word) (front : List TypeName) (name : TypeName) :
    afterLast? "::".toList (word ++ pathText front name) =
      if front.isEmpty then none else some name.text := by
  have absent : ':' ∉ name.text := fun member =>
    not_mem_of_isNameChar [':'] (by decide) (name.isNameChar _ member) (by simp)
  cases front using List.reverseRecOn with
  | nil =>
    have local' : ':' ∉ word ++ name.text := by simp [plain, absent]
    rw [pathText, List.flatMap_nil, List.nil_append]
    exact afterLast?_eq_none local'
  | append_singleton front last =>
    have path : word ++ pathText (front ++ [last]) name =
        word ++ front.flatMap (·.text ++ "::".toList) ++ last.text ++ "::".toList ++ name.text := by
      simp [pathText]
    rw [path, afterLast?_separated _ absent]
    simp

/-- A trait is misread exactly when it has a path and its name is capitalized. Behind the first segment
with arguments nothing more is looked at. -/
theorem isMisread_trait (k : KeywordType) {word : Text} (listed : word ∈ ["impl ".toList, "dyn ".toList])
    (front : List TypeName) (name : TypeName) {behind : Text} (stopped : ∀ c ∈ behind.head?, c = '<')
    (shape : k.text = word ++ pathText front name ++ behind) :
    k.isMisread = (!front.isEmpty && isCapitalized name.text) := by
  have plain : (∀ c ∈ word, c ≠ '<' ∧ c ≠ '[') ∧ ':' ∉ word ∧ word ≠ [] ∧
      ∀ c ∈ word.head?.toList, isBlank c = false := by
    simp only [List.mem_cons, List.not_mem_nil, or_false] at listed
    rcases listed with rfl | rfl <;> decide
  obtain ⟨clean, colon, filled, visible⟩ := plain
  have base : baseName k.text = word ++ pathText front name := by
    rw [shape]
    refine baseName_run (fun c member => ?_) (fun c first => Or.inl (stopped c first)) ?_
    · rcases List.mem_append.mp member with member | member
      · exact clean c member
      · exact pathText_clean front name c member
    · apply trim_eq_self
      · rw [List.head?_append, Option.or_of_isSome (by simpa using filled)]
        exact fun c found => visible c (Option.mem_toList.mpr found)
      · intro c found
        rw [pathText, ← List.append_assoc, List.getLast?_append,
          Option.or_of_isSome (by simpa using name.ne_nil)] at found
        exact solid_of_isNameChar (name.isNameChar c (List.mem_of_getLast? found))
  rw [isMisread, base, afterLast?_pathText colon]
  cases front <;> rfl

end KeywordType

/-- A text that is not read as a library type, and does not come to be when ampersands stand in front. -/
structure Unread (u : Text) : Prop extends IsPart u where
  unknown : wellKnownTypes.lookup (lastSegment (baseName u)) = none

namespace Unread

/-- Marks in front of what is not known do not make it known. -/
theorem lookup_behind {u : Text} (unread : Unread u) (marks : Text) {mark : Char} (first : marks.head? = some mark)
    (plain : isBlank mark = false ∧ isUpper mark = false)
    (clean : ∀ c ∈ marks, c ≠ '<' ∧ c ≠ '[' ∧ c ≠ ':') :
    wellKnownTypes.lookup (lastSegment (baseName (marks ++ u))) = none := by
  rcases lastSegment_behind first plain.1 clean unread.isPiece.head_solid with path | start
  · have unknown := unread.unknown
    rwa [lastSegment, path] at unknown
  · apply lookup_wellKnownTypes_of_lower
    rw [isCapitalized, start]
    exact plain.2

theorem wellKnown?_spell {u : Text} (unread : Unread u) (w : Wrapper) : wellKnown? (w.spell u) = none := by
  cases reference : w.isReference with
  | false => exact w.wellKnown?_spell u reference
  | true =>
    cases w with
    | reference =>
      have behind : libraryLiteral? ('&' :: u) = none := libraryLiteral?_of_lookup
        (unread.lookup_behind ['&'] rfl (by decide) (by decide))
      rw [Wrapper.spell, wellKnown?_reference, libraryLiteral?_of_lookup unread.unknown, behind, ite_self]
    | mutableReference =>
      have target : libraryLiteral? ("mut ".toList ++ u) = none := libraryLiteral?_of_lookup
        (unread.lookup_behind "mut ".toList rfl (by decide) (by decide))
      have behind : libraryLiteral? ('&' :: ("mut ".toList ++ u)) = none := libraryLiteral?_of_lookup
        (unread.lookup_behind ('&' :: "mut ".toList) rfl (by decide) (by decide))
      rw [Wrapper.spell, wellKnown?_reference, target, behind, ite_self]
    | option | result | resultOr error | vec | array length | slice => cases reference

theorem spell {u : Text} (unread : Unread u) (w : Wrapper) : Unread (w.spell u) where
  toIsPart := unread.layered (.wrapper w)
  unknown := by
    cases reference : w.isReference with
    | false => exact w.lookup_spell u reference
    | true =>
      cases w with
      | reference => exact unread.lookup_behind ['&'] rfl (by decide) (by decide)
      | mutableReference =>
        exact unread.lookup_behind ('&' :: "mut ".toList) rfl (by decide) (by decide)
      | option | result | resultOr error | vec | array length | slice => cases reference
end Unread

theorem KeywordType.unread (k : KeywordType) (read : k.isMisread = false) : Unread k.text where
  toIsPart := k.isPart
  unknown := lookup_wellKnownTypes_of_lower (k.isNominal_eq.trans read)

section Literals

variable (level : Nat)

/-- Only the first rule and the last can know a type that begins with a keyword. -/
theorem literalWithin_keyword (k : KeywordType) :
    literalWithin (fun _ => none) (level + 1) k.text =
      .ok ((wellKnown? k.text).getD ((nominal? k.text).getD fallback)) := by
  obtain ⟨mark, member, other⟩ := k.exists_mark
  have head : ∀ c ∈ k.text.head?, c ∉ ['&', '(', '['] := by
    obtain ⟨d, listed, first⟩ := k.head
    rintro c found
    obtain rfl : d = c := Option.some.inj (first.symm.trans found)
    exact (by decide : ∀ e ∈ ['i', 'd', 'f'], e ∉ ['&', '(', '[']) d listed
  refine literalWithin_unwrapped rfl head member other (fun outer listed => ?_) level
  obtain ⟨filled, heads⟩ := (by decide : ∀ w ∈ wrapperNames,
    w ≠ [] ∧ ∀ c ∈ w.head?.toList, c ∉ ['i', 'd', 'f']) outer listed
  apply stripGeneric?_of_head filled k.isPiece.trimmed
  exact fun c found d start same => k.head_ne (heads c (Option.mem_toList.mpr found)) d start same.symm

/-- A type that is not misread has the general default at its core, whatever wrappers stand around it. -/
theorem finds_keyword (k : KeywordType) (read : k.isMisread = false) (ws : List Wrapper) :
    Finds (fun _ => none) (ws.foldr Wrapper.spell k.text) ws.length (ws.foldr Wrapper.literal fallback) ∧
      Unread (ws.foldr Wrapper.spell k.text) := by
  induction ws with
  | nil =>
    have nominal : nominal? k.text = none := by
      rw [nominal?, k.isNominal_eq, read]
      rfl
    have known : wellKnown? k.text = none := by
      rw [wellKnown?_eq (k.head_ne (by decide)), libraryLiteral?_of_lookup (k.unread read).unknown]
    refine ⟨Finds.here fun level => ?_, k.unread read⟩
    rw [List.foldr_nil, literalWithin_keyword level k, known, nominal]
    rfl
  | cons w ws ih =>
    obtain ⟨found, unread⟩ := ih
    refine ⟨found.through w.literal fun level => ?_, unread.spell w⟩
    exact literalWithin_part level w unread.toIsPart rfl (unread.wellKnown?_spell w)

theorem isPart_foldr (k : KeywordType) (ws : List Wrapper) :
    IsPart (ws.foldr Wrapper.spell k.text) := by
  induction ws with
  | nil => exact k.isPart
  | cons w ws ih => exact ih.layered (.wrapper w)

/-- A misread type has a literal of another kind, the one of a path or of a library type. -/
theorem literalWithin_misread (k : KeywordType) (misread : k.isMisread = true) :
    literalWithin (fun _ => none) level k.text ≠ .ok fallback := by
  cases level with
  | zero => exact fun same => nomatch same
  | succ level =>
    rw [literalWithin_keyword]
    intro same
    have literal := Except.ok.inj same
    have other : fallback.head? = some 'D' := rfl
    cases known : wellKnown? k.text with
    | some found =>
      obtain ⟨c, listed, first⟩ := head_wellKnown? known
      rw [known, Option.getD_some] at literal
      rw [literal, other] at first
      obtain rfl : 'D' = c := Option.some.inj first
      exact absurd listed (by decide)
    | none =>
      rw [known, Option.getD_none, nominal?, k.isNominal_eq, if_pos misread] at literal
      obtain ⟨c, listed, first⟩ := k.head
      have start := congrArg List.head? literal
      rw [other] at start
      split at start
      · cases start
      · rw [Option.getD_some, List.head?_append, first] at start
        obtain rfl : c = 'D' := Option.some.inj start
        exact absurd listed (by decide)

/-- Around a misread type no wrappers bring the general default back. -/
theorem literalWithin_misread_foldr (k : KeywordType) (misread : k.isMisread = true) (ws : List Wrapper) :
    literalWithin (fun _ => none) level (ws.foldr Wrapper.spell k.text) ≠
      .ok (ws.foldr Wrapper.literal fallback) := by
  induction ws generalizing level with
  | nil => exact literalWithin_misread level k misread
  | cons w ws ih =>
    cases level with
    | zero => exact fun same => nomatch same
    | succ level =>
      rw [List.foldr_cons, List.foldr_cons]
      intro same
      cases known : wellKnown? (w.spell (ws.foldr Wrapper.spell k.text)) with
      | some literal =>
        rw [literalWithin_wellKnown level rfl known] at same
        obtain ⟨c, listed, first⟩ := head_wellKnown? known
        obtain ⟨mark, head, front, back, shape⟩ := w.literal_eq
        rw [Except.ok.inj same, shape] at first
        obtain rfl : mark = c := Option.some.inj first
        exact absurd head ((by decide : ∀ d ∈ libraryHeads, d ∉ Wrapper.literalHeads) mark listed)
      | none =>
        rw [literalWithin_part level w (isPart_foldr k ws) rfl known] at same
        cases inner : literalWithin (fun _ => none) level (ws.foldr Wrapper.spell k.text) with
        | error e =>
          rw [inner] at same
          cases same
        | ok literal =>
          rw [inner] at same
          have part : literal = ws.foldr Wrapper.literal fallback :=
            w.literal_injective (Except.ok.inj same)
          exact ih level (part ▸ inner)

end Literals

/-- A type that begins with a keyword has the general default, and that inside any wrappers, exactly
when it is not misread and no more than 32 wrappers stand around it. -/
theorem literal_keyword_iff (k : KeywordType) (ws : List Wrapper) {u : Text}
    (spelled : normalize u = ws.foldr Wrapper.spell k.text) :
    literal (fun _ => none) u = .ok (ws.foldr Wrapper.literal fallback) ↔
      ws.length ≤ 32 ∧ k.isMisread = false := by
  rw [literal, spelled]
  cases read : k.isMisread with
  | true =>
    simp only [Bool.true_eq_false, and_false, iff_false]
    exact literalWithin_misread_foldr Literal.levels k read ws
  | false =>
    obtain ⟨found, failed⟩ := (finds_keyword k read ws).1 Literal.levels
    simp only [and_true]
    constructor
    · intro ok
      by_contra deep
      obtain ⟨e, error⟩ := failed (Nat.lt_of_not_le deep)
      rw [error] at ok
      cases ok
    · exact fun shallow => found (Nat.lt_succ_of_le shallow)

def iteratorType : KeywordType where
  text := "impl Iterator<Item = a::B>".toList
  isPiece := ⟨by decide, by decide, by decide, by decide, sealed_of_not_mem (by decide)⟩
  keyword := ⟨"impl ".toList, by decide, "Iterator<Item = a::B>".toList, rfl⟩

def displayType : KeywordType where
  text := "impl std::fmt::Display".toList
  isPiece := ⟨by decide, by decide, by decide, by decide, sealed_of_not_mem (by decide)⟩
  keyword := ⟨"impl ".toList, by decide, "std::fmt::Display".toList, rfl⟩

/-- A path in the arguments of a trait does not matter, a path to the trait does. -/
theorem literal_iterator_display :
    literal (fun _ => none) "Option< & impl Iterator<Item = a::B> >".toList =
        .ok "Some(&\x7b Default::default() \x7d)".toList ∧
      literal (fun _ => none) "impl std::fmt::Display".toList ≠ .ok "Default::default()".toList := by
  have iterator := literal_keyword_iff iteratorType [.option, .reference]
    (u := "Option< & impl Iterator<Item = a::B> >".toList) (by decide)
  have display := literal_keyword_iff displayType [] (u := "impl std::fmt::Display".toList) (by decide)
  have misread : displayType.isMisread = true := by decide
  refine ⟨iterator.mpr (by decide), fun same => ?_⟩
  have read := (display.mp same).2
  rw [misread] at read
  cases read

end TestSkeleton.Rust
