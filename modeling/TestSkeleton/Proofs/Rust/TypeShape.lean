import TestSkeleton.Proofs.Signature.Split
import TestSkeleton.Proofs.Rust.TypeTerm

/-! Texts that can be parts of types.

The brackets of a piece are in pairs and no comma stands outside them, so a piece is told from its
neighbours wherever it stands. -/

namespace TestSkeleton.Rust

open Text Signature

/-- A closing square bracket follows every semicolon. -/
def Sealed : Text → Prop
  | [] => True
  | c :: r => (c = ';' → ']' ∈ r) ∧ Sealed r

theorem Sealed.append {u v : Text} (front : Sealed u) (back : Sealed v) : Sealed (u ++ v) := by
  induction u with
  | nil => exact back
  | cons c r ih => exact ⟨fun mark => List.mem_append_left v (front.1 mark), ih front.2⟩

theorem sealed_of_not_mem {u : Text} (absent : ';' ∉ u) : Sealed u := by
  induction u with
  | nil => trivial
  | cons c r ih =>
    refine ⟨?_, ih fun member => absent (List.mem_cons_of_mem c member)⟩
    rintro rfl
    exact absurd List.mem_cons_self absent

theorem sealed_append_bracket (u : Text) : Sealed (u ++ [']']) := by
  induction u with
  | nil => exact ⟨by decide, trivial⟩
  | cons c r ih => exact ⟨fun _ => by simp, ih⟩

theorem Sealed.behind {front back : Text} (closed : Sealed (front ++ ';' :: back)) : ']' ∈ back := by
  induction front with
  | nil => exact closed.1 rfl
  | cons c front ih => exact ih closed.2

theorem whole_of_names {u : Text} (names : ∀ c ∈ u, isNameChar c = true) : Whole [','] u := by
  apply Whole.plain
  intro c member
  have other := not_mem_of_isNameChar "<>()[]{},".toList (by decide)
    (names c member)
  simp at other
  simp [opensDepth, closesDepth, other]

theorem sealed_of_names {u : Text} (names : ∀ c ∈ u, isNameChar c = true) : Sealed u :=
  sealed_of_not_mem fun member => not_mem_of_isNameChar [';'] (by decide) (names _ member) (by simp)

/-- A text that can stand between brackets of a type. A dash at its end would take the closing bracket
for the head of an arrow. -/
structure IsInside (u : Text) : Prop where
  inside : depthThrough? [','] 1 none u = some 1
  undashed : u.getLast? ≠ some '-'

/-- A text that reads as one type. -/
structure IsPiece (u : Text) : Prop where
  filled : u ≠ []
  trimmed : trim u = u
  whole : Whole [','] u
  undashed : u.getLast? ≠ some '-'
  closed : Sealed u

namespace IsInside

theorem append {u v : Text} (front : IsInside u) (back : IsInside v) : IsInside (u ++ v) where
  inside := by
    rw [depthThrough?_append, front.inside, Option.bind_some,
      depthThrough?_previous (by simpa using front.undashed), back.inside]
  undashed := by
    rw [List.getLast?_append]
    cases found : v.getLast? with
    | none => simpa using front.undashed
    | some z => simpa [found] using back.undashed

theorem names {u : Text} (names : ∀ c ∈ u, isNameChar c = true) : IsInside u where
  inside := (whole_of_names names).through 1 (by simp)
  undashed found :=
    not_mem_of_isNameChar ['-'] (by decide) (names _ (List.mem_of_getLast? found)) (by simp)

end IsInside

namespace IsPiece

theorem inside {u : Text} (piece : IsPiece u) : IsInside u where
  inside := piece.whole.through 1 (by simp)
  undashed := piece.undashed

theorem names {u : Text} (filled : u ≠ []) (names : ∀ c ∈ u, isNameChar c = true) : IsPiece u where
  filled := filled
  trimmed := trim_eq_self (fun c found => solid_of_isNameChar (names c (List.mem_of_head? found)))
    fun c found => solid_of_isNameChar (names c (List.mem_of_getLast? found))
  whole := whole_of_names names
  undashed := (IsInside.names names).undashed
  closed := sealed_of_names names

/-- A text in brackets behind a text without brackets. -/
theorem bracketed {front u : Text} (opening : Char) {closing : Char} (names : ∀ c ∈ front, isNameChar c = true)
    (inner : IsInside u) (closed : Sealed (u ++ [closing])) (opens : opening ∈ ['<', '(', '['])
    (closes : closing ∈ ['>', ')', ']']) : IsPiece (front ++ opening :: (u ++ [closing])) := by
  have opened : ∀ d ∈ ['<', '(', '['], opensDepth d = true ∧ isBlank d = false ∧ d ≠ ';' := by decide
  have ended : ∀ d ∈ ['>', ')', ']'],
      closesDepth d = true ∧ isBlank d = false ∧ [d] ≠ [','] ∧ d ≠ '-' := by
    decide
  obtain ⟨opens, visible, mark⟩ := opened opening opens
  obtain ⟨closes, solid, other, dash⟩ := ended closing closes
  have last : (front ++ opening :: (u ++ [closing])).getLast? = some closing := by
    simp [List.getLast?_cons]
  refine ⟨by simp, ?_, ?_, by simpa [last] using dash, ?_⟩
  · apply trim_eq_self
    · intro c found
      cases front with
      | nil =>
        obtain rfl : opening = c := Option.some.inj found
        exact visible
      | cons d front =>
        obtain rfl : d = c := Option.some.inj found
        exact solid_of_isNameChar (names d List.mem_cons_self)
    · intro c found
      rw [last] at found
      obtain rfl : closing = c := Option.some.inj found
      exact solid
  · apply (whole_of_names names).append _ (IsInside.names names).undashed
    exact Whole.between opens closes inner.inside inner.undashed other
  · exact (sealed_of_names names).append ⟨fun same => absurd same mark, closed⟩

theorem enclosed {u : Text} (opening : Char) {closing : Char} (inner : IsInside u)
    (closed : Sealed (u ++ [closing])) (opens : opening ∈ ['<', '(', '['])
    (closes : closing ∈ ['>', ')', ']']) : IsPiece (opening :: (u ++ [closing])) :=
  bracketed opening (by simp : ∀ c ∈ [], isNameChar c = true) inner closed opens closes

/-- What stands between the brackets of a list of pieces. -/
theorem join {us : List Text} (pieces : ∀ u ∈ us, IsPiece u) :
    IsInside (Text.join [',', ' '] us) ∧ Sealed (Text.join [',', ' '] us) := by
  have comma : IsInside [',', ' '] := ⟨by decide, by decide⟩
  induction us with
  | nil => exact ⟨⟨rfl, by simp [Text.join]⟩, trivial⟩
  | cons u us ih =>
    have first := pieces u (by simp)
    obtain ⟨inner, closed⟩ := ih fun v member => pieces v (List.mem_cons_of_mem _ member)
    cases us with
    | nil => exact ⟨first.inside, first.closed⟩
    | cons v us =>
      refine ⟨(first.inside.append comma).append inner, ?_⟩
      exact (first.closed.append (sealed_of_not_mem (by decide))).append closed

theorem head_solid {u : Text} (piece : IsPiece u) : ∀ c ∈ u.head?, isBlank c = false := by
  have head := head_trim u
  rwa [piece.trimmed] at head

theorem last_solid {u : Text} (piece : IsPiece u) : ∀ c ∈ u.getLast?, isBlank c = false := by
  have last := last_trim u
  rwa [piece.trimmed] at last

/-- A list of pieces has no blanks at its ends. -/
theorem trim_join {us : List Text} (pieces : ∀ u ∈ us, IsPiece u) :
    trim (Text.join [',', ' '] us) = Text.join [',', ' '] us := by
  apply trim_eq_self
  · cases us with
    | nil => simp [Text.join]
    | cons u us =>
      have piece := pieces u (by simp)
      rw [join_cons, List.head?_append, Option.or_of_isSome (by simpa using piece.filled)]
      exact piece.head_solid
  · induction us with
    | nil => simp [Text.join]
    | cons u us ih =>
      have later := ih fun v member => pieces v (List.mem_cons_of_mem _ member)
      cases us with
      | nil => exact (pieces u (by simp)).last_solid
      | cons v us =>
        have filled : Text.join [',', ' '] (v :: us) ≠ [] := by
          rw [join_cons]
          simp [(pieces v (by simp)).filled]
        rw [Text.join, List.getLast?_append, Option.or_of_isSome (by simpa using filled)]
        exact later

theorem applied {name : Text} {us : List Text} (names : ∀ c ∈ name, isNameChar c = true)
    (pieces : ∀ u ∈ us, IsPiece u) : IsPiece (TypeTerm.applied name us) := by
  obtain ⟨inner, closed⟩ := join pieces
  have angle : Sealed ['>'] := sealed_of_not_mem (by decide)
  have whole := bracketed '<' names inner (closed.append angle) (by simp) (by simp)
  simpa [TypeTerm.applied] using whole

/-- A tuple in normal spelling. -/
theorem tuple {us : List Text} (pieces : ∀ u ∈ us, IsPiece u) : IsPiece (TypeTerm.tupleText [' '] us) := by
  have round : Sealed [')'] := sealed_of_not_mem (by decide)
  match us with
  | [u] =>
    have first := pieces u (by simp)
    have comma : IsInside [',', ' '] := ⟨by decide, by decide⟩
    have plain : Sealed [',', ' ', ')'] := sealed_of_not_mem (by decide)
    have closed : Sealed (u ++ [',', ' '] ++ [')']) := by
      simpa using first.closed.append plain
    have whole := enclosed '(' (first.inside.append comma) closed
      (by simp) (by simp)
    simpa [TypeTerm.tupleText] using whole
  | [] => exact enclosed (u := []) '(' ⟨rfl, by simp⟩ round (by simp) (by simp)
  | u :: v :: us =>
    obtain ⟨inner, closed⟩ := join pieces
    have whole := enclosed '(' inner (closed.append round)
      (by simp) (by simp)
    simpa [TypeTerm.tupleText] using whole

theorem array {u : Text} (piece : IsPiece u) (n : ArrayLength) :
    IsPiece (['['] ++ u ++ [';', ' '] ++ n.text ++ [']']) := by
  have semicolon : IsInside [';', ' '] := ⟨by decide, by decide⟩
  have inner := (piece.inside.append semicolon).append (IsInside.names n.isNameChar)
  simpa using enclosed '[' inner (sealed_append_bracket _)
    (by simp) (by simp)

theorem slice {u : Text} (piece : IsPiece u) : IsPiece (['['] ++ u ++ [']']) := by
  simpa using enclosed '[' piece.inside
    (sealed_append_bracket _) (by simp) (by simp)

/-- A piece behind a text without commas and semicolons. -/
theorem behind {front u : Text} (filled : front ≠ []) (head : ∀ c ∈ front.head?, isBlank c = false)
    (whole : Whole [','] front) (dash : front.getLast? ≠ some '-') (plain : ';' ∉ front)
    (piece : IsPiece u) : IsPiece (front ++ u) := by
  obtain ⟨z, last⟩ : ∃ z, u.getLast? = some z := by simp [List.getLast?_eq_some_getLast piece.filled]
  have ends : (front ++ u).getLast? = some z := by simp [List.getLast?_append, last]
  refine ⟨by simp [piece.filled], ?_, whole.append piece.whole dash, ?_,
    (sealed_of_not_mem plain).append piece.closed⟩
  · apply trim_eq_self
    · rwa [List.head?_append, Option.or_of_isSome (by simpa using filled)]
    · intro c found
      obtain rfl : z = c := by simpa [ends] using found
      exact piece.last_solid z last
  · rw [ends, ← last]
    exact piece.undashed

theorem referred {u : Text} (piece : IsPiece u) {marker : Text}
    (marks : marker ∈ [['&'], ['&', 'm', 'u', 't', ' ']]) : IsPiece (marker ++ u) := by
  have found : ∀ m ∈ [['&'], ['&', 'm', 'u', 't', ' ']], m ≠ [] ∧
      (∀ c ∈ m.head?.toList, isBlank c = false) ∧ Whole [','] m ∧ m.getLast? ≠ some '-' ∧ ';' ∉ m := by
    decide
  obtain ⟨filled, head, whole, dash, plain⟩ := found marker marks
  exact piece.behind filled (fun c found => head c (Option.mem_toList.mpr found)) whole dash plain

end IsPiece

/-! What the normal spelling of a Rust type looks like from outside. -/

/-- A text that can stand between brackets of a type. -/
structure InnerText (u : Text) : Prop where
  chars : ∀ c ∈ u, c ∈ typeMarks ∨ isNameChar c = true
  inside : depthThrough? [','] 1 none u = some 1

/-- A text that reads as one type. -/
structure TypeText (u : Text) : Prop where
  head : ∃ c ∈ u.head?, startsType c
  last : ∃ c ∈ u.getLast?, endsType c
  chars : ∀ c ∈ u, c ∈ typeMarks ∨ isNameChar c = true
  whole : Whole [','] u
  closed : Sealed u

theorem not_mem_of_chars {u : Text} (chars : ∀ c ∈ u, c ∈ typeMarks ∨ isNameChar c = true)
    {mark : Char} (other : (decide (mark ∈ typeMarks) || isNameChar mark) = false) : mark ∉ u := by
  intro member
  rw [Bool.or_eq_false_iff, decide_eq_false_iff_not] at other
  rcases chars mark member with marked | named
  · exact other.1 marked
  · rw [other.2] at named
    cases named

theorem startsType.solid {c : Char} (starts : startsType c) : isBlank c = false := by
  rcases starts with member | named
  · simp only [List.mem_cons, List.not_mem_nil, or_false] at member
    rcases member with rfl | rfl | rfl <;> decide
  · exact solid_of_isNameChar named

theorem endsType.solid {c : Char} (ends : endsType c) : isBlank c = false := by
  rcases ends with member | named
  · simp only [List.mem_cons, List.not_mem_nil, or_false] at member
    rcases member with rfl | rfl | rfl <;> decide
  · exact solid_of_isNameChar named

namespace InnerText

theorem isInside {u : Text} (inner : InnerText u) : IsInside u where
  inside := inner.inside
  undashed found := not_mem_of_chars inner.chars (by decide) (List.mem_of_getLast? found)

theorem append {u v : Text} (front : InnerText u) (back : InnerText v) : InnerText (u ++ v) where
  chars := by
    intro c member
    rcases List.mem_append.mp member with member | member
    · exact front.chars c member
    · exact back.chars c member
  inside := (front.isInside.append back.isInside).inside

theorem names {u : Text} (names : ∀ c ∈ u, isNameChar c = true) : InnerText u where
  chars := fun c member => Or.inr (names c member)
  inside := (IsInside.names names).inside

end InnerText

namespace TypeText

theorem inner {u : Text} (type : TypeText u) : InnerText u where
  chars := type.chars
  inside := type.whole.through 1 (by simp)

/-- What reads as one type is a piece of larger ones. -/
theorem isPiece {u : Text} (type : TypeText u) : IsPiece u where
  filled := by
    rintro rfl
    obtain ⟨c, found, -⟩ := type.head
    cases found
  trimmed := by
    apply trim_eq_self
    · intro c found
      obtain ⟨d, same, starts⟩ := type.head
      obtain rfl : d = c := Option.some.inj (same.symm.trans found)
      exact starts.solid
    · intro c found
      obtain ⟨d, same, ends⟩ := type.last
      obtain rfl : d = c := Option.some.inj (same.symm.trans found)
      exact ends.solid
  whole := type.whole
  undashed := type.inner.isInside.undashed
  closed := type.closed

theorem names {u : Text} (filled : u ≠ []) (names : ∀ c ∈ u, isNameChar c = true) :
    TypeText u where
  head := by
    cases u with
    | nil => exact absurd rfl filled
    | cons c r => exact ⟨c, rfl, Or.inr (names c (by simp))⟩
  last := by
    obtain ⟨z, last⟩ : ∃ z, u.getLast? = some z := by simp [List.getLast?_eq_some_getLast filled]
    exact ⟨z, last, Or.inr (names z (List.mem_of_getLast? last))⟩
  chars := fun c member => Or.inr (names c member)
  whole := whole_of_names names
  closed := sealed_of_names names

/-- A text in brackets behind a text without brackets. -/
theorem bracketed {front u : Text} {opening closing : Char}
    (starts : ∃ c ∈ (front ++ [opening]).head?, startsType c)
    (names : ∀ c ∈ front, isNameChar c = true) (inner : InnerText u)
    (closed : Sealed (u ++ [closing])) (opens : opening ∈ ['<', '(', '['])
    (ends : closing ∈ ['>', ')', ']']) : TypeText (front ++ opening :: (u ++ [closing])) where
  head := by
    cases front with
    | nil => exact starts
    | cons c front => exact starts
  last := ⟨closing, by simp [List.getLast?_cons], Or.inl (by simpa [or_comm, or_left_comm] using ends)⟩
  chars := by
    intro c member
    simp only [List.mem_append, List.mem_cons, List.not_mem_nil, or_false] at member
    rcases member with member | rfl | member | rfl
    · exact Or.inr (names c member)
    · exact Or.inl ((by decide : ∀ d ∈ ['<', '(', '['], d ∈ typeMarks) c opens)
    · exact inner.chars c member
    · exact Or.inl ((by decide : ∀ d ∈ ['>', ')', ']'], d ∈ typeMarks) c ends)
  whole := (IsPiece.bracketed _ names inner.isInside closed opens ends).whole
  closed := (IsPiece.bracketed _ names inner.isInside closed opens ends).closed

theorem referred {u marker : Text} (type : TypeText u)
    (marks : marker ∈ [['&'], ['&', 'm', 'u', 't', ' ']]) : TypeText (marker ++ u) := by
  have found : ∀ m ∈ [['&'], ['&', 'm', 'u', 't', ' ']], m.head? = some '&' ∧
      (m.all fun c => decide (c ∈ typeMarks) || isNameChar c) = true := by
    decide
  obtain ⟨first, chars⟩ := found marker marks
  have piece := type.isPiece.referred marks
  refine ⟨⟨'&', by simp [first], Or.inl (by simp)⟩, ?_, ?_, piece.whole, piece.closed⟩
  · obtain ⟨z, same, ends⟩ := type.last
    exact ⟨z, by simp [List.getLast?_append, Option.mem_def.mp same], ends⟩
  · intro c member
    rcases List.mem_append.mp member with member | member
    · simpa using List.all_eq_true.mp chars c member
    · exact type.chars c member

theorem join {us : List Text} (types : ∀ u ∈ us, TypeText u) : InnerText (Text.join [',', ' '] us) where
  chars := by
    induction us with
    | nil => simp [Text.join]
    | cons u us ih =>
      have first := (types u (by simp)).chars
      have later := ih fun v member => types v (List.mem_cons_of_mem _ member)
      cases us with
      | nil => exact first
      | cons v us =>
        intro c member
        simp only [Text.join, List.mem_append] at member
        rcases member with (member | member) | member
        · exact first c member
        · exact (by decide : ∀ d ∈ [',', ' '], d ∈ typeMarks ∨ isNameChar d = true) c member
        · exact later c member
  inside := (IsPiece.join fun u member => (types u member).isPiece).1.inside

theorem applied {name : Text} {us : List Text} (filled : name ≠ [])
    (names : ∀ c ∈ name, isNameChar c = true) (types : ∀ u ∈ us, TypeText u) :
    TypeText (TypeTerm.applied name us) := by
  have closed := (IsPiece.join fun u member => (types u member).isPiece).2
  have angle : Sealed ['>'] := sealed_of_not_mem (by decide)
  have starts : ∃ c ∈ (name ++ ['<']).head?, startsType c := by
    cases name with
    | nil => exact absurd rfl filled
    | cons c r => exact ⟨c, rfl, Or.inr (names c (by simp))⟩
  have whole := bracketed starts names (join types) (closed.append angle) (by simp) (by simp)
  simpa [TypeTerm.applied] using whole

end TypeText

theorem TypeTerm.typeText (t : TypeTerm) : TypeText t.normal := by
  have round : Sealed [')'] := sealed_of_not_mem (by decide)
  have roundStarts : ∃ c ∈ ([] ++ ['('] : Text).head?, startsType c := ⟨'(', rfl, Or.inl (by simp)⟩
  have squareStarts : ∃ c ∈ ([] ++ ['['] : Text).head?, startsType c := ⟨'[', rfl, Or.inl (by simp)⟩
  unfold TypeTerm.normal
  induction t with
  | unit =>
    have empty : InnerText [] := ⟨by simp, rfl⟩
    exact TypeText.bracketed roundStarts (by simp) empty round (by simp) (by simp)
  | name n => exact TypeText.names n.ne_nil n.isNameChar
  | generic n plain arguments ih =>
    simpa [spelled, spelledAll_eq_map] using
      TypeText.applied n.ne_nil n.isNameChar (List.forall_mem_map.mpr ih)
  | option t ih => exact TypeText.applied (by decide) (by decide) (by simpa using ih)
  | result t ih => exact TypeText.applied (by decide) (by decide) (by simpa using ih)
  | resultOr t e iht ihe =>
    exact TypeText.applied (by decide) (by decide) (by simpa using ⟨iht, ihe⟩)
  | vec t ih => exact TypeText.applied (by decide) (by decide) (by simpa using ih)
  | reference t ih => exact ih.referred (by simp)
  | mutableReference t ih => exact ih.referred (by simp)
  | tuple t ts iht ihts =>
    have types : ∀ u ∈ t.spelled [' '] :: spelledAll [' '] ts, TypeText u := by
      simpa [spelledAll_eq_map] using ⟨iht, ihts⟩
    cases ts with
    | nil =>
      have comma : InnerText [',', ' '] := ⟨by decide, by decide⟩
      have plain : Sealed [',', ' ', ')'] := sealed_of_not_mem (by decide)
      have closed : Sealed (t.spelled [' '] ++ [',', ' '] ++ [')']) := by
        simpa using iht.closed.append plain
      have whole := TypeText.bracketed roundStarts (by simp) (iht.inner.append comma) closed (by simp)
        (by simp)
      simpa [spelled, spelledAll, tupleText] using whole
    | cons v ts =>
      have closed := (IsPiece.join fun u member => (types u member).isPiece).2
      have whole := TypeText.bracketed roundStarts (by simp) (TypeText.join types)
        (closed.append round) (by simp) (by simp)
      simpa [spelled, spelledAll, tupleText] using whole
  | array t n ih =>
    have semicolon : InnerText [';', ' '] := ⟨by decide, by decide⟩
    have inner := (ih.inner.append semicolon).append (InnerText.names n.isNameChar)
    simpa [spelled] using TypeText.bracketed squareStarts (by simp) inner (sealed_append_bracket _)
      (by simp) (by simp)
  | slice t ih =>
    simpa [spelled] using TypeText.bracketed squareStarts (by simp) ih.inner
      (sealed_append_bracket _) (by simp) (by simp)

end TestSkeleton.Rust
