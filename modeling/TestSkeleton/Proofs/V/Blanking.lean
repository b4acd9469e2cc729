import Mathlib.Data.List.Forall2
import TestSkeleton.Extraction.V
import TestSkeleton.Proofs.V.Lexeme

/-! What blanking keeps of a source.

Main statements: every character stays in its place, as it is or as a blank, and a line end is lost only as the
last character of a source that ends in a literal; and sources that differ inside comments and literals alone
give the same signatures. -/

namespace TestSkeleton.V

open Text

/-- A character in a blanked source, given the one in its place: kept, or blanked. -/
def KeptOrBlanked (c d : Char) : Prop := d = c ∨ d = blankChar c

theorem blankChar_eq_lineEnd_iff {c : Char} : blankChar c = '\n' ↔ c = '\n' := by
  unfold blankChar
  split <;> simp_all

theorem blankChar_eq_iff {c d : Char} : blankChar c = blankChar d ↔ (c = '\n' ↔ d = '\n') := by
  unfold blankChar
  split <;> split <;> simp_all

theorem KeptOrBlanked.lineEnd_iff {c d : Char} (kept : KeptOrBlanked c d) : d = '\n' ↔ c = '\n' := by
  rcases kept with rfl | rfl
  · rfl
  · exact blankChar_eq_lineEnd_iff

theorem forall₂_kept (t : Text) : List.Forall₂ KeptOrBlanked t t :=
  List.forall₂_same.mpr fun _ _ => .inl rfl

theorem forall₂_map_blankChar (t : Text) : List.Forall₂ KeptOrBlanked t (t.map blankChar) := by
  rw [List.forall₂_map_right_iff]
  exact List.forall₂_same.mpr fun _ _ => .inr rfl

theorem Lexeme.forall₂_blanked (l : Lexeme) : List.Forall₂ KeptOrBlanked l.text l.blanked := by
  cases l with
  | code t quiet => exact forall₂_kept t
  | lineComment t flat => exact forall₂_map_blankChar _
  | blockComment t unclosed => exact forall₂_map_blankChar _
  | literal quote body opens whole =>
    exact .cons (.inl rfl) (List.rel_append (forall₂_map_blankChar body) (forall₂_kept [quote]))

theorem forall₂_lexemes (ls : List Lexeme) :
    List.Forall₂ KeptOrBlanked (sourceOf ls) (ls.flatMap Lexeme.blanked) := by
  induction ls with
  | nil => exact .nil
  | cons l ls ih => exact List.rel_append l.forall₂_blanked ih

/-- Whether a literal is open where the source ends, behind something of its body. -/
def Ending.IsInLiteral : Ending → Prop
  | whole => False
  | blockComment _ _ => False
  | literal _ body _ _ => body ≠ []
  | escape _ _ _ _ => True

def EndsInLiteral (source : Text) : Prop :=
  ∃ (ls : List Lexeme) (e : Ending), e.IsInLiteral ∧ Joined ls e.text ∧ source = sourceOf ls ++ e.text

theorem Ending.forall₂_blanked {e : Ending} (outside : ¬e.IsInLiteral) :
    List.Forall₂ KeptOrBlanked e.text e.blanked := by
  cases e with
  | whole => exact .nil
  | blockComment t unclosed => exact forall₂_map_blankChar ('/' :: '*' :: t)
  | literal quote body opens whole =>
    obtain rfl : body = [] := by simpa [IsInLiteral] using outside
    exact forall₂_kept [quote]
  | escape quote body opens whole => exact absurd trivial outside

/-- An open literal is closed in place of its last character. -/
theorem Ending.closed_in_place {e : Ending} (inside : e.IsInLiteral) :
    ∃ front last back quote, e.text = front ++ [last] ∧ e.blanked = back ++ [quote] ∧
      isQuote quote = true ∧ List.Forall₂ KeptOrBlanked front back := by
  cases e with
  | whole => cases inside
  | blockComment t unclosed => cases inside
  | literal quote body opens whole =>
    have filled : body ≠ [] := inside
    refine ⟨quote :: body.dropLast, body.getLast filled, quote :: body.dropLast.map blankChar, quote, ?_, ?_,
      opens, .cons (.inl rfl) (forall₂_map_blankChar _)⟩
    · simp [text, List.dropLast_concat_getLast filled]
    · simp [blanked, filled]
  | escape quote body opens whole =>
    exact ⟨quote :: body, '\\', quote :: body.map blankChar, quote, rfl, rfl, opens,
      .cons (.inl rfl) (forall₂_map_blankChar body)⟩

theorem forall₂_blank {source : Text} (outside : ¬EndsInLiteral source) :
    List.Forall₂ KeptOrBlanked source (blank source) := by
  obtain ⟨ls, e, rfl, joined⟩ := exists_lexemes source
  have closed : ¬e.IsInLiteral := fun inside => outside ⟨ls, e, inside, joined, rfl⟩
  rw [blank_sourceOf joined]
  exact List.rel_append (forall₂_lexemes ls) (Ending.forall₂_blanked closed)

theorem blank_of_endsInLiteral {source : Text} (inside : EndsInLiteral source) :
    ∃ front last back quote, source = front ++ [last] ∧ blank source = back ++ [quote] ∧
      isQuote quote = true ∧ List.Forall₂ KeptOrBlanked front back := by
  obtain ⟨ls, e, inside, joined, rfl⟩ := inside
  obtain ⟨front, last, back, quote, text, blanked, opens, kept⟩ := Ending.closed_in_place inside
  refine ⟨sourceOf ls ++ front, last, ls.flatMap Lexeme.blanked ++ back, quote, ?_, ?_, opens,
    List.rel_append (forall₂_lexemes ls) kept⟩
  · rw [text, List.append_assoc]
  · rw [blank_sourceOf joined, blanked, List.append_assoc]

theorem length_blank (source : Text) : (blank source).length = source.length := by
  by_cases inside : EndsInLiteral source
  · obtain ⟨front, last, back, quote, text, blanked, -, kept⟩ := blank_of_endsInLiteral inside
    rw [blanked, text, List.length_append, List.length_append, kept.length_eq]
    rfl
  · exact (forall₂_blank inside).length_eq.symm

theorem getElem?_of_forall₂ {u v : Text} (kept : List.Forall₂ KeptOrBlanked u v) {i : Nat} {c : Char}
    (here : u[i]? = some c) : ∃ d, v[i]? = some d ∧ KeptOrBlanked c d := by
  induction kept generalizing i with
  | nil => cases here
  | cons first rest ih =>
    cases i with
    | zero =>
      cases here
      exact ⟨_, rfl, first⟩
    | succ i => exact ih here

/-- What blanking leaves in a place: the character, a blank or, in the last place of an open literal, a quote. -/
theorem getElem?_blank {source : Text} {i : Nat} {c : Char} (here : source[i]? = some c) :
    ∃ d, (blank source)[i]? = some d ∧
      (KeptOrBlanked c d ∧ ¬(i + 1 = source.length ∧ EndsInLiteral source) ∨
        isQuote d = true ∧ i + 1 = source.length ∧ EndsInLiteral source) := by
  by_cases inside : EndsInLiteral source
  · obtain ⟨front, last, back, quote, text, blanked, opens, kept⟩ := blank_of_endsInLiteral inside
    have length : source.length = front.length + 1 := by rw [text, List.length_append]; rfl
    rw [blanked]
    rcases Nat.lt_or_ge i front.length with before | behind
    · rw [text, List.getElem?_append_left before] at here
      obtain ⟨d, there, keeps⟩ := getElem?_of_forall₂ kept here
      rw [List.getElem?_append_left (kept.length_eq ▸ before)]
      exact ⟨d, there, .inl ⟨keeps, fun ends => by omega⟩⟩
    · obtain ⟨within, -⟩ := List.getElem?_eq_some_iff.mp here
      obtain rfl : i = back.length := by rw [← kept.length_eq]; omega
      exact ⟨quote, List.getElem?_concat_length, .inr ⟨opens, by rw [length, kept.length_eq], inside⟩⟩
  · obtain ⟨d, there, kept⟩ := getElem?_of_forall₂ (forall₂_blank inside) here
    exact ⟨d, there, .inl ⟨kept, fun ends => inside ends.2⟩⟩

/-- A line end stays, except for the last character of a source that ends in a literal. -/
theorem getElem?_blank_lineEnd_iff (source : Text) (i : Nat) : (blank source)[i]? = some '\n' ↔
    source[i]? = some '\n' ∧ ¬(i + 1 = source.length ∧ EndsInLiteral source) := by
  cases here : source[i]? with
  | none =>
    rw [List.getElem?_eq_none_iff] at here
    have there : (blank source)[i]? = none := by rw [List.getElem?_eq_none_iff, length_blank]; exact here
    simp [there]
  | some c =>
    obtain ⟨d, there, ⟨kept, outside⟩ | ⟨quotes, ends⟩⟩ := getElem?_blank here
    · simp [there, kept.lineEnd_iff, outside]
    · have other : d ≠ '\n' := by
        intro same
        subst same
        cases quotes
      simp [there, other, ends]

/-- The places of a source that are not its last stand on the same lines in the blanked source. -/
theorem lineBehind_blank {source : Text} {i : Nat} (inside : i < source.length) :
    lineBehind ((blank source).take i) = lineBehind (source.take i) := by
  have counted : ∀ t : Text, t.count '\n' = (t.map (· == '\n')).count true := by
    intro t
    simp [List.count, List.countP_map, Function.comp_def]
  have same : ((blank source).take i).map (· == '\n') = (source.take i).map (· == '\n') := by
    apply List.ext_getElem?
    intro j
    rw [List.getElem?_map, List.getElem?_map, List.getElem?_take, List.getElem?_take]
    split
    · rename_i before
      have here : source[j]? = some source[j] := List.getElem?_eq_getElem (by omega)
      obtain ⟨d, there, ⟨kept, -⟩ | ⟨-, ends, -⟩⟩ := getElem?_blank here
      · rw [here, there, Option.map_some, Option.map_some, Option.some.injEq, Bool.eq_iff_iff, beq_iff_eq,
          beq_iff_eq]
        exact kept.lineEnd_iff
      · omega
    · rfl
  calc lineBehind ((blank source).take i)
      = (((blank source).take i).map (· == '\n')).count true + 1 := by rw [lineBehind, counted]
    _ = ((source.take i).map (· == '\n')).count true + 1 := by rw [same]
    _ = lineBehind (source.take i) := by rw [lineBehind, counted]

/-- A character that blanking does not make stood in its place before. -/
theorem getElem?_of_blank {source : Text} {i : Nat} {d : Char} (there : (blank source)[i]? = some d)
    (unquoted : isQuote d = false) (visible : d ≠ ' ') : source[i]? = some d := by
  obtain ⟨inside, -⟩ := List.getElem?_eq_some_iff.mp there
  rw [length_blank] at inside
  have here : source[i]? = some source[i] := List.getElem?_eq_getElem inside
  obtain ⟨d', same, ⟨kept, -⟩ | ⟨quotes, -⟩⟩ := getElem?_blank here
  · obtain rfl : d' = d := Option.some.inj (same.symm.trans there)
    rw [here]
    rcases kept with kept | blanked
    · rw [kept]
    · have lineEnd : source[i] = '\n' := by
        by_contra other
        apply visible
        rw [blanked, blankChar, beq_eq_false_iff_ne.mpr other, if_neg (by simp)]
      rw [blanked, lineEnd]
      rfl
  · obtain rfl : d' = d := Option.some.inj (same.symm.trans there)
    rw [quotes] at unquoted
    cases unquoted

theorem isBracket_visible {c : Char} (bracket : isBracket c = true) : isQuote c = false ∧ c ≠ ' ' := by
  simp only [isBracket, isClosing, closing?, Bool.or_eq_true, beq_iff_eq] at bracket
  rcases bracket with opens | (rfl | rfl) | rfl
  · split at opens
    · decide
    · decide
    · decide
    · cases opens
  · decide
  · decide
  · decide

/-- Blanking keeps the length and, with one exception, all line ends: a source that ends in a literal loses one
in its last place. The line of every place stays, and the bracket that a refusal names stands in the source
itself, on the line that is named. -/
theorem blank_keeps_places (source : Text) :
    (blank source).length = source.length ∧
    (∀ i : Nat, (blank source)[i]? = some '\n' ↔
      source[i]? = some '\n' ∧ ¬(i + 1 = source.length ∧ EndsInLiteral source)) ∧
    (∀ i < source.length, lineBehind ((blank source).take i) = lineBehind (source.take i)) ∧
    ∀ policy file fault, extract policy file source = .error fault →
      ∃ (i : Nat) (c : Char), FaultAt (blank source) i fault ∧ source[i]? = some c ∧
        bracketAndLine? fault = some (c, lineBehind (source.take i)) := by
  refine ⟨length_blank source, getElem?_blank_lineEnd_iff source, fun i inside => lineBehind_blank inside, ?_⟩
  intro policy file fault refused
  have found : nestingFault? (blank source) = some fault := by
    rw [extract] at refused
    cases checked : nestingFault? (blank source) with
    | none => simp [checked] at refused
    | some first =>
      simp only [checked, Except.error.injEq] at refused
      rw [refused]
  obtain ⟨i, wrong⟩ := nestingFault?_eq_some found
  obtain ⟨c, there, bracket, named⟩ := wrong.bracketAndLine?_eq
  have visible := isBracket_visible bracket
  have here := getElem?_of_blank there visible.1 visible.2
  obtain ⟨inside, -⟩ := List.getElem?_eq_some_iff.mp here
  exact ⟨i, c, wrong, here, by rw [named, lineBehind_blank inside]⟩

/-- A function whose body breaks off in a literal, behind a line end. -/
def brokenOff : Text := "pub fn f() \x7b\n\ts := 'it\n".toList

theorem brokenOff_loses_lineEnd :
    (blank brokenOff).length = brokenOff.length ∧
    (EndsInLiteral brokenOff ∧ brokenOff[22]? = some '\n' ∧ (blank brokenOff)[22]? ≠ some '\n') ∧
    extract {} "f.v".toList brokenOff = .error (.unclosedBracket '\x7b' 1) ∧
    ∃ (i : Nat) (c : Char), FaultAt (blank brokenOff) i (.unclosedBracket '\x7b' 1) ∧
      brokenOff[i]? = some c ∧
      bracketAndLine? (.unclosedBracket '\x7b' 1) = some (c, lineBehind (brokenOff.take i)) := by
  obtain ⟨length, lineEnds, -, faults⟩ := blank_keeps_places brokenOff
  have refused : extract {} "f.v".toList brokenOff = .error (.unclosedBracket '\x7b' 1) := by decide
  have ends : EndsInLiteral brokenOff :=
    ⟨[.code "pub fn f() \x7b\n\ts := ".toList (by decide)],
      .literal '\'' "it\n".toList (by decide) (by decide), by simp [Ending.IsInLiteral],
      ⟨by simp [Lexeme.StopsBefore], trivial⟩, rfl⟩
  refine ⟨length, ⟨ends, by decide, ?_⟩, refused, faults _ _ _ refused⟩
  intro kept
  exact ((lineEnds 22).mp kept).2 ⟨rfl, ends⟩

/-! Sources that differ inside comments and literals alone. -/

def insideOf (ls : List Lexeme) : List Bool := ls.flatMap Lexeme.inside

theorem Lexeme.length_inside (l : Lexeme) : l.inside.length = l.text.length := by
  cases l <;> simp [inside, text]

theorem length_insideOf (ls : List Lexeme) : (insideOf ls).length = (sourceOf ls).length := by
  induction ls with
  | nil => rfl
  | cons l ls ih =>
    rw [insideOf, sourceOf] at ih ⊢
    rw [List.flatMap_cons, List.flatMap_cons, List.length_append, List.length_append, ih, l.length_inside]

/-- What blanking makes of a character by whether it is inside a comment or a literal. -/
def hide (inside : Bool) (c : Char) : Char := if inside then blankChar c else c

theorem zipWith_hide_true (t : Text) : List.zipWith hide (t.map fun _ => true) t = t.map blankChar := by
  induction t with
  | nil => rfl
  | cons c r ih =>
    rw [List.map_cons, List.zipWith_cons_cons, ih]
    rfl

theorem zipWith_hide_false (t : Text) : List.zipWith hide (t.map fun _ => false) t = t := by
  induction t with
  | nil => rfl
  | cons c r ih =>
    rw [List.map_cons, List.zipWith_cons_cons, ih]
    rfl

theorem Lexeme.zipWith_hide (l : Lexeme) : List.zipWith hide l.inside l.text = l.blanked := by
  cases l with
  | code t quiet => exact zipWith_hide_false t
  | lineComment t flat => exact zipWith_hide_true _
  | blockComment t unclosed => exact zipWith_hide_true _
  | literal quote body opens whole =>
    rw [inside, text, blanked, List.cons_append, List.zipWith_cons_cons, List.zipWith_append (by simp),
      zipWith_hide_true]
    rfl

theorem zipWith_hide_lexemes (ls : List Lexeme) :
    List.zipWith hide (insideOf ls) (sourceOf ls) = ls.flatMap Lexeme.blanked := by
  induction ls with
  | nil => rfl
  | cons l ls ih =>
    rw [insideOf, sourceOf] at ih ⊢
    rw [List.flatMap_cons, List.flatMap_cons, List.flatMap_cons, List.zipWith_append l.length_inside,
      l.zipWith_hide, ih]

/-- Two sources have comments and bodies of literals in the same places, agree in all other places, and have the
same line ends. -/
structure DifferInside (ls ms : List Lexeme) : Prop where
  places : insideOf ls = insideOf ms
  outside : ∀ i < (sourceOf ls).length, (insideOf ls)[i]? = some false → (sourceOf ls)[i]? = (sourceOf ms)[i]?
  lineEnds : ∀ i < (sourceOf ls).length, (sourceOf ls)[i]? = some '\n' ↔ (sourceOf ms)[i]? = some '\n'

theorem DifferInside.length_eq {ls ms : List Lexeme} (differ : DifferInside ls ms) :
    (sourceOf ls).length = (sourceOf ms).length := by
  rw [← length_insideOf, ← length_insideOf, differ.places]

theorem DifferInside.hidden_eq {ls ms : List Lexeme} (differ : DifferInside ls ms) :
    List.zipWith hide (insideOf ls) (sourceOf ls) = List.zipWith hide (insideOf ls) (sourceOf ms) := by
  have length := length_insideOf ls
  apply List.ext_getElem?
  intro i
  rw [List.getElem?_zipWith, List.getElem?_zipWith]
  cases place : (insideOf ls)[i]? with
  | none => rfl
  | some inside =>
    obtain ⟨within, -⟩ := List.getElem?_eq_some_iff.mp place
    rw [length] at within
    cases inside with
    | false => rw [differ.outside i within place]
    | true =>
      have alike : i < (sourceOf ms).length := differ.length_eq ▸ within
      have left : (sourceOf ls)[i]? = some (sourceOf ls)[i] := List.getElem?_eq_getElem within
      have right : (sourceOf ms)[i]? = some (sourceOf ms)[i] := List.getElem?_eq_getElem alike
      have lineEnds := differ.lineEnds i within
      rw [left, right, Option.some.injEq, Option.some.injEq] at lineEnds
      rw [left, right]
      exact congrArg some (blankChar_eq_iff.mpr lineEnds)

theorem DifferInside.blanked_eq {ls ms : List Lexeme} (differ : DifferInside ls ms) :
    ls.flatMap Lexeme.blanked = ms.flatMap Lexeme.blanked := by
  calc ls.flatMap Lexeme.blanked
      = List.zipWith hide (insideOf ls) (sourceOf ls) := (zipWith_hide_lexemes ls).symm
    _ = List.zipWith hide (insideOf ls) (sourceOf ms) := differ.hidden_eq
    _ = List.zipWith hide (insideOf ms) (sourceOf ms) := by rw [differ.places]
    _ = ms.flatMap Lexeme.blanked := zipWith_hide_lexemes ms

theorem blank_joined {ls : List Lexeme} (joined : Joined ls []) :
    blank (sourceOf ls) = ls.flatMap Lexeme.blanked := by
  have whole := blank_sourceOf (e := .whole) joined
  rwa [Ending.text, Ending.blanked, List.append_nil, List.append_nil] at whole

/-- Code and the quotes of literals stay, and of comments and of the bodies of literals only line ends do; a
second time changes nothing. So sources that differ inside comments and literals alone give the same
signatures. -/
theorem blank_by_lexemes :
    (∀ ls, Joined ls [] → blank (sourceOf ls) = ls.flatMap Lexeme.blanked) ∧
    (∀ source, blank (blank source) = blank source) ∧
    ∀ ls ms, Joined ls [] → Joined ms [] → DifferInside ls ms →
      ∀ policy file, extract policy file (sourceOf ls) = extract policy file (sourceOf ms) := by
  refine ⟨fun ls joined => blank_joined joined, blank_blank, ?_⟩
  intro ls ms first second differ policy file
  have same : blank (sourceOf ls) = blank (sourceOf ms) := by
    calc blank (sourceOf ls)
        = ls.flatMap Lexeme.blanked := blank_joined first
      _ = ms.flatMap Lexeme.blanked := differ.blanked_eq
      _ = blank (sourceOf ms) := (blank_joined second).symm
  rw [extract, extract, same]

def quotedBrace : List Lexeme :=
  [.lineComment " it's (".toList (by decide),
    .code "\npub fn f() string \x7b\n\treturn ".toList (by decide),
    .literal '\'' "a \\' // \x7b".toList (by decide) (by decide),
    .code "\n".toList (by decide),
    .blockComment " \x7d ' ".toList (by decide),
    .code "\x7d\n".toList (by decide)]

/-- The same source with other comments, and a function in the literal. -/
def quotedFunction : List Lexeme :=
  [.lineComment " \"\" [ x".toList (by decide),
    .code "\npub fn f() string \x7b\n\treturn ".toList (by decide),
    .literal '\'' "fn g() \x7b\x7d".toList (by decide) (by decide),
    .code "\n".toList (by decide),
    .blockComment "\"fn(\"".toList (by decide),
    .code "\x7d\n".toList (by decide)]

theorem quoted_agree :
    (Joined quotedBrace [] ∧ Joined quotedFunction [] ∧ DifferInside quotedBrace quotedFunction) ∧
    blank (sourceOf quotedBrace) = quotedBrace.flatMap Lexeme.blanked ∧
    extract {} "f.v".toList (sourceOf quotedBrace) = extract {} "f.v".toList (sourceOf quotedFunction) ∧
    (extract {} "f.v".toList (sourceOf quotedBrace)).map (·.map (·.name)) = .ok ["f".toList] := by
  have first : Joined quotedBrace [] := by
    simp [quotedBrace, Joined, Lexeme.StopsBefore, sourceOf, Lexeme.text]
  have second : Joined quotedFunction [] := by
    simp [quotedFunction, Joined, Lexeme.StopsBefore, sourceOf, Lexeme.text]
  have differ : DifferInside quotedBrace quotedFunction := ⟨by decide, by decide, by decide⟩
  obtain ⟨blanked, -, agree⟩ := blank_by_lexemes
  exact ⟨⟨first, second, differ⟩, blanked _ first, agree _ _ first second differ {} _, by decide⟩

end TestSkeleton.V
