import TestSkeleton.Proofs.Rust.Layer

/-! What stands before and behind a part of a type.

The rule for library types looks at the text before the first bracket. Whether that reaches the part is
decided by what stands before the part, and where it ends by what stands behind it. -/

namespace TestSkeleton.Rust

open Text Signature TypeTerm

namespace Layer

/-- What a layer writes before the part. -/
def before : Layer → Text
  | wrapper .reference => ['&']
  | wrapper .mutableReference => '&' :: "mut ".toList
  | wrapper .option => optionName ++ ['<']
  | wrapper .result | wrapper (.resultOr _) => resultName ++ ['<']
  | wrapper .vec => vecName ++ ['<']
  | wrapper (.array _) | wrapper .slice => ['[']
  | errorOf success => resultName ++ ['<'] ++ success.text ++ [',', ' ']
  | tuple front _ => '(' :: front.flatMap (·.text ++ [',', ' '])

/-- What a layer writes behind the part. -/
def behind : Layer → Text
  | wrapper .reference | wrapper .mutableReference => []
  | wrapper .option | wrapper .result | wrapper .vec | errorOf _ => ['>']
  | wrapper (.resultOr error) => [',', ' '] ++ error.text ++ ['>']
  | wrapper (.array length) => [';', ' '] ++ length.text ++ [']']
  | wrapper .slice => [']']
  | tuple [] [] => [',', ' ', ')']
  | tuple _ back => back.flatMap ([',', ' '] ++ ·.text) ++ [')']

/-- A part of a tuple stands between its neighbours. -/
theorem tupleText_append_cons (gap : Text) {front back : List Text} (several : ¬(front = [] ∧ back = []))
    (u : Text) : tupleText gap (front ++ u :: back) =
      '(' :: (front.flatMap (· ++ [',', ' ']) ++ u ++ (back.flatMap ([',', ' '] ++ ·) ++ [')'])) := by
  unfold tupleText
  split
  · rename_i v single
    have length := congrArg List.length single
    simp only [List.length_append, List.length_cons, List.length_nil] at length
    exact absurd ⟨List.length_eq_zero_iff.mp (by omega), List.length_eq_zero_iff.mp (by omega)⟩ several
  · rw [join_append_cons]
    simp

theorem spell_eq (l : Layer) (u : Text) : l.spell u = l.before ++ u ++ l.behind := by
  cases l with
  | wrapper w => cases w <;> simp [spell, Wrapper.spell, before, behind, applied, join]
  | errorOf success => simp [spell, before, behind, applied, join]
  | tuple front back =>
    by_cases alone : front = [] ∧ back = []
    · obtain ⟨rfl, rfl⟩ := alone
      simp [spell, before, behind, tupleText]
    · have shown : (tuple front back).behind = back.flatMap ([',', ' '] ++ ·.text) ++ [')'] := by
        unfold behind
        split <;> simp_all
      rw [spell, tupleText_append_cons [' '] (by simpa using alone), shown]
      simp [before, List.flatMap_map]

/-- A reference. -/
def IsReference : Layer → Prop
  | wrapper w => w.isReference = true
  | errorOf _ | tuple _ _ => False

/-- A layer without a bracket before the part that would end the nominal part of the text. -/
def IsOpen : Layer → Prop
  | wrapper w => w.isReference = true
  | errorOf _ => False
  | tuple front _ => ∀ p ∈ front, ∀ c ∈ p.text, c ≠ '<' ∧ c ≠ '['

theorem IsReference.isOpen {l : Layer} (reference : l.IsReference) : l.IsOpen := by
  cases l with
  | wrapper w => exact reference
  | errorOf success => cases reference
  | tuple front back => cases reference

theorem IsOpen.before_clean {l : Layer} (open' : l.IsOpen) : ∀ c ∈ l.before, c ≠ '<' ∧ c ≠ '[' := by
  cases l with
  | errorOf success => cases open'
  | wrapper w =>
    cases w with
    | reference | mutableReference => decide
    | option | result | resultOr error | vec | array length | slice => cases open'
  | tuple front back =>
    intro c member
    simp only [before, List.mem_cons, List.mem_flatMap, List.mem_append] at member
    rcases member with rfl | ⟨p, listed, inside | gap⟩
    · decide
    · exact open' p listed c inside
    · exact (by decide : ∀ d ∈ [',', ' '], d ≠ '<' ∧ d ≠ '[') c (by simpa using gap)

theorem exists_bracket_before {l : Layer} (closed : ¬l.IsOpen) : ∃ c ∈ l.before, c = '<' ∨ c = '[' := by
  cases l with
  | errorOf success => exact ⟨'<', by simp [before], by simp⟩
  | wrapper w =>
    cases w with
    | reference | mutableReference => exact absurd rfl closed
    | option | result | resultOr error | vec => exact ⟨'<', by simp [before], by simp⟩
    | array length | slice => exact ⟨'[', by simp [before], by simp⟩
  | tuple front back =>
    simp only [IsOpen, not_forall] at closed
    obtain ⟨p, listed, c, inside, bracket⟩ := closed
    refine ⟨c, ?_, by simpa [or_iff_not_imp_left] using bracket⟩
    exact List.mem_cons_of_mem _ (List.mem_flatMap.mpr ⟨p, listed, List.mem_append_left _ inside⟩)

/-- The marks that stand directly before a part. -/
def partMarks : Text := ['&', ' ', '(']

theorem IsOpen.before_ends {l : Layer} (open' : l.IsOpen) :
    (∃ c ∈ ['&', '('], l.before.head? = some c) ∧
      ∃ front, ∃ mark ∈ partMarks, l.before = front ++ [mark] := by
  cases l with
  | errorOf success => cases open'
  | wrapper w =>
    cases w with
    | reference => exact ⟨⟨'&', by decide, rfl⟩, [], '&', by decide, rfl⟩
    | mutableReference => exact ⟨⟨'&', by decide, rfl⟩, "&mut".toList, ' ', by decide, rfl⟩
    | option | result | resultOr error | vec | array length | slice => cases open'
  | tuple front back =>
    refine ⟨⟨'(', by decide, rfl⟩, ?_⟩
    cases front using List.reverseRecOn with
    | nil => exact ⟨[], '(', by decide, rfl⟩
    | append_singleton front last =>
      refine ⟨'(' :: (front.flatMap (·.text ++ [',', ' ']) ++ last.text ++ [',']), ' ', by decide, ?_⟩
      simp [before]

/-- What types around a part begin with. -/
def heads : Text := ['&', '(', '[', 'O', 'R', 'V']

/-- What follows the first character of a layer is no blank. -/
theorem before_head (l : Layer) : ∃ d ∈ heads, ∃ front, l.before = d :: front ∧
    ∀ e ∈ front.head?, isBlank e = false := by
  cases l with
  | errorOf success => exact ⟨'R', by decide, _, rfl, by simp; decide⟩
  | wrapper w =>
    cases w with
    | reference => exact ⟨'&', by decide, [], rfl, by simp⟩
    | mutableReference => exact ⟨'&', by decide, _, rfl, by simp; decide⟩
    | option => exact ⟨'O', by decide, _, rfl, by simp; decide⟩
    | result | resultOr error => exact ⟨'R', by decide, _, rfl, by simp; decide⟩
    | vec => exact ⟨'V', by decide, _, rfl, by simp; decide⟩
    | array length | slice => exact ⟨'[', by decide, [], rfl, by simp⟩
  | tuple front back =>
    refine ⟨'(', by decide, _, rfl, ?_⟩
    cases front with
    | nil => simp
    | cons p front =>
      have filled := p.isPiece.filled
      intro e found
      rw [List.flatMap_cons, List.append_assoc, List.head?_append,
        Option.or_of_isSome (by simpa using filled)] at found
      exact p.isPiece.head_solid e found

/-- The characters of the marks of references. -/
def referenceChars : Text := "&mut ".toList

theorem IsReference.before_eq {l : Layer} (reference : l.IsReference) :
    ∃ lead ∈ [[], "mut ".toList], l.before = '&' :: lead ∧ (lead = [] → l = wrapper .reference) := by
  cases l with
  | errorOf success | tuple front back => cases reference
  | wrapper w =>
    cases w with
    | reference => exact ⟨[], by simp, rfl, fun _ => rfl⟩
    | mutableReference => exact ⟨"mut ".toList, by simp, rfl, fun same => absurd same (by decide)⟩
    | option | result | resultOr error | vec | array length | slice => cases reference

theorem IsReference.behind_eq_nil {l : Layer} (reference : l.IsReference) : l.behind = [] := by
  cases l with
  | errorOf success | tuple front back => cases reference
  | wrapper w =>
    cases w with
    | reference | mutableReference => rfl
    | option | result | resultOr error | vec | array length | slice => cases reference

/-- The brackets that types end in. -/
def closings : Text := ['>', ')', ']']

theorem behind_last {l : Layer} (other : ¬l.IsReference) : ∃ z ∈ closings, l.behind.getLast? = some z := by
  cases l with
  | errorOf success => exact ⟨'>', by decide, rfl⟩
  | wrapper w =>
    cases w with
    | reference | mutableReference => exact absurd rfl other
    | option | result | vec => exact ⟨'>', by decide, rfl⟩
    | resultOr error => exact ⟨'>', by decide, by simp [behind, List.getLast?_cons]⟩
    | array length => exact ⟨']', by decide, by simp [behind, List.getLast?_cons]⟩
    | slice => exact ⟨']', by decide, rfl⟩
  | tuple front back =>
    refine ⟨')', by decide, ?_⟩
    unfold behind
    split <;> simp_all

theorem IsOpen.behind_head {l : Layer} (open' : l.IsOpen) (other : ¬l.IsReference) :
    ∃ mark ∈ [',', ')'], ∃ rest, l.behind = mark :: rest := by
  cases l with
  | errorOf success => cases open'
  | wrapper w => exact absurd open' other
  | tuple front back =>
    cases back with
    | nil =>
      cases front with
      | nil => exact ⟨',', by decide, [' ', ')'], rfl⟩
      | cons p front => exact ⟨')', by decide, [], rfl⟩
    | cons p back =>
      refine ⟨',', by decide, ' ' :: p.text ++ back.flatMap ([',', ' '] ++ ·.text) ++ [')'], ?_⟩
      simp [behind]

end Layer

/-- What several layers, the outermost first, write before the part inside all of them. -/
def beforePart (ls : List Layer) : Text := ls.flatMap Layer.before

/-- What several layers write behind the part. -/
def behindPart : List Layer → Text
  | [] => []
  | l :: ls => behindPart ls ++ l.behind

/-- The text of all layers, seen from the part. -/
theorem foldr_spell_eq (ls : List Layer) (u : Text) :
    ls.foldr Layer.spell u = beforePart ls ++ u ++ behindPart ls := by
  induction ls with
  | nil => simp [beforePart, behindPart]
  | cons l ls ih => simp [beforePart, behindPart, Layer.spell_eq, ih]

section Parts

variable {ls : List Layer}

theorem beforePart_clean (open' : ∀ l ∈ ls, l.IsOpen) : ∀ c ∈ beforePart ls, c ≠ '<' ∧ c ≠ '[' := by
  intro c member
  obtain ⟨l, listed, inside⟩ := List.mem_flatMap.mp member
  exact (open' l listed).before_clean c inside

theorem exists_bracket_beforePart (closed : ¬∀ l ∈ ls, l.IsOpen) :
    ∃ c ∈ beforePart ls, c = '<' ∨ c = '[' := by
  simp only [not_forall] at closed
  obtain ⟨l, listed, closed⟩ := closed
  obtain ⟨c, member, bracket⟩ := Layer.exists_bracket_before closed
  exact ⟨c, List.mem_flatMap.mpr ⟨l, listed, member⟩, bracket⟩

theorem beforePart_ends (filled : ls ≠ []) (open' : ∀ l ∈ ls, l.IsOpen) :
    (∃ c ∈ ['&', '('], (beforePart ls).head? = some c) ∧
      ∃ front, ∃ mark ∈ Layer.partMarks, beforePart ls = front ++ [mark] := by
  constructor
  · obtain ⟨l, rest, rfl⟩ := List.exists_cons_of_ne_nil filled
    obtain ⟨⟨c, listed, first⟩, -⟩ := (open' l List.mem_cons_self).before_ends
    exact ⟨c, listed, by rw [beforePart, List.flatMap_cons, List.head?_append, first]; rfl⟩
  · cases ls using List.reverseRecOn with
    | nil => exact absurd rfl filled
    | append_singleton front l =>
      obtain ⟨-, lead, mark, listed, shape⟩ := (open' l (by simp)).before_ends
      refine ⟨beforePart front ++ lead, mark, listed, ?_⟩
      simp [beforePart, shape]

theorem beforePart_solid (open' : ∀ l ∈ ls, l.IsOpen) : ∀ c ∈ (beforePart ls).head?, isBlank c = false := by
  cases ls with
  | nil => simp [beforePart]
  | cons l ls =>
    obtain ⟨⟨d, listed, first⟩, -⟩ := beforePart_ends (List.cons_ne_nil l ls) open'
    intro c found
    obtain rfl : d = c := Option.some.inj (first.symm.trans found)
    exact (by decide : ∀ d ∈ ['&', '('], isBlank d = false) d listed

theorem behindPart_eq_nil (references : ∀ l ∈ ls, l.IsReference) : behindPart ls = [] := by
  induction ls with
  | nil => rfl
  | cons l ls ih =>
    rw [behindPart, ih fun m member => references m (List.mem_cons_of_mem l member),
      (references l List.mem_cons_self).behind_eq_nil]
    rfl

theorem behindPart_last (other : ¬∀ l ∈ ls, l.IsReference) :
    ∃ z ∈ Layer.closings, (behindPart ls).getLast? = some z := by
  induction ls with
  | nil => exact absurd (by simp) other
  | cons l ls ih =>
    rw [behindPart, List.getLast?_append]
    by_cases reference : l.IsReference
    · have later : ¬∀ m ∈ ls, m.IsReference := fun all => other (by simpa using ⟨reference, all⟩)
      rw [reference.behind_eq_nil, List.getLast?_nil, Option.none_or]
      exact ih later
    · obtain ⟨z, listed, last⟩ := Layer.behind_last reference
      exact ⟨z, listed, by rw [last]; rfl⟩

theorem behindPart_head (open' : ∀ l ∈ ls, l.IsOpen) (other : ¬∀ l ∈ ls, l.IsReference) :
    ∃ mark ∈ [',', ')'], ∃ rest, behindPart ls = mark :: rest := by
  induction ls with
  | nil => exact absurd (by simp) other
  | cons l ls ih =>
    rw [behindPart]
    have inside : ∀ m ∈ ls, m.IsOpen := fun m member => open' m (List.mem_cons_of_mem l member)
    by_cases references : ∀ m ∈ ls, m.IsReference
    · have outer : ¬l.IsReference := fun reference => other (by simpa using ⟨reference, references⟩)
      rw [behindPart_eq_nil references]
      exact (open' l List.mem_cons_self).behind_head outer
    · obtain ⟨mark, listed, rest, shape⟩ := ih inside references
      exact ⟨mark, listed, rest ++ l.behind, by rw [shape]; rfl⟩

/-- References write marks before the part and nothing behind it. -/
theorem foldr_references (filled : ls ≠ []) (references : ∀ l ∈ ls, l.IsReference) :
    ∃ marks, (∀ c ∈ marks, c ∈ Layer.referenceChars) ∧ (∀ c ∈ marks.head?, isBlank c = false) ∧
      (marks = [] → ls = [.wrapper .reference]) ∧
      ∀ u, ls.foldr Layer.spell u = '&' :: (marks ++ u) := by
  induction ls with
  | nil => exact absurd rfl filled
  | cons l ls ih =>
    have later : ∀ m ∈ ls, m.IsReference := fun m member => references m (List.mem_cons_of_mem l member)
    obtain ⟨lead, listed, before, only⟩ := (references l List.mem_cons_self).before_eq
    have spelled : ∀ u, l.spell u = '&' :: (lead ++ u) := by
      intro u
      rw [Layer.spell_eq, before, (references l List.mem_cons_self).behind_eq_nil]
      simp
    obtain ⟨chars, solid⟩ := (by decide : ∀ lead ∈ [[], "mut ".toList],
      (∀ c ∈ lead, c ∈ Layer.referenceChars) ∧ ∀ c ∈ lead.head?.toList, isBlank c = false) lead listed
    have head : ∀ c ∈ lead.head?, isBlank c = false := fun c found => solid c (Option.mem_toList.mpr found)
    cases ls with
    | nil => exact ⟨lead, chars, head, fun none => by rw [only none], spelled⟩
    | cons m ls =>
      obtain ⟨marks, inner, -, -, shape⟩ := ih (List.cons_ne_nil m ls) later
      refine ⟨lead ++ '&' :: marks, ?_, ?_, by simp, fun u => ?_⟩
      · intro c member
        rcases List.mem_append.mp member with member | member
        · exact chars c member
        · rcases List.mem_cons.mp member with rfl | member
          · decide
          · exact inner c member
      · cases lead with
        | nil => simp; decide
        | cons d r => exact head
      · rw [List.foldr_cons, shape, spelled]
        simp

variable (ls) in
/-- What ends in a bracket, or has one behind it, is no name. -/
theorem foldr_spell_last {u : Text}
    (closed : (∃ z ∈ Layer.closings, u.getLast? = some z) ∨ ¬∀ l ∈ ls, l.IsReference) :
    ∃ z, (ls.foldr Layer.spell u).getLast? = some z ∧ isNameChar z = false := by
  have marks : ∀ z ∈ Layer.closings, isNameChar z = false := by decide
  rw [foldr_spell_eq, List.getLast?_append]
  by_cases references : ∀ l ∈ ls, l.IsReference
  · obtain ⟨z, listed, last⟩ := closed.resolve_right (not_not.mpr references)
    refine ⟨z, ?_, marks z listed⟩
    rw [behindPart_eq_nil references, List.getLast?_append, last]
    rfl
  · obtain ⟨z, listed, last⟩ := behindPart_last references
    exact ⟨z, by rw [last]; rfl, marks z listed⟩

end Parts

end TestSkeleton.Rust
