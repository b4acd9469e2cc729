import TestSkeleton.Proofs.Rust.Attribute

/-! Attributes that are plainly written: their text is taken exactly for what their tokens say. -/

namespace TestSkeleton.Rust

open Text

def Trivia.isBlankRun : Trivia → Bool
  | blank _ => true
  | comment _ => false

namespace Attribute

/-- No blank stands behind the hash or inside the path, the path begins with a word and its words have
the characters of words, and the attribute holds no comment and no further `#[`. -/
structure Plain (a : Tree) : Prop where
  opening : ∀ t ∈ a.tokens[1]?, t.gap = []
  lead : ∀ t ∈ (path a).head?, t.IsWord
  tight : ∀ t ∈ (path a).tail, t.gap = []
  words : ∀ t ∈ path a, t.IsWord → ∀ c ∈ t.text, isWord c = true
  comments : ∀ t ∈ a.tokens.tail, ∀ trivia ∈ t.gap, trivia.isBlankRun = true
  further : contains "#[".toList a.text.tail = false

instance (a : Tree) : Decidable (Plain a) :=
  decidable_of_iff
    ((∀ t ∈ a.tokens[1]?, t.gap = []) ∧ (∀ t ∈ (path a).head?, t.kind = .word) ∧
      (∀ t ∈ (path a).tail, t.gap = []) ∧
      (∀ t ∈ path a, t.kind = .word → ∀ c ∈ t.text, isWord c = true) ∧
      (∀ t ∈ a.tokens.tail, ∀ trivia ∈ t.gap, trivia.isBlankRun = true) ∧
      contains "#[".toList a.text.tail = false)
    ⟨fun ⟨opening, lead, tight, words, comments, further⟩ =>
        ⟨opening, lead, tight, words, comments, further⟩,
      fun plain => ⟨plain.opening, plain.lead, plain.tight, plain.words, plain.comments, plain.further⟩⟩

end Attribute

/-- Tokens of a source with nothing but blanks between them. -/
structure Spaced (ts : List Token) : Prop where
  lexical : Lexical ts
  blanks : ∀ t ∈ ts, ∀ trivia ∈ t.gap, trivia.isBlankRun = true

namespace Spaced

variable {t u : Token} {ts us : List Token}

theorem behind (spaced : Spaced (ts ++ us)) : Spaced us where
  lexical := spaced.lexical.behind
  blanks := fun t member => spaced.blanks t (List.mem_append_right ts member)

theorem tail (spaced : Spaced (t :: ts)) : Spaced ts :=
  (show Spaced ([t] ++ ts) from spaced).behind

theorem isBlank_gap (spaced : Spaced (t :: ts)) :
    ∀ c ∈ t.gap.flatMap Trivia.text, isBlank c = true := by
  intro c member
  obtain ⟨trivia, inside, found⟩ := List.mem_flatMap.mp member
  have sound := spaced.lexical.sound trivia inside
  cases trivia with
  | blank text => exact sound.2 c found
  | comment text => cases spaced.blanks t List.mem_cons_self _ inside

theorem trimStart_written (spaced : Spaced (t :: ts)) :
    trimStart (written (t :: ts)) = t.text ++ written ts := by
  obtain ⟨c, r, text, solid⟩ := spaced.lexical.solid
  rw [trimStart, written_cons, List.append_assoc, List.dropWhile_append_of_pos spaced.isBlank_gap, text,
    List.cons_append, List.dropWhile_cons_of_neg (by simp [solid])]

theorem trimStart_sign {c : Char} (spaced : Spaced (t :: ts)) (sign : t.IsSign c) :
    trimStart (written (t :: ts)) = c :: written ts := by
  rw [spaced.trimStart_written, sign.2]
  rfl

theorem closesAttribute_sign {c : Char} (spaced : Spaced (t :: ts)) (sign : t.IsSign c) :
    closesAttribute (written (t :: ts)) = (c == ']') := by
  rw [closesAttribute, spaced.trimStart_sign sign]
  rfl

end Spaced

/-! The text of a path, and where it ends. -/

/-- The text of tokens without gaps. -/
def spelled (ts : List Token) : Text := ts.flatMap Token.text

theorem written_tight {ts : List Token} (tight : ∀ t ∈ ts, t.gap = []) : written ts = spelled ts := by
  rw [written, spelled, List.flatMap_def, List.flatMap_def]
  refine congrArg List.flatten (List.map_congr_left fun t member => ?_)
  rw [tight t member, List.flatMap_nil, List.nil_append]

theorem length_le_spelled {ts : List Token} (filled : ∀ t ∈ ts, t.text ≠ []) :
    ts.length ≤ (spelled ts).length := by
  induction ts with
  | nil => exact Nat.zero_le _
  | cons t ts ih =>
    have here := List.length_pos_iff.mpr (filled t List.mem_cons_self)
    have later := ih fun u member => filled u (List.mem_cons_of_mem t member)
    simp only [spelled, List.flatMap_cons, List.length_append, List.length_cons] at later ⊢
    omega

theorem startsTestPath_path {path : List Token} (isPath : PathTokens path)
    (words : ∀ t ∈ path, t.IsWord → t.text ≠ [] ∧ ∀ c ∈ t.text, isWord c = true) {behind : Text}
    (stop : ∀ c ∈ behind.head?, (isWord c || c == ':') = false) {n : Nat} (enough : path.length ≤ n) :
    startsTestPath n (spelled path ++ behind) =
      ((path.getLast?.map Token.text == some "test".toList) && closesAttribute behind) := by
  have stopped : ∀ c ∈ behind.head?, isWord c = false := fun c first =>
    (Bool.or_eq_false_iff.mp (stop c first)).1
  induction isPath generalizing n with
  | @word t isWord =>
    obtain ⟨k, rfl⟩ := Nat.exists_eq_add_of_le' enough
    have inside := (words t List.mem_cons_self isWord).2
    rw [spelled, List.flatMap_singleton, List.length_singleton, startsTestPath,
      takeWhile_run inside stopped, dropWhile_run inside stopped]
    split
    · exact absurd (stop ':' rfl) (by simp)
    · simp
  | @step t c d rest isWord first second isPath ih =>
    obtain ⟨k, rfl⟩ := Nat.exists_eq_add_of_le' (Nat.le_trans (by simp : 1 ≤ _) enough)
    obtain ⟨filled, inside⟩ := words t List.mem_cons_self isWord
    have shape : spelled (t :: c :: d :: rest) ++ behind =
        t.text ++ ':' :: ':' :: (spelled rest ++ behind) := by
      simp [spelled, first.2, second.2]
    have colon : ∀ e ∈ (':' :: ':' :: (spelled rest ++ behind)).head?, Text.isWord e = false := by
      intro e found
      rw [← Option.some.inj found]
      decide
    have later := ih (fun u member => words u (by simp [member]))
      (n := k) (by simp only [List.length_cons] at enough; omega)
    have last : (t :: c :: d :: rest).getLast? = rest.getLast? := by
      obtain ⟨u, us, rfl⟩ := List.exists_cons_of_ne_nil isPath.ne_nil
      rfl
    rw [shape, startsTestPath, takeWhile_run inside colon, dropWhile_run inside colon, last]
    simp [filled, later]

namespace Attribute

/-- A plain attribute taken apart: the path, what follows it, and the closing bracket. -/
structure Parts (a : Tree) (named tail : List Token) (closing : Token) : Prop where
  isPath : PathTokens named
  follows : PathTail tail
  closes : closing.IsSign ']'
  spaced : Spaced (named ++ tail ++ [closing])
  path : path a = named
  body : body a = named ++ tail
  text : a.text = '#' :: '[' :: written (named ++ tail ++ [closing])

theorem Plain.parts {children : List Tree} (grown : (Tree.node .attribute children).Grown)
    (plain : Plain (.node .attribute children)) :
    ∃ named tail closing, Parts (.node .attribute children) named tail closing := by
  obtain ⟨hash, opening, _, tail, closing, whole, first, second, ⟨lead, named, rfl, led, isPath⟩, follows,
    closes⟩ := grown.content
  have tokens : (Tree.node .attribute children).tokens =
      hash :: opening :: (lead ++ named ++ tail ++ [closing]) := whole
  have inside : Attribute.body (.node .attribute children) = lead ++ named ++ tail := by
    rw [Attribute.body, tokens, List.drop_succ_cons, List.drop_succ_cons, List.drop_zero,
      List.dropLast_concat]
  have unled : lead = [] := by
    rcases led with none | ⟨c, d, rfl, colon, -⟩
    · exact none
    · have head : (Attribute.path (.node .attribute children)).head? = some c := by
        rw [Attribute.path, inside, List.cons_append, List.cons_append,
          List.takeWhile_cons_of_pos (by simp [colon.2]), List.head?_cons]
      have word : c.kind = .word := plain.lead c head
      rw [colon.1] at word
      cases word
  subst unled
  have stop : ∀ t ∈ tail.head?, (t.kind == .word || t.text == [':']) = false := by
    intro t head
    obtain ⟨u, us, c, shape, sign, listed, -⟩ := follows.first closes
    obtain ⟨rest, rfl⟩ : ∃ rest, tail = t :: rest := List.head?_eq_some_iff.mp head
    obtain rfl : t = u := (List.cons.inj shape).1
    have other : c ≠ ':' := by
      rintro rfl
      exact absurd listed (by decide)
    simp [sign.1, sign.2, other]
  have spaced : Spaced (named ++ tail ++ [closing]) := by
    refine ⟨?_, fun t member => plain.comments t ?_⟩
    · have lexical := grown.lexical
      rw [whole] at lexical
      exact lexical.tail.tail
    · rw [tokens]
      exact List.mem_cons_of_mem _ member
  refine ⟨named, tail, closing, isPath, follows, closes, spaced, ?_, inside, ?_⟩
  · rw [Attribute.path, inside, List.nil_append, takeWhile_run isPath.named stop]
  · have tight : opening.gap = [] := plain.opening opening (by rw [tokens]; rfl)
    rw [Tree.text, tokens, textOfTokens, first.2]
    change '#' :: written (opening :: _) = _
    rw [written_cons, tight, second.2]
    rfl

variable {a : Tree} {named tail : List Token} {closing : Token}

theorem Parts.trimStart_written (parts : Parts a named tail closing) (plain : Plain a) :
    trimStart (written (named ++ tail ++ [closing])) = spelled named ++ written (tail ++ [closing]) := by
  obtain ⟨t, rest, rfl⟩ := List.exists_cons_of_ne_nil parts.isPath.ne_nil
  have tight : ∀ u ∈ rest, u.gap = [] := fun u member => plain.tight u (by rw [parts.path]; exact member)
  have spaced := parts.spaced
  rw [List.append_assoc, List.cons_append] at spaced ⊢
  rw [spaced.trimStart_written, written_append, written_tight tight, ← List.append_assoc]
  rfl

theorem Parts.filled (parts : Parts a named tail closing) : ∀ t ∈ named, t.text ≠ [] := by
  intro t member
  obtain ⟨front, back, rfl⟩ := List.append_of_mem member
  have spaced := parts.spaced
  rw [List.append_assoc, List.append_assoc, List.cons_append] at spaced
  obtain ⟨c, r, text, -⟩ := spaced.behind.lexical.solid
  rw [text]
  exact List.cons_ne_nil _ _

theorem Parts.words (parts : Parts a named tail closing) (plain : Plain a) :
    ∀ t ∈ named, t.IsWord → t.text ≠ [] ∧ ∀ c ∈ t.text, isWord c = true := fun t member word =>
  ⟨parts.filled t member, plain.words t (by rw [parts.path]; exact member) word⟩

theorem Parts.behind (parts : Parts a named tail closing) : Spaced (tail ++ [closing]) := by
  have spaced := parts.spaced
  rw [List.append_assoc] at spaced
  exact spaced.behind

/-- What stands behind the path does not go on with it. -/
theorem Parts.stops (parts : Parts a named tail closing) :
    ∀ d ∈ (written (tail ++ [closing])).head?, (isWord d || d == ':') = false := by
  obtain ⟨t, ts, c, shape, sign, listed, -⟩ := parts.follows.first parts.closes
  have behind := parts.behind.lexical
  rw [shape] at behind ⊢
  refine behind.stops (fun b blank => ?_) (by decide) fun _ d first => ?_
  · have other : b ≠ ':' := by
      rintro rfl
      cases blank
    simp [isWord_of_isBlank blank, other]
  · have marks : ∀ d ∈ ['(', '[', '\x7b', '=', ']'], (isWord d || d == ':') = false := by decide
    rw [sign.2] at first
    rw [← Option.some.inj first]
    exact marks c listed

theorem Parts.opening (parts : Parts a named tail closing) (plain : Plain a) :
    dropAttributeOpening? a.text = some (spelled named ++ written (tail ++ [closing])) := by
  rw [parts.text, ← parts.trimStart_written plain]
  rfl

theorem Parts.further (parts : Parts a named tail closing) (plain : Plain a) :
    contains "#[".toList ('[' :: written (named ++ tail ++ [closing])) = false := by
  have further := plain.further
  rwa [parts.text, List.tail_cons] at further

/-- The text of a plain attribute holds a test attribute exactly when the attribute is one. -/
theorem holdsTestAttribute_iff {children : List Tree} (grown : (Tree.node .attribute children).Grown)
    (plain : Plain (.node .attribute children)) :
    holdsTestAttribute (Tree.node .attribute children).text = true ↔ IsTest (.node .attribute children) := by
  obtain ⟨named, tail, closing, parts⟩ := plain.parts grown
  obtain ⟨t, ts, c, shape, sign, listed, last⟩ := parts.follows.first parts.closes
  have behind := parts.behind
  rw [shape] at behind
  have enough : named.length ≤ (spelled named ++ written (tail ++ [closing])).length := by
    rw [List.length_append]
    exact Nat.le_add_right_of_le (length_le_spelled parts.filled)
  have opening := parts.opening plain
  have further := holdsTestAttribute_eq_false (parts.further plain)
  rw [parts.text] at opening ⊢
  rw [holdsTestAttribute, opening, further, Bool.or_false, Option.any_some,
    startsTestPath_path parts.isPath (parts.words plain) parts.stops enough, shape,
    behind.closesAttribute_sign sign, Bool.and_eq_true, beq_iff_eq, beq_iff_eq, last, IsTest, parts.path,
    parts.body, List.self_eq_append_right]
  exact and_comm

theorem Parts.configured (parts : Parts a named tail closing)
    (same : (named ++ tail).map Token.text = ["cfg", "(", "test", ")"].map String.toList) :
    Configured (spelled named ++ written (tail ++ [closing])) := by
  have behind := parts.behind
  cases parts.isPath with
  | @step t c d rest word first second _ =>
    simp only [List.cons_append, List.map_cons, List.cons.injEq, first.2] at same
    exact absurd same.2.1 (by decide)
  | @word t word =>
    obtain ⟨name, others⟩ : t.text = "cfg".toList ∧
        tail.map Token.text = ["(", "test", ")"].map String.toList := by
      simpa using same
    obtain ⟨opening, rest, rfl, first, others⟩ := List.map_eq_cons_iff.mp others
    obtain ⟨inner, rest, rfl, second, others⟩ := List.map_eq_cons_iff.mp others
    obtain ⟨last, rest, rfl, third, others⟩ := List.map_eq_cons_iff.mp others
    obtain rfl := List.map_eq_nil_iff.mp others
    refine ⟨_, written (inner :: last :: [closing]), written (last :: [closing]), written [closing],
      by rw [spelled, List.flatMap_singleton, name], ?_, ?_, ?_, ?_⟩
    · exact behind.trimStart_written.trans (by rw [first]; rfl)
    · exact behind.tail.trimStart_written.trans (by rw [second]; rfl)
    · exact behind.tail.tail.trimStart_written.trans (by rw [third]; rfl)
    · rw [behind.tail.tail.tail.closesAttribute_sign parts.closes]
      rfl

/-- The text of a plain attribute holds `cfg(test)` exactly when the attribute is that. -/
theorem holdsConfiguredTest_iff {children : List Tree} (grown : (Tree.node .attribute children).Grown)
    (plain : Plain (.node .attribute children)) :
    holdsConfiguredTest (Tree.node .attribute children).text = true ↔
      IsConfiguredTest (.node .attribute children) := by
  refine ⟨fun holds => ?_, fun configured => ?_⟩
  · refine (isConfiguredTest_or_contains grown holds).resolve_right ?_
    rw [plain.further]
    exact Bool.false_ne_true
  · obtain ⟨named, tail, closing, parts⟩ := plain.parts grown
    rw [IsConfiguredTest, parts.body] at configured
    have opening := parts.opening plain
    rw [parts.text] at opening ⊢
    exact (holdsConfiguredTest_cons opening (parts.further plain)).mpr (parts.configured configured)

end Attribute

end TestSkeleton.Rust
