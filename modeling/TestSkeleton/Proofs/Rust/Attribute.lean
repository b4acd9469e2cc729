import TestSkeleton.Proofs.Rust.Grown

/-! What an attribute says, and what its text is taken for.

The extractor searches the text of an attribute for `#[`, a path that ends in `test` and `]`, or for
`#[cfg(test)]`. At the first place it finds them only where the tokens of the attribute say so. An attribute
that says neither is taken for one only where another `#[` stands in its text, say in a string. -/

namespace TestSkeleton.Rust

open Text

namespace Attribute

/-- The tokens between the brackets. -/
def body (a : Tree) : List Token := (a.tokens.drop 2).dropLast

/-- The path that an attribute begins with. -/
def path (a : Tree) : List Token := (body a).takeWhile fun t => t.kind == .word || t.text == [':']

/-- The attribute is a path that ends in `test`. -/
def IsTest (a : Tree) : Prop :=
  path a = body a ∧ (path a).getLast?.map Token.text = some "test".toList

/-- The attribute is exactly `cfg(test)`. -/
def IsConfiguredTest (a : Tree) : Prop :=
  (body a).map Token.text = ["cfg", "(", "test", ")"].map String.toList

instance (a : Tree) : Decidable (IsTest a) := inferInstanceAs (Decidable (_ ∧ _))

instance (a : Tree) : Decidable (IsConfiguredTest a) := inferInstanceAs (Decidable (_ = _))

end Attribute

/-- The text of tokens with the gap before each of them. -/
def written (ts : List Token) : Text := ts.flatMap fun t => t.gap.flatMap Trivia.text ++ t.text

theorem written_append (ts us : List Token) : written (ts ++ us) = written ts ++ written us :=
  List.flatMap_append

theorem written_cons (t : Token) (ts : List Token) :
    written (t :: ts) = t.gap.flatMap Trivia.text ++ t.text ++ written ts := rfl

theorem mem_of_word? {t word rest : Text} (read : word? t = some (word, rest)) :
    ∀ c ∈ word, isIdentifierStart c = true ∨ isIdentifierContinue c = true ∨ c = '#' := by
  have run (c : Char) (r : Text) (start : isIdentifierStart c = true) :
      ∀ d ∈ c :: r.takeWhile isIdentifierContinue,
        isIdentifierStart d = true ∨ isIdentifierContinue d = true ∨ d = '#' := by
    intro d member
    rcases List.mem_cons.mp member with rfl | inside
    · exact Or.inl start
    · exact Or.inr (Or.inl (List.all_eq_true.mp List.all_takeWhile d inside))
  have letter : isIdentifierStart 'r' = true := by decide
  unfold word? at read
  split at read
  · split at read
    · rename_i c r start
      cases read
      rintro d (_ | ⟨_, _ | ⟨_, member⟩⟩)
      · exact Or.inl letter
      · exact Or.inr (Or.inr rfl)
      · exact run c r start d member
    · cases read
      rintro d (_ | ⟨_, ⟨⟩⟩)
      exact Or.inl letter
  · split at read
    · rename_i c r _ start
      cases read
      exact run c r start
    · cases read
  · cases read

namespace Lexical

variable {t : Token} {ts : List Token}

/-- A word has no blank in it, and none of the signs that end a path. -/
theorem solid_word (lexical : Lexical (t :: ts)) (word : t.IsWord) :
    ∀ c ∈ t.text, isBlank c = false ∧ c ∉ [':', '(', ')', ']'] := by
  obtain ⟨s, here, rest, -, -, read, -⟩ := lexical
  rw [show t.kind = .word from word] at read
  have others : ∀ d ∈ [':', '(', ')', ']'],
      isIdentifierStart d = false ∧ isIdentifierContinue d = false ∧ d ≠ '#' := by decide
  intro c member
  have listed := mem_of_word? (read?_of_lexeme? read) c member
  refine ⟨Bool.eq_false_iff.mpr fun blank => ?_, fun sign => ?_⟩
  · rw [isIdentifierStart_of_isBlank blank, isIdentifierContinue_of_isBlank blank] at listed
    have hash : c = '#' := by simpa using listed
    rw [hash] at blank
    cases blank
  · obtain ⟨start, continues, other⟩ := others c sign
    rw [start, continues] at listed
    exact other (by simpa using listed)

/-- What is written of tokens begins with the first of them, or with a blank or a comment. -/
theorem head_written (lexical : Lexical (t :: ts)) :
    ∀ c ∈ (written (t :: ts)).head?,
      (isBlank c = true ∨ c = '/') ∨ t.gap = [] ∧ t.text.head? = some c := by
  intro c first
  obtain ⟨d, r, text, -⟩ := lexical.solid
  cases gap : t.gap with
  | nil =>
    rw [written_cons, gap, text] at first
    rw [text]
    exact Or.inr ⟨rfl, first⟩
  | cons trivia gap' =>
    have sound := lexical.sound trivia (gap ▸ List.mem_cons_self)
    rw [written_cons, gap, List.flatMap_cons] at first
    cases trivia with
    | comment text =>
      have slash : text.head? = some '/' := sound
      obtain ⟨r, rfl⟩ := List.head?_eq_some_iff.mp slash
      exact Or.inl (Or.inr (Option.some.inj first).symm)
    | blank text =>
      obtain ⟨e, r, rfl⟩ := List.exists_cons_of_ne_nil sound.1
      rw [← Option.some.inj first]
      exact Or.inl (Or.inl (sound.2 e List.mem_cons_self))

/-- What is written of tokens does not begin with a character of a class that holds neither blanks nor the
slash, nor what the first of them begins with. -/
theorem stops {p : Char → Bool} (lexical : Lexical (t :: ts)) (blanks : ∀ b, isBlank b = true → p b = false)
    (slash : p '/' = false) (here : t.gap = [] → ∀ c ∈ t.text.head?, p c = false) :
    ∀ c ∈ (written (t :: ts)).head?, p c = false := by
  intro c first
  rcases lexical.head_written c first with (blank | rfl) | ⟨none, same⟩
  · exact blanks c blank
  · exact slash
  · exact here none c same

/-- Where a sign of its own begins what is written of tokens, the first of them has no gap. -/
theorem gap_of_head {c : Char} (lexical : Lexical (t :: ts)) (head : (written (t :: ts)).head? = some c)
    (solid : isBlank c = false) (other : c ≠ '/') : t.gap = [] ∧ t.text.head? = some c := by
  rcases lexical.head_written c head with (blank | slash) | found
  · rw [solid] at blank
    cases blank
  · exact absurd slash other
  · exact found

/-- Behind blanks the first of the tokens stands, or a comment. -/
theorem trimStart_written (lexical : Lexical (t :: ts)) :
    (trimStart (written (t :: ts))).head? = some '/' ∨
      trimStart (written (t :: ts)) = t.text ++ written ts := by
  obtain ⟨d, r, text, solid⟩ := lexical.solid
  have sounds := lexical.sound
  rw [written_cons]
  generalize t.gap = gap at sounds ⊢
  induction gap with
  | nil =>
    rw [List.flatMap_nil, List.nil_append, text, trimStart, List.cons_append,
      List.dropWhile_cons_of_neg (by simp [solid])]
    exact Or.inr rfl
  | cons trivia gap ih =>
    have sound := sounds trivia List.mem_cons_self
    rw [List.flatMap_cons, List.append_assoc, List.append_assoc]
    cases trivia with
    | comment text =>
      have slash : text.head? = some '/' := sound
      obtain ⟨r, rfl⟩ := List.head?_eq_some_iff.mp slash
      exact Or.inl rfl
    | blank blanks =>
      rw [trimStart, Trivia.text, List.dropWhile_append_of_pos sound.2, ← List.append_assoc]
      exact ih fun trivia member => sounds trivia (List.mem_cons_of_mem _ member)

/-- The first of the tokens stands at the start of the text behind the blanks that does not begin with a
slash. -/
theorem eq_of_trimStart {c : Char} {r : Text} (lexical : Lexical (t :: ts))
    (cut : trimStart (written (t :: ts)) = r) (head : r.head? = some c) (other : c ≠ '/') :
    t.text ++ written ts = r ∧ t.text.head? = some c := by
  obtain ⟨d, v, text, -⟩ := lexical.solid
  rcases lexical.trimStart_written with comment | whole
  · rw [cut, head] at comment
    exact absurd (Option.some.inj comment) other
  · rw [whole] at cut
    refine ⟨cut, ?_⟩
    rw [← cut, text, List.cons_append, List.head?_cons] at head
    rw [text, List.head?_cons, head]

/-- A sign that begins a text begins it with its character, without a gap. -/
theorem eq_of_sign {c d : Char} {r : Text} (lexical : Lexical (t :: ts)) (sign : t.IsSign c)
    (cut : written (t :: ts) = d :: r) (solid : isBlank d = false) (other : d ≠ '/') :
    c = d ∧ written ts = r := by
  obtain ⟨none, -⟩ := lexical.gap_of_head (by rw [cut]; rfl) solid other
  rw [written_cons, none, sign.2] at cut
  exact List.cons.inj cut

/-- A sign that begins a text behind blanks begins it with its character. -/
theorem eq_of_trimStart_sign {c d : Char} {r : Text} (lexical : Lexical (t :: ts)) (sign : t.IsSign c)
    (cut : trimStart (written (t :: ts)) = r) (head : r.head? = some d) (other : d ≠ '/') :
    c = d ∧ c :: written ts = r := by
  obtain ⟨whole, first⟩ := lexical.eq_of_trimStart cut head other
  rw [sign.2] at whole first
  exact ⟨Option.some.inj first, whole⟩

/-- A word that a text of its own length stands for, up to a sign behind blanks, is that text. -/
theorem eq_name {p : Char → Bool} {name u r : Text} {c : Char} (lexical : Lexical (t :: ts))
    (word : t.IsWord) (same : t.text ++ written ts = name ++ u) (named : ∀ d ∈ name, p d = true)
    (next : ∀ d ∈ (written ts).head?, p d = false) (cut : trimStart u = c :: r)
    (sign : c ∈ [':', '(', ')', ']']) : t.text = name ∧ written ts = u := by
  rcases List.append_eq_append_iff.mp same with ⟨more, rfl, behind⟩ | ⟨more, text, rfl⟩
  · cases more with
    | nil => exact ⟨(List.append_nil _).symm, behind⟩
    | cons d more =>
      have stopped := next d (by rw [behind]; rfl)
      rw [named d (List.mem_append_right _ List.mem_cons_self)] at stopped
      cases stopped
  · cases more with
    | nil => exact ⟨by rw [text, List.append_nil], rfl⟩
    | cons d more =>
      have inside := lexical.solid_word word d (by rw [text]; simp)
      rw [trimStart, List.cons_append, List.dropWhile_cons_of_neg (by simp [inside.1])] at cut
      exact absurd ((List.cons.inj cut).1 ▸ sign) inside.2

end Lexical

theorem PathTokens.ne_nil {path : List Token} (isPath : PathTokens path) : path ≠ [] := by
  cases isPath <;> exact List.cons_ne_nil _ _

theorem PathTokens.named {path : List Token} (isPath : PathTokens path) :
    ∀ t ∈ path, (t.kind == .word || t.text == [':']) = true := by
  induction isPath with
  | word isWord => simp [show _ = TokenKind.word from isWord]
  | step isWord first second _ ih =>
    simp only [List.forall_mem_cons]
    exact ⟨by simp [show _ = TokenKind.word from isWord], by simp [first.2], by simp [second.2], ih⟩

/-- What follows the path of an attribute begins with a sign, which is the closing bracket only where
nothing else does. -/
theorem PathTail.first {tail : List Token} (follows : PathTail tail) {closing : Token}
    (closes : closing.IsSign ']') : ∃ t ts c, tail ++ [closing] = t :: ts ∧ t.IsSign c ∧
      c ∈ ['(', '[', '\x7b', '=', ']'] ∧ (c = ']' ↔ tail = []) := by
  rcases follows with rfl | ⟨opening, inside, last, rfl, ⟨pair, member, opens, -⟩, -⟩ | ⟨t, rest, rfl, equals⟩
  · exact ⟨closing, [], ']', rfl, closes, by simp, by simp⟩
  · have brackets : ∀ pair ∈ [('(', ')'), ('[', ']'), ('\x7b', '\x7d')],
        pair.1 ∈ ['(', '[', '\x7b', '=', ']'] ∧ pair.1 ≠ ']' := by decide
    obtain ⟨listed, other⟩ := brackets pair member
    exact ⟨opening, _, pair.1, rfl, opens, listed, iff_of_false other nofun⟩
  · exact ⟨t, _, '=', rfl, equals, by simp, iff_of_false (by decide) nofun⟩

namespace Attribute

/-- Where `#[` is not, nothing of an attribute is found. -/
theorem dropAttributeOpening?_eq_none {c : Char} {r : Text} (absent : contains "#[".toList (c :: r) = false) :
    dropAttributeOpening? (c :: r) = none ∧ contains "#[".toList r = false := by
  rw [contains, Bool.or_eq_false_iff, startsWith, Option.isSome_eq_false_iff, Option.isNone_iff_eq_none]
    at absent
  rw [dropAttributeOpening?, absent.1]
  exact ⟨rfl, absent.2⟩

theorem holdsTestAttribute_eq_false {t : Text} (absent : contains "#[".toList t = false) :
    holdsTestAttribute t = false := by
  induction t with
  | nil => rfl
  | cons c r ih =>
    obtain ⟨none, later⟩ := dropAttributeOpening?_eq_none absent
    rw [holdsTestAttribute, none, ih later]
    rfl

theorem holdsConfiguredTest_eq_false {t : Text} (absent : contains "#[".toList t = false) :
    holdsConfiguredTest t = false := by
  induction t with
  | nil => rfl
  | cons c r ih =>
    obtain ⟨none, later⟩ := dropAttributeOpening?_eq_none absent
    rw [holdsConfiguredTest, none, ih later]
    rfl

/-- The text goes on as a `cfg(test)` attribute does behind its opening bracket. -/
def Configured (t : Text) : Prop :=
  ∃ u v w x, t = "cfg".toList ++ u ∧ trimStart u = '(' :: v ∧ trimStart v = "test".toList ++ w ∧
    trimStart w = ')' :: x ∧ closesAttribute x = true

theorem holdsConfiguredTest_cons {c : Char} {r t : Text}
    (opening : dropAttributeOpening? (c :: r) = some t) (further : contains "#[".toList r = false) :
    holdsConfiguredTest (c :: r) = true ↔ Configured t := by
  rw [holdsConfiguredTest, holdsConfiguredTest_eq_false further, Bool.or_false, opening]
  simp only [Option.bind_eq_bind, Option.bind_some, Option.any_eq_true, Option.bind_eq_some_iff,
    dropPrefix?_eq_some, Configured, List.cons_append, List.nil_append]
  constructor
  · rintro ⟨x, ⟨u, cfg, v, opens, w, test, closes⟩, ends⟩
    exact ⟨u, v, w, x, cfg, opens, test, closes, ends⟩
  · rintro ⟨u, v, w, x, cfg, opens, test, closes, ends⟩
    exact ⟨x, ⟨u, cfg, v, opens, w, test, closes⟩, ends⟩

end Attribute

/-! What is found at the first place of an attribute's text. -/

theorem startsTestPath_other {n : Nat} {t : Text} (other : ∀ c ∈ t.head?, isWord c = false) :
    startsTestPath n t = false := by
  cases n with
  | zero => rfl
  | succ n =>
    have none : t.takeWhile isWord = [] :=
      takeWhile_run (nofun : ∀ c ∈ ([] : Text), isWord c = true) other
    rw [startsTestPath, none]
    split <;> rfl

/-- A path that ends in `test` is found behind a word where it is that word, or goes on behind colons. -/
theorem startsTestPath_word {t : Token} {ts : List Token} {n : Nat} {behind : Text}
    (lexical : Lexical (t :: ts)) (word : t.IsWord) (stop : ∀ c ∈ behind.head?, isWord c = false)
    (found : startsTestPath n (t.text ++ behind) = true) :
    t.text = "test".toList ∧ closesAttribute behind = true ∨
      ∃ m rest, behind = ':' :: ':' :: rest ∧ startsTestPath m rest = true := by
  cases n with
  | zero => cases found
  | succ n =>
    have inside : ∀ c ∈ t.text.takeWhile isWord, isWord c = true := fun c =>
      List.all_eq_true.mp List.all_takeWhile c
    have split := List.takeWhile_append_dropWhile (p := isWord) (l := t.text)
    cases left : t.text.dropWhile isWord with
    | nil =>
      have whole : ∀ c ∈ t.text, isWord c = true := List.dropWhile_eq_nil_iff.mp left
      rw [startsTestPath, takeWhile_run whole stop, dropWhile_run whole stop] at found
      split at found
      · rename_i rest
        rw [Bool.and_eq_true] at found
        exact Or.inr ⟨n, rest, rfl, found.2⟩
      · rw [Bool.and_eq_true, beq_iff_eq] at found
        exact Or.inl found
    | cons c r =>
      -- the class of words ends inside the word
      have other : isWord c = false := by
        have head := List.head?_dropWhile_not isWord t.text
        rw [left] at head
        simpa using head
      rw [left] at split
      have member : c ∈ t.text := split ▸ List.mem_append_right _ List.mem_cons_self
      obtain ⟨solid, unsigned⟩ := lexical.solid_word word c member
      simp only [List.mem_cons, List.not_mem_nil, or_false, not_or] at unsigned
      obtain ⟨colon, -, -, bracket⟩ := unsigned
      have here : ∀ d ∈ (c :: r ++ behind).head?, isWord d = false := by
        rintro d same
        rwa [← Option.some.inj same]
      have open' : closesAttribute (c :: r ++ behind) = false := by
        rw [closesAttribute, trimStart, List.cons_append, List.dropWhile_cons_of_neg (by simp [solid])]
        simpa using bracket
      rw [← split, List.append_assoc, startsTestPath, takeWhile_run inside here, dropWhile_run inside here,
        open', Bool.and_false] at found
      split at found
      · rename_i rest same
        exact absurd (List.cons.inj same).1 colon
      · cases found

/-- Before a sign the word is `test` and the sign closes the attribute, or the path goes on behind colons. -/
theorem startsTestPath_before_sign {t u : Token} {us : List Token} {c : Char} {n : Nat}
    (lexical : Lexical (t :: u :: us)) (word : t.IsWord) (sign : u.IsSign c) (plain : isWord c = false)
    (found : startsTestPath n (textOfTokens (t :: u :: us)) = true) :
    t.text = "test".toList ∧ c = ']' ∨
      ∃ m rest, written (u :: us) = ':' :: ':' :: rest ∧ startsTestPath m rest = true := by
  have stop : ∀ d ∈ (written (u :: us)).head?, isWord d = false := by
    refine lexical.tail.stops (fun b => isWord_of_isBlank) (by decide) fun _ d head => ?_
    rw [sign.2] at head
    rwa [← Option.some.inj head]
  rcases startsTestPath_word lexical word stop found with ⟨text, ends⟩ | further
  · have head : (trimStart (written (u :: us))).head? = some ']' := beq_iff_eq.mp ends
    exact Or.inl ⟨text, (lexical.tail.eq_of_trimStart_sign sign rfl head (by decide)).1⟩
  · exact Or.inr further

/-- What is found behind two colons is found at the token behind them, without a gap in between. -/
theorem startsTestPath_of_colons {c d u : Token} {us : List Token} {n : Nat} {rest : Text}
    (lexical : Lexical (c :: d :: u :: us)) (first : c.IsSign ':') (second : d.IsSign ':')
    (behind : written (c :: d :: u :: us) = ':' :: ':' :: rest) (found : startsTestPath n rest = true) :
    startsTestPath n (textOfTokens (u :: us)) = true := by
  obtain ⟨-, behind⟩ := lexical.eq_of_sign first behind rfl (by decide)
  obtain ⟨-, rfl⟩ := lexical.tail.eq_of_sign second behind rfl (by decide)
  have slash : isWord '/' = false := by decide
  have none : u.gap = [] := by
    by_contra gap
    have other := lexical.tail.tail.stops (fun b => isWord_of_isBlank) slash fun none => absurd none gap
    rw [startsTestPath_other other] at found
    cases found
  rwa [written_cons, none] at found

/-- A path and what is behind it are found to end in `test` where they do. -/
theorem eq_test_of_startsTestPath {path tail : List Token} {closing : Token} {n : Nat}
    (isPath : PathTokens path) (follows : PathTail tail) (closes : closing.IsSign ']')
    (lexical : Lexical (path ++ tail ++ [closing]))
    (found : startsTestPath n (textOfTokens (path ++ tail ++ [closing])) = true) :
    tail = [] ∧ path.getLast?.map Token.text = some "test".toList := by
  induction isPath generalizing n with
  | @word t word =>
    obtain ⟨u, us, c, shape, sign, listed, last⟩ := follows.first closes
    have whole : [t] ++ tail ++ [closing] = t :: u :: us := by rw [← shape]; simp
    rw [whole] at lexical found
    have marks : ∀ d ∈ ['(', '[', '\x7b', '=', ']'], isWord d = false ∧ d ≠ ':' := by decide
    obtain ⟨plain, colon⟩ := marks c listed
    rcases startsTestPath_before_sign lexical word sign plain found with ⟨text, closed⟩ | ⟨m, rest, colons, -⟩
    · refine ⟨last.mp closed, ?_⟩
      rw [List.getLast?_singleton, Option.map_some, text]
    · exact absurd (lexical.tail.eq_of_sign sign colons rfl (by decide)).1 colon
  | @step t c d rest word first second isPath ih =>
    obtain ⟨u, us, shape⟩ : ∃ u us, rest ++ tail ++ [closing] = u :: us :=
      List.exists_cons_of_ne_nil (by simp)
    have whole : t :: c :: d :: rest ++ tail ++ [closing] = t :: c :: d :: u :: us := by simp [← shape]
    rw [whole] at lexical found
    rcases startsTestPath_before_sign lexical word first (by decide) found with ⟨-, closed⟩ |
      ⟨m, r, behind, found⟩
    · cases closed
    · rw [shape] at ih
      have inner := startsTestPath_of_colons lexical.tail first second behind found
      obtain ⟨ended, last⟩ := ih lexical.tail.tail.tail inner
      refine ⟨ended, ?_⟩
      obtain ⟨v, vs, rfl⟩ := List.exists_cons_of_ne_nil isPath.ne_nil
      exact last

/-- Behind an opening bracket a path that ends in `test` is found where it and nothing else stands. -/
theorem eq_test_behind_opening {lead path tail : List Token} {closing : Token} {n : Nat}
    (led : lead = [] ∨ DoubleColon lead) (isPath : PathTokens path) (follows : PathTail tail)
    (closes : closing.IsSign ']') (lexical : Lexical (lead ++ path ++ tail ++ [closing]))
    (found : startsTestPath n (trimStart (written (lead ++ path ++ tail ++ [closing]))) = true) :
    lead = [] ∧ tail = [] ∧ path.getLast?.map Token.text = some "test".toList := by
  have stop : isWord '/' = false ∧ isWord ':' = false := by decide
  have text : trimStart (written (lead ++ path ++ tail ++ [closing])) =
      textOfTokens (lead ++ path ++ tail ++ [closing]) := by
    obtain ⟨t, ts, shape⟩ : ∃ t ts, lead ++ path ++ tail ++ [closing] = t :: ts :=
      List.exists_cons_of_ne_nil (by simp)
    rw [shape] at lexical found ⊢
    rcases lexical.trimStart_written with comment | whole
    · have other : ∀ c ∈ (trimStart (written (t :: ts))).head?, isWord c = false := by
        rw [comment]
        rintro c ⟨⟩
        exact stop.1
      rw [startsTestPath_other other] at found
      cases found
    · exact whole
  rw [text] at found
  rcases led with rfl | ⟨c, d, rfl, colon, -⟩
  · exact ⟨rfl, eq_test_of_startsTestPath isPath follows closes lexical found⟩
  · have other : ∀ e ∈ (textOfTokens ([c, d] ++ path ++ tail ++ [closing])).head?, isWord e = false := by
      rw [List.cons_append, List.cons_append, List.cons_append, textOfTokens, colon.2]
      rintro e ⟨⟩
      exact stop.2
    rw [startsTestPath_other other] at found
    cases found

/-- Behind an opening parenthesis, `test` and a closing one are read only off these two tokens. -/
theorem eq_test_of_parenthesis {inside rest : List Token} {closing : Token} {w x : Text}
    (lexical : Lexical (inside ++ closing :: rest)) (balanced : TokenTrees inside)
    (closes : closing.IsSign ')') (test : trimStart (written (inside ++ closing :: rest)) = "test".toList ++ w)
    (ends : trimStart w = ')' :: x) : ∃ t, inside = [t] ∧ t.text = "test".toList := by
  cases inside with
  | nil => cases (lexical.eq_of_trimStart_sign closes test rfl (by decide)).1
  | cons t more =>
    obtain ⟨u, us, shape⟩ : ∃ u us, more ++ closing :: rest = u :: us :=
      List.exists_cons_of_ne_nil (by simp)
    rw [List.cons_append, shape] at lexical test
    obtain ⟨same, head⟩ := lexical.eq_of_trimStart test rfl (by decide)
    obtain ⟨word, -, next⟩ := lexical.letter head
    have later := lexical.tail
    have stop := later.stops (fun b => isIdentifierContinue_of_isBlank) (by decide) next
    obtain ⟨text, behind⟩ := lexical.eq_name word same (by decide) stop ends (by decide)
    rw [← behind] at ends
    have closed : u.IsSign ')' := later.closing (later.eq_of_trimStart ends rfl (by decide)).2
    cases more with
    | nil => exact ⟨t, rfl, text⟩
    | cons m ms =>
      obtain rfl : m = u := (List.cons.inj shape).1
      exact absurd closed (balanced.behind_word word).not_closing

/-- Before a sign, `cfg` and an opening parenthesis are read only off the word and the sign. -/
theorem Lexical.eq_cfg {t o : Token} {rest : List Token} {c : Char} {u v : Text}
    (lexical : Lexical (t :: o :: rest)) (word : t.IsWord) (sign : o.IsSign c)
    (plain : isIdentifierContinue c = false) (cfg : trimStart (written (t :: o :: rest)) = "cfg".toList ++ u)
    (opens : trimStart u = '(' :: v) : t.text = "cfg".toList ∧ c = '(' ∧ written rest = v := by
  have stop := lexical.tail.stops (fun b => isIdentifierContinue_of_isBlank) (by decide) fun _ e head => by
    rw [sign.2] at head
    rwa [← Option.some.inj head]
  have same := (lexical.eq_of_trimStart cfg rfl (by decide)).1
  obtain ⟨name, rfl⟩ := lexical.eq_name word same (by decide) stop opens (by decide)
  obtain ⟨round, behind⟩ := lexical.tail.eq_of_trimStart_sign sign opens rfl (by decide)
  exact ⟨name, round, (List.cons.inj behind).2⟩

/-- What reads as `cfg(test)` is made of these four tokens. -/
theorem eq_of_configured {lead path tail : List Token} {closing : Token}
    (led : lead = [] ∨ DoubleColon lead) (isPath : PathTokens path) (follows : PathTail tail)
    (closes : closing.IsSign ']') (lexical : Lexical (lead ++ path ++ tail ++ [closing]))
    (configured : Attribute.Configured (trimStart (written (lead ++ path ++ tail ++ [closing])))) :
    (lead ++ path ++ tail).map Token.text = ["cfg", "(", "test", ")"].map String.toList := by
  obtain ⟨u, v, w, x, cfg, opens, test, ends, -⟩ := configured
  rcases led with rfl | ⟨c, d, rfl, colon, -⟩
  · cases isPath with
    | @step t c d rest word first second isPath =>
      have whole : [] ++ (t :: c :: d :: rest) ++ tail ++ [closing] =
          t :: c :: (d :: rest ++ tail ++ [closing]) := by simp
      rw [whole] at lexical cfg
      cases (lexical.eq_cfg word first (by decide) cfg opens).2.1
    | @word t word =>
      obtain ⟨o, rest, c, shape, sign, listed, last⟩ := follows.first closes
      have whole : [] ++ [t] ++ tail ++ [closing] = t :: o :: rest := by rw [← shape]; simp
      rw [whole] at lexical cfg
      have marks : ∀ d ∈ ['(', '[', '\x7b', '=', ']'], isIdentifierContinue d = false := by decide
      obtain ⟨name, rfl, behind⟩ := lexical.eq_cfg word sign (marks c listed) cfg opens
      rcases follows with rfl | ⟨opening, inner, closer, rfl, ⟨pair, member, one, other⟩, balanced⟩ |
        ⟨e, more, rfl, equals⟩
      · cases last.mpr rfl
      · have group : opening :: (inner ++ [closer]) ++ [closing] =
            opening :: (inner ++ closer :: [closing]) := by simp
        rw [group] at shape
        obtain ⟨rfl, rfl⟩ := List.cons.inj shape
        have round : pair.1 = '(' := (List.cons.inj (one.2.symm.trans sign.2)).1
        have partner : ∀ pair ∈ [('(', ')'), ('[', ']'), ('\x7b', '\x7d')], pair.1 = '(' → pair.2 = ')' := by
          decide
        have closed : closer.IsSign ')' := partner pair member round ▸ other
        rw [← behind] at test
        obtain ⟨only, rfl, text⟩ := eq_test_of_parenthesis lexical.tail.tail balanced closed test ends
        simp [name, sign.2, text, closed.2]
      · obtain ⟨rfl, -⟩ := List.cons.inj shape
        cases equals.2.symm.trans sign.2
  · cases (lexical.eq_of_trimStart_sign colon cfg rfl (by decide)).1

namespace Attribute

variable {children : List Tree}

/-- What is found at the first place of an attribute's text stands behind its opening bracket. -/
theorem exists_of_opening {a : Tree} {t : Text} (tokens : AttributeTokens a.tokens) (lexical : Lexical a.tokens)
    (opening : dropAttributeOpening? a.text = some t) :
    ∃ lead named tail closing, body a = lead ++ named ++ tail ∧ (lead = [] ∨ DoubleColon lead) ∧
      PathTokens named ∧ PathTail tail ∧ closing.IsSign ']' ∧
      Lexical (lead ++ named ++ tail ++ [closing]) ∧
      t = trimStart (written (lead ++ named ++ tail ++ [closing])) := by
  obtain ⟨hash, bracket, _, tail, closing, whole, first, second, ⟨lead, named, rfl, led, isPath⟩, follows,
    closes⟩ := tokens
  have inside : body a = lead ++ named ++ tail := by
    rw [body, whole, List.drop_succ_cons, List.drop_succ_cons, List.drop_zero, List.dropLast_concat]
  have text : a.text = '#' :: written (bracket :: (lead ++ named ++ tail ++ [closing])) := by
    rw [Tree.text, whole, textOfTokens, first.2]
    rfl
  rw [whole] at lexical
  rw [dropAttributeOpening?, Option.map_eq_some_iff] at opening
  obtain ⟨r, cut, rfl⟩ := opening
  rw [dropPrefix?_eq_some, text] at cut
  obtain ⟨-, rfl⟩ := lexical.tail.eq_of_sign second (List.cons.inj cut).2 rfl (by decide)
  exact ⟨lead, named, tail, closing, inside, led, isPath, follows, closes, lexical.tail.tail, rfl⟩

/-- An attribute whose text holds a test attribute is one, or another `#[` stands in its text. -/
theorem isTest_or_contains (grown : (Tree.node .attribute children).Grown)
    (holds : holdsTestAttribute (Tree.node .attribute children).text = true) :
    IsTest (.node .attribute children) ∨
      contains "#[".toList (Tree.node .attribute children).text.tail = true := by
  have tokens : AttributeTokens (Tree.node .attribute children).tokens := grown.content
  have read := fun t => exists_of_opening (t := t) tokens grown.lexical
  generalize (Tree.node .attribute children).text = text at holds read
  cases text with
  | nil => cases holds
  | cons c r =>
    rw [holdsTestAttribute, Bool.or_eq_true, Option.any_eq_true] at holds
    rcases holds with ⟨t, opening, found⟩ | later
    · obtain ⟨lead, named, tail, closing, inside, led, isPath, follows, closes, lexical, rfl⟩ :=
        read t opening
      obtain ⟨rfl, rfl, last⟩ := eq_test_behind_opening led isPath follows closes lexical found
      rw [List.nil_append, List.append_nil] at inside
      have ends (u : Token) (isNext : u ∈ ([] : List Token).head?) :
          (u.kind == .word || u.text == [':']) = false := by cases isNext
      have whole := takeWhile_run isPath.named ends
      rw [List.append_nil, ← inside] at whole
      rw [← inside] at last
      exact Or.inl ⟨whole, by rw [path, whole, last]⟩
    · refine Or.inr ((Bool.not_eq_false _).mp fun absent => ?_)
      rw [List.tail_cons] at absent
      rw [holdsTestAttribute_eq_false absent] at later
      cases later

/-- An attribute whose text holds `cfg(test)` is that, or another `#[` stands in its text. -/
theorem isConfiguredTest_or_contains (grown : (Tree.node .attribute children).Grown)
    (holds : holdsConfiguredTest (Tree.node .attribute children).text = true) :
    IsConfiguredTest (.node .attribute children) ∨
      contains "#[".toList (Tree.node .attribute children).text.tail = true := by
  have tokens : AttributeTokens (Tree.node .attribute children).tokens := grown.content
  have read := fun t => exists_of_opening (t := t) tokens grown.lexical
  generalize (Tree.node .attribute children).text = text at holds read
  cases further : contains "#[".toList text.tail with
  | true => exact Or.inr rfl
  | false =>
    cases text with
    | nil => cases holds
    | cons c r =>
      rw [List.tail_cons] at further
      cases opening : dropAttributeOpening? (c :: r) with
      | none =>
        rw [holdsConfiguredTest, opening, holdsConfiguredTest_eq_false further] at holds
        cases holds
      | some t =>
        obtain ⟨lead, named, tail, closing, inside, led, isPath, follows, closes, lexical, rfl⟩ :=
          read t opening
        refine Or.inl ?_
        rw [IsConfiguredTest, inside]
        exact eq_of_configured led isPath follows closes lexical
          ((holdsConfiguredTest_cons opening further).mp holds)

end Attribute

end TestSkeleton.Rust
