import TestSkeleton.Extraction.Rust.Token
import TestSkeleton.Proofs.Text.Basic
import TestSkeleton.Proofs.Text.Class

/-! What the tokens of a Rust source look like: how they begin, and that no word goes on behind its
own end. -/

namespace TestSkeleton.Rust

open Text

/-- A blank run holds blanks, at least one, and a comment begins with a slash. -/
def Trivia.Sound : Trivia → Prop
  | blank b => b ≠ [] ∧ ∀ c ∈ b, isBlank c = true
  | comment text => text.head? = some '/'

/-- The tokens are cut off a text one after the other, the first without a gap at its start. -/
def Cut : Text → List Token → Prop
  | _, [] => True
  | s, t :: ts => ∃ here rest, (t.gap = [] → here = s) ∧ (∀ trivia ∈ t.gap, trivia.Sound) ∧
      lexeme? here = some (t.kind, t.text, rest) ∧ Cut rest ts

/-- The tokens are the end of a source, or a part of it. -/
def Lexical (ts : List Token) : Prop := ∃ s, Cut s ts

theorem isBlank_of_isSourceBlank {c : Char} (blank : isSourceBlank c = true) : isBlank c = true := by
  simp only [isSourceBlank, Bool.or_eq_true, beq_iff_eq, Bool.and_eq_true, decide_eq_true_eq] at blank
  rcases blank with rfl | ⟨low, high⟩
  · decide
  · simp [isBlank, low, high]

theorem sound_of_trivia? {t rest : Text} {trivia : Trivia} (read : trivia? t = some (trivia, rest)) :
    trivia.Sound := by
  unfold trivia? at read
  split at read
  · cases read
    rfl
  · obtain ⟨pair, -, same⟩ := Option.map_eq_some_iff.mp read
    cases same
    rfl
  · split at read
    · rename_i c r _ _ blank
      cases read
      refine ⟨List.cons_ne_nil _ _, fun d member => isBlank_of_isSourceBlank ?_⟩
      rcases List.mem_cons.mp member with rfl | inside
      · exact blank
      · exact List.all_eq_true.mp List.all_takeWhile d inside
    · cases read
  · cases read

theorem cut_lexFrom (n : Nat) (s : Text) (gap : List Trivia) (t : Text)
    (here : gap = [] → t = s) (sound : ∀ trivia ∈ gap, trivia.Sound) :
    Cut s (lexFrom n gap t).tokens := by
  induction n generalizing s gap t with
  | zero => trivial
  | succ n ih =>
    rw [lexFrom]
    split
    · rename_i trivia r read
      refine ih s _ r (fun none => absurd none (by simp)) fun one member => ?_
      rcases List.mem_append.mp member with before | new
      · exact sound one before
      · rw [List.mem_singleton.mp new]
        exact sound_of_trivia? read
    · split
      · rename_i kind text r read
        exact ⟨t, r, here, sound, read, ih r [] r (fun _ => rfl) (by simp)⟩
      · trivial

theorem lexical_lex (source : Text) : Lexical (lex source).tokens :=
  ⟨source, cut_lexFrom _ source [] source (fun _ => rfl) (by simp)⟩

theorem Cut.behind {s : Text} {front back : List Token} (cut : Cut s (front ++ back)) :
    Lexical back := by
  induction front generalizing s with
  | nil => exact ⟨s, cut⟩
  | cons t front ih =>
    obtain ⟨_, _, _, _, _, later⟩ := cut
    exact ih later

theorem Cut.front {s : Text} {front back : List Token} (cut : Cut s (front ++ back)) : Cut s front := by
  induction front generalizing s with
  | nil => trivial
  | cons t front ih =>
    obtain ⟨here, rest, start, sound, read, later⟩ := cut
    exact ⟨here, rest, start, sound, read, ih later⟩

theorem Lexical.behind {front back : List Token} (lexical : Lexical (front ++ back)) : Lexical back :=
  lexical.elim fun _ cut => cut.behind

theorem Lexical.front {front back : List Token} (lexical : Lexical (front ++ back)) : Lexical front :=
  lexical.imp fun _ cut => cut.front

theorem Lexical.tail {t : Token} {ts : List Token} (lexical : Lexical (t :: ts)) : Lexical ts :=
  (show Lexical ([t] ++ ts) from lexical).behind

/-! How a token begins. -/

/-- Both texts begin with the same character. -/
def SameHead (whole part : Text) : Prop := ∃ c r rest, part = c :: r ∧ whole = c :: rest

theorem sameHead_charLiteral? {t a b : Text} (read : charLiteral? t = some (a, b)) : SameHead t a := by
  unfold charLiteral? at read
  split at read
  · split at read
    · cases read
      exact ⟨_, _, _, rfl, rfl⟩
    · cases read
  · split at read
    · cases read
    · cases read
      exact ⟨_, _, _, rfl, rfl⟩
  · cases read

theorem sameHead_quoted? {t a b : Text} (read : quoted? t = some (a, b)) : SameHead t a := by
  unfold quoted? at read
  split at read
  case h_8 => exact sameHead_charLiteral? read
  all_goals
    obtain ⟨pair, -, same⟩ := Option.map_eq_some_iff.mp read
    cases same
    exact ⟨_, _, _, rfl, rfl⟩

theorem sameHead_lifetime? {t a b : Text} (read : lifetime? t = some (a, b)) : SameHead t a := by
  unfold lifetime? at read
  split at read
  · split at read
    · cases read
      exact ⟨_, _, _, rfl, rfl⟩
    · cases read
  · cases read

theorem sameHead_word? {t a b : Text} (read : word? t = some (a, b)) : SameHead t a := by
  unfold word? at read
  split at read
  · split at read <;> cases read <;> exact ⟨_, _, _, rfl, rfl⟩
  · split at read
    · cases read
      exact ⟨_, _, _, rfl, rfl⟩
    · cases read
  · cases read

theorem sameHead_sign? {t a b : Text} (read : sign? t = some (a, b)) : SameHead t a := by
  unfold sign? at read
  split at read
  · split at read
    · cases read
      exact ⟨_, _, _, rfl, rfl⟩
    · cases read
  · cases read

theorem length_dropWhile_le (p : Char → Bool) (t : Text) : (t.dropWhile p).length ≤ t.length :=
  (List.dropWhile_sublist p).length_le

theorem length_dropNumberType_le (t : Text) : (dropNumberType t).length ≤ t.length := by
  rw [dropNumberType]
  cases found : numberTypes.findSome? _ with
  | none => exact Nat.le_refl _
  | some r =>
    obtain ⟨type, -, taken⟩ := List.exists_of_findSome?_eq_some found
    split at taken
    · rename_i rest cut
      split at taken
      · cases taken
      · cases taken
        rw [dropPrefix?_eq_some.mp cut, List.length_append]
        exact Nat.le_add_left _ _
    · cases taken

theorem length_dropExponent_le (t : Text) : (dropExponent t).length ≤ t.length := by
  unfold dropExponent
  split
  · rename_i c r
    extract_lets digits
    have shorter : digits.length ≤ r.length := by
      unfold digits
      split
      · split
        · exact Nat.le_succ _
        · exact Nat.le_refl _
      · exact Nat.zero_le _
    split
    · split
      · exact Nat.le_trans (length_dropWhile_le _ _) (Nat.le_succ_of_le shorter)
      · exact Nat.le_refl _
    · exact Nat.le_refl _
  · exact Nat.le_refl _

theorem length_dropFraction_le (t : Text) : (dropFraction t).length ≤ t.length := by
  unfold dropFraction
  split
  · split
    · exact Nat.le_refl _
    · exact Nat.le_trans (length_dropExponent_le _) (Nat.le_succ_of_le (length_dropWhile_le _ _))
  · exact Nat.zero_le _
  · exact length_dropExponent_le _

/-- A number takes at least its first digit. -/
theorem length_dropNumber_le {c : Char} (digit : c.isDigit = true) (r : Text) :
    (dropNumber (c :: r)).length ≤ r.length := by
  unfold dropNumber
  split
  case h_4 =>
    have taken : (c :: r).dropWhile isDigitOrGap = r.dropWhile isDigitOrGap :=
      List.dropWhile_cons_of_pos (by simp [isDigitOrGap, digit])
    rw [taken]
    exact Nat.le_trans (length_dropFraction_le _) (length_dropWhile_le _ _)
  all_goals
    rename_i same
    cases same
    exact Nat.le_succ_of_le (length_dropWhile_le _ _)

theorem sameHead_number? {t a b : Text} (read : number? t = some (a, b)) : SameHead t a := by
  unfold number? at read
  split at read
  · rename_i c r
    dsimp only at read
    split at read
    · rename_i digit
      cases read
      have shorter := Nat.le_trans (length_dropNumberType_le _) (length_dropNumber_le digit r)
      obtain ⟨k, same⟩ : ∃ k, (c :: r).length - (dropNumberType (dropNumber (c :: r))).length = k + 1 :=
        ⟨r.length - (dropNumberType (dropNumber (c :: r))).length, by rw [List.length_cons]; omega⟩
      exact ⟨c, r.take k, r, by rw [same, List.take_succ_cons], rfl⟩
    · cases read
  · cases read

/-- What reads the tokens of a kind. -/
def TokenKind.read? : TokenKind → Text → Option (Text × Text)
  | word => word?
  | lifetime => lifetime?
  | number => number?
  | quoted => quoted?
  | sign => sign?

theorem read?_of_lexeme? {t text rest : Text} {kind : TokenKind}
    (read : lexeme? t = some (kind, text, rest)) : kind.read? t = some (text, rest) := by
  have mapped : ∀ {k : TokenKind} {read? : Option (Text × Text)},
      read?.map (k, ·) = some (kind, text, rest) → k = kind ∧ read? = some (text, rest) := by
    intro k read? mapped
    obtain ⟨result, found, same⟩ := Option.map_eq_some_iff.mp mapped
    obtain ⟨rfl, rfl⟩ := Prod.mk.inj same
    exact ⟨rfl, found⟩
  simp only [lexeme?, Option.or_eq_some_iff] at read
  rcases read with taken | ⟨-, taken | ⟨-, taken | ⟨-, taken | ⟨-, taken⟩⟩⟩⟩ <;>
    · obtain ⟨rfl, found⟩ := mapped taken
      exact found

theorem sameHead_lexeme? {t text rest : Text} {kind : TokenKind}
    (read : lexeme? t = some (kind, text, rest)) : SameHead t text := by
  have found := read?_of_lexeme? read
  cases kind with
  | word => exact sameHead_word? found
  | lifetime => exact sameHead_lifetime? found
  | number => exact sameHead_number? found
  | quoted => exact sameHead_quoted? found
  | sign => exact sameHead_sign? found

/-! What a token's first character says about it. -/

theorem isIdentifierContinue_of_isDigit {c : Char} (digit : c.isDigit = true) :
    isIdentifierContinue c = true := by
  have low : c.toNat < 0x80 := by
    simp only [Char.isDigit, Bool.and_eq_true, decide_eq_true_eq, UInt32.le_iff_toNat_le,
      ge_iff_le] at digit
    have top : c.toNat ≤ 57 := digit.2
    omega
  rw [isIdentifierContinue, if_pos low, isAsciiIdentifierContinue, Char.isAlphanum, digit]
  simp

theorem charLiteral?_cons {c : Char} (other : c ≠ '\'') (r : Text) : charLiteral? (c :: r) = none := by
  unfold charLiteral?
  split <;> first | rfl | (rename_i same; cases same; exact absurd rfl other)

theorem quoted?_cons {c : Char} (other : c ∉ ['"', 'r', 'b', 'c', '\'']) (r : Text) :
    quoted? (c :: r) = none := by
  have quote : c ≠ '\'' := by
    rintro rfl
    exact other (by simp)
  unfold quoted?
  split
  case h_8 => exact charLiteral?_cons quote r
  all_goals
    rename_i same
    cases same
    exact absurd (by simp) other

theorem lifetime?_cons {c : Char} (other : c ≠ '\'') (r : Text) : lifetime? (c :: r) = none := by
  unfold lifetime?
  split
  · rename_i same
    cases same
    exact absurd rfl other
  · rfl

theorem isSign_of_isBlank {c : Char} (blank : isBlank c = true) : isSign c = false := by
  have solid : ∀ d ∈ "!#$%&()*+,-./:;<=>?@[]^\x7b|\x7d~".toList, isBlank d = false := by decide
  rw [isSign, List.contains_eq_mem, decide_eq_false_iff_not]
  intro member
  rw [solid c member] at blank
  cases blank

theorem lexeme?_blank {c : Char} (blank : isBlank c = true) (r : Text) : lexeme? (c :: r) = none := by
  have apart : ∀ {d : Char}, isBlank d = false → c ≠ d := by
    rintro d solid rfl
    rw [solid] at blank
    cases blank
  have quote : c ≠ '\'' := apart (by decide)
  have marks : c ∉ ['"', 'r', 'b', 'c', '\''] := by
    simp only [List.mem_cons, List.not_mem_nil, or_false, not_or]
    exact ⟨apart (by decide), apart (by decide), apart (by decide), apart (by decide), quote⟩
  have word : word? (c :: r) = none := by
    unfold word?
    split
    · rename_i same
      cases same
      exact absurd rfl (apart (by decide))
    · rename_i same
      cases same
      rw [if_neg (by rw [isIdentifierStart_of_isBlank blank]; exact Bool.false_ne_true)]
    · rfl
  have number : number? (c :: r) = none := by
    refine if_neg fun digit => ?_
    have continues := isIdentifierContinue_of_isDigit digit
    rw [isIdentifierContinue_of_isBlank blank] at continues
    cases continues
  have sign : sign? (c :: r) = none :=
    if_neg (by rw [isSign_of_isBlank blank]; exact Bool.false_ne_true)
  simp [lexeme?, quoted?_cons marks, lifetime?_cons quote, word, number, sign]

theorem lexeme?_t (r : Text) : lexeme? ('t' :: r) =
    some (.word, 't' :: r.takeWhile isIdentifierContinue, r.dropWhile isIdentifierContinue) := by
  have word : word? ('t' :: r) =
      some ('t' :: r.takeWhile isIdentifierContinue, r.dropWhile isIdentifierContinue) := rfl
  simp [lexeme?, quoted?_cons (c := 't') (by decide), lifetime?_cons (c := 't') (by decide), word]

theorem lexeme?_closing (r : Text) : lexeme? (')' :: r) = some (.sign, [')'], r) := by
  rfl

theorem not_mem_of_word? {t word rest : Text} (read : word? t = some (word, rest)) : '/' ∉ word := by
  have run : ∀ (c : Char) (r : Text), isIdentifierStart c = true →
      '/' ∉ c :: r.takeWhile isIdentifierContinue := by
    intro c r start member
    rcases List.mem_cons.mp member with rfl | inside
    · exact absurd start (by decide)
    · exact absurd (List.all_eq_true.mp List.all_takeWhile _ inside) (by decide)
  unfold word? at read
  split at read
  · split at read
    · rename_i c r start
      cases read
      have behind := run c r start
      simpa using behind
    · cases read
      decide
  · split at read
    · rename_i c r _ start
      cases read
      exact run c r start
    · cases read
  · cases read

theorem plain_of_lifetime? {t name rest : Text} (read : lifetime? t = some (name, rest)) :
    name.head? = some '\'' ∧ ' ' ∉ name := by
  unfold lifetime? at read
  split at read
  · split at read
    · rename_i c r start
      cases read
      refine ⟨rfl, fun member => ?_⟩
      rcases List.mem_cons.mp member with mark | named
      · cases mark
      rcases List.mem_cons.mp named with rfl | inside
      · exact absurd start (by decide)
      · exact absurd (List.all_eq_true.mp List.all_takeWhile _ inside) (by decide)
    · cases read
  · cases read

namespace Lexical

variable {t u : Token} {ts : List Token}

theorem sound (lexical : Lexical (t :: ts)) : ∀ trivia ∈ t.gap, trivia.Sound := by
  obtain ⟨s, here, rest, -, sound, -⟩ := lexical
  exact sound

theorem of_mem (lexical : Lexical ts) (member : t ∈ ts) : ∃ rest, Lexical (t :: rest) := by
  obtain ⟨front, rest, rfl⟩ := List.append_of_mem member
  exact ⟨rest, lexical.behind⟩

theorem solid (lexical : Lexical (t :: ts)) : ∃ c r, t.text = c :: r ∧ isBlank c = false := by
  obtain ⟨s, here, rest, -, -, read, -⟩ := lexical
  obtain ⟨c, r, behind, text, rfl⟩ := sameHead_lexeme? read
  refine ⟨c, r, text, Bool.eq_false_iff.mpr fun blank => ?_⟩
  rw [lexeme?_blank blank] at read
  cases read

theorem closing (lexical : Lexical (t :: ts)) (head : t.text.head? = some ')') :
    t.kind = .sign ∧ t.text = [')'] := by
  obtain ⟨s, here, rest, -, -, read, -⟩ := lexical
  obtain ⟨c, r, behind, text, rfl⟩ := sameHead_lexeme? read
  rw [text] at head
  cases head
  rw [lexeme?_closing, Option.some_inj, Prod.mk.injEq, Prod.mk.injEq] at read
  exact ⟨read.1.symm, read.2.1.symm⟩

/-- A word has no slash in it. -/
theorem plain (lexical : Lexical (t :: ts)) (word : t.kind = .word) : '/' ∉ t.text := by
  obtain ⟨s, here, rest, -, -, read, -⟩ := lexical
  rw [word] at read
  exact not_mem_of_word? (read?_of_lexeme? read)

/-- A lifetime begins with its mark and is one run. -/
theorem lifetime (lexical : Lexical (t :: ts)) (kind : t.kind = .lifetime) :
    t.text.head? = some '\'' ∧ ' ' ∉ t.text := by
  obtain ⟨s, here, rest, -, -, read, -⟩ := lexical
  rw [kind] at read
  exact plain_of_lifetime? (read?_of_lexeme? read)

/-- A token that begins with the letter is a word, and the next one does not go on with it. -/
theorem letter (lexical : Lexical (t :: u :: ts)) (head : t.text.head? = some 't') :
    t.kind = .word ∧ (∀ c ∈ t.text, isIdentifierContinue c = true) ∧
      (u.gap = [] → ∀ c ∈ u.text.head?, isIdentifierContinue c = false) := by
  obtain ⟨s, here, rest, -, -, read, there, behind, start, -, next, -⟩ := lexical
  obtain ⟨c, r, further, text, rfl⟩ := sameHead_lexeme? read
  rw [text] at head
  cases head
  rw [lexeme?_t, Option.some_inj, Prod.mk.injEq, Prod.mk.injEq] at read
  obtain ⟨kind, whole, rfl⟩ := read
  refine ⟨kind.symm, ?_, fun none c first => ?_⟩
  · rw [← whole]
    refine List.forall_mem_cons.mpr ⟨by decide, fun c member => ?_⟩
    exact List.all_eq_true.mp List.all_takeWhile c member
  · obtain ⟨d, v, w, shape, same⟩ := sameHead_lexeme? next
    rw [shape] at first
    cases first
    rw [start none] at same
    have stop := List.head?_dropWhile_not isIdentifierContinue further
    rw [same] at stop
    simpa using stop

end Lexical

end TestSkeleton.Rust
