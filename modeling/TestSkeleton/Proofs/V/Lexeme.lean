import TestSkeleton.Proofs.V.Inert

/-! The lexemes of a V source, and what blanking makes of them.

Every source is a sequence of lexemes, each of which is over where the next one begins, and an end that may be
open: a comment or a literal that the source does not close. Blanking goes over it lexeme by lexeme. -/

namespace TestSkeleton.V

open Text

/-- Whether a text can stand between the quotes of a literal: a backslash takes the next character with it, and
none of the others is the quote. -/
def isBody (quote : Char) : Text → Bool
  | [] => true
  | '\\' :: _ :: r => isBody quote r
  | c :: r => c != quote && c != '\\' && isBody quote r

/-- A part of a source that is over where it ends. -/
inductive Lexeme where
  | code (t : Text) (quiet : isQuiet t = true)
  | lineComment (t : Text) (flat : '\n' ∉ t)
  | blockComment (t : Text) (unclosed : contains "*/".toList t = false)
  | literal (quote : Char) (body : Text) (opens : isQuote quote = true) (whole : isBody quote body = true)

namespace Lexeme

def text : Lexeme → Text
  | code t _ => t
  | lineComment t _ => '/' :: '/' :: t
  | blockComment t _ => '/' :: '*' :: (t ++ ['*', '/'])
  | literal quote body _ _ => quote :: (body ++ [quote])

/-- For each character whether it belongs to a comment or to the body of a literal. -/
def inside : Lexeme → List Bool
  | code t _ => t.map fun _ => false
  | lineComment t flat => (lineComment t flat).text.map fun _ => true
  | blockComment t unclosed => (blockComment t unclosed).text.map fun _ => true
  | literal _ body _ _ => false :: (body.map fun _ => true) ++ [false]

def blanked : Lexeme → Text
  | code t _ => t
  | lineComment t flat => (lineComment t flat).text.map blankChar
  | blockComment t unclosed => (blockComment t unclosed).text.map blankChar
  | literal quote body _ _ => quote :: (body.map blankChar ++ [quote])

/-- Whether the lexeme is over where what stands behind it begins. A slash at the end of code begins no comment,
and a comment of a line goes to the end of the line. -/
def StopsBefore : Lexeme → Text → Prop
  | code t _, behind => t.getLast? = some '/' → ∀ c ∈ behind.head?, c ≠ '/' ∧ c ≠ '*'
  | lineComment _ _, behind => ∀ c ∈ behind.head?, c = '\n'
  | blockComment _ _, _ => True
  | literal _ _ _ _, _ => True

end Lexeme

/-- How a source ends: with its last lexeme, in a comment, or in a literal, possibly behind a backslash. -/
inductive Ending where
  | whole
  | blockComment (t : Text) (unclosed : contains "*/".toList t = false)
  | literal (quote : Char) (body : Text) (opens : isQuote quote = true) (whole : isBody quote body = true)
  | escape (quote : Char) (body : Text) (opens : isQuote quote = true) (whole : isBody quote body = true)

namespace Ending

def text : Ending → Text
  | whole => []
  | blockComment t _ => '/' :: '*' :: t
  | literal quote body _ _ => quote :: body
  | escape quote body _ _ => quote :: (body ++ ['\\'])

def blanked : Ending → Text
  | whole => []
  | blockComment t _ => ' ' :: ' ' :: t.map blankChar
  | literal quote body _ _ => quote :: if body = [] then [] else body.dropLast.map blankChar ++ [quote]
  | escape quote body _ _ => quote :: (body.map blankChar ++ [quote])

end Ending

def sourceOf (ls : List Lexeme) : Text := ls.flatMap Lexeme.text

/-- Each lexeme is over where the next one begins, and the last where the end begins. -/
def Joined : List Lexeme → Text → Prop
  | [], _ => True
  | l :: ls, ending => l.StopsBefore (sourceOf ls ++ ending) ∧ Joined ls ending

section Region

/-! Blanking from within a comment or a literal. -/

variable {t behind : Text}

theorem blankFrom_lineComment (flat : '\n' ∉ t) (stops : ∀ c ∈ behind.head?, c = '\n') :
    blankFrom .lineComment (t ++ behind) = t.map blankChar ++ blank behind := by
  induction t with
  | nil =>
    cases behind with
    | nil => rfl
    | cons c r =>
      obtain rfl : c = '\n' := stops c rfl
      rfl
  | cons c r ih =>
    obtain ⟨other, rest⟩ := List.ne_and_not_mem_of_not_mem_cons flat
    simp [blankFrom, Ne.symm other, ih rest]

theorem blankFrom_blockComment (unclosed : contains "*/".toList t = false)
    (stops : ∀ c ∈ behind.head?, c ≠ '/') :
    blankFrom .blockComment (t ++ behind) = t.map blankChar ++ blankFrom .blockComment behind := by
  induction t with
  | nil => rfl
  | cons c r ih =>
    rw [contains, Bool.or_eq_false_iff] at unclosed
    obtain ⟨here, rest⟩ := unclosed
    have apart : ∀ r', c = '*' → r ++ behind = '/' :: r' → False := by
      intro r' star next
      subst star
      cases r with
      | nil =>
        apply stops '/' _ rfl
        rw [List.nil_append] at next
        rw [next]
        rfl
      | cons d r =>
        obtain ⟨rfl, -⟩ := List.cons.inj next
        simp [startsWith, dropPrefix?] at here
    rw [List.cons_append, blankFrom, ih rest, List.map_cons, List.cons_append]
    exact apart

variable {quote : Char}

theorem blank_nil : blank [] = [] := rfl

theorem blank_quote (opens : isQuote quote = true) (t : Text) :
    blank (quote :: t) = quote :: blankFrom (.literal quote) t := by
  have other : quote ≠ '/' := by
    rintro rfl
    cases opens
  rw [blank, blankFrom, if_pos opens]
  · exact fun r slash _ => other slash
  · exact fun r slash _ => other slash

theorem blankFrom_plain {c : Char} (other : c ≠ quote) (unescaped : c ≠ '\\') (more : t ≠ []) :
    blankFrom (.literal quote) (c :: t) = blankChar c :: blankFrom (.literal quote) t := by
  rw [blankFrom, if_neg (by simpa using other), if_neg (by simpa using unescaped)]
  exact more

theorem blankFrom_backslash (opens : isQuote quote = true) (more : t ≠ []) :
    blankFrom (.literal quote) ('\\' :: t) = ' ' :: blankFrom (.escape quote) t := by
  have other : ('\\' == quote) = false := by
    rw [beq_eq_false_iff_ne]
    rintro rfl
    cases opens
  rw [blankFrom, other, if_neg (by simp), if_pos (by rfl)]
  · rfl
  · exact more

theorem blankFrom_pair (opens : isQuote quote = true) (c : Char) (more : t ≠ []) :
    blankFrom (.literal quote) ('\\' :: c :: t) = ' ' :: blankChar c :: blankFrom (.literal quote) t := by
  rw [blankFrom_backslash opens (by simp), blankFrom]
  exact more

/-- A literal that goes on is blanked up to where it goes on. -/
theorem blankFrom_body (opens : isQuote quote = true) (whole : isBody quote t = true) (more : behind ≠ []) :
    blankFrom (.literal quote) (t ++ behind) = t.map blankChar ++ blankFrom (.literal quote) behind := by
  induction t using isBody.induct with
  | case1 => rfl
  | case2 c r ih =>
    rw [isBody] at whole
    rw [List.cons_append, List.cons_append, blankFrom_pair opens c (by simp [more]), ih whole]
    rfl
  | case3 c r single ih =>
    rw [isBody] at whole
    · simp only [Bool.and_eq_true, bne_iff_ne] at whole
      obtain ⟨⟨other, unescaped⟩, rest⟩ := whole
      rw [List.cons_append, blankFrom_plain other unescaped (by simp [more]), ih rest]
      rfl
    · exact single

theorem blankFrom_closed (opens : isQuote quote = true) (whole : isBody quote t = true) :
    blankFrom (.literal quote) (t ++ quote :: behind) = t.map blankChar ++ quote :: blank behind := by
  rw [blankFrom_body opens whole (by simp)]
  congr 1
  cases behind with
  | nil => rw [blankFrom, blank, blankFrom]
  | cons c r => simp [blankFrom, blank]

theorem blank_literal (opens : isQuote quote = true) (whole : isBody quote t = true) (behind : Text) :
    blank (quote :: (t ++ [quote]) ++ behind) = quote :: (t.map blankChar ++ [quote]) ++ blank behind := by
  calc blank (quote :: (t ++ [quote]) ++ behind)
      = quote :: blankFrom (.literal quote) (t ++ quote :: behind) := by
        rw [List.cons_append, blank_quote opens, List.append_assoc, List.singleton_append]
    _ = quote :: (t.map blankChar ++ quote :: blank behind) := by rw [blankFrom_closed opens whole]
    _ = quote :: (t.map blankChar ++ [quote]) ++ blank behind := by simp

/-- A literal that the source does not close is closed in place of the last character. -/
theorem blankFrom_open (opens : isQuote quote = true) (whole : isBody quote t = true) (filled : t ≠ []) :
    blankFrom (.literal quote) t = t.dropLast.map blankChar ++ [quote] := by
  induction t using isBody.induct with
  | case1 => exact absurd rfl filled
  | case2 c r ih =>
    rw [isBody] at whole
    cases r with
    | nil =>
      rw [blankFrom_backslash opens (by simp), blankFrom]
      rfl
    | cons d r =>
      rw [blankFrom_pair opens c (by simp), ih whole (by simp)]
      rfl
  | case3 c r single ih =>
    rw [isBody] at whole
    · simp only [Bool.and_eq_true, bne_iff_ne] at whole
      obtain ⟨⟨other, unescaped⟩, rest⟩ := whole
      cases r with
      | nil =>
        rw [blankFrom]
        rfl
      | cons d r =>
        rw [blankFrom_plain other unescaped (by simp), ih rest (by simp)]
        rfl
    · exact single

end Region

/-- Blanking goes over a lexeme that stops and starts anew behind it. -/
theorem blank_lexeme (l : Lexeme) {behind : Text} (stops : l.StopsBefore behind) :
    blank (l.text ++ behind) = l.blanked ++ blank behind := by
  cases l with
  | code t quiet => exact blank_code quiet stops
  | lineComment t flat =>
    have comment := blankFrom_lineComment flat stops
    simpa [Lexeme.text, Lexeme.blanked, blank, blankFrom, blankChar] using comment
  | blockComment t unclosed =>
    have comment : blankFrom .blockComment (t ++ '*' :: '/' :: behind) =
        t.map blankChar ++ blankFrom .blockComment ('*' :: '/' :: behind) :=
      blankFrom_blockComment unclosed (by simp)
    simpa [Lexeme.text, Lexeme.blanked, blank, blankFrom, blankChar] using comment
  | literal quote body opens whole => exact blank_literal opens whole behind

theorem blank_ending (e : Ending) : blank e.text = e.blanked := by
  cases e with
  | whole => rfl
  | blockComment t unclosed =>
    have comment : blankFrom .blockComment (t ++ []) = t.map blankChar ++ blankFrom .blockComment [] :=
      blankFrom_blockComment unclosed (by simp)
    simpa [Ending.text, Ending.blanked, blank, blankFrom] using comment
  | literal quote body opens whole =>
    rw [Ending.text, Ending.blanked, blank_quote opens]
    split
    · rename_i empty
      rw [empty, blankFrom]
    · rename_i filled
      rw [blankFrom_open opens whole filled]
  | escape quote body opens whole =>
    have cut : blankFrom (.literal quote) (body ++ ['\\']) =
        body.map blankChar ++ blankFrom (.literal quote) ['\\'] := blankFrom_body opens whole (by simp)
    simpa [Ending.text, Ending.blanked, blank_quote opens, blankFrom] using cut

theorem blank_sourceOf {ls : List Lexeme} {e : Ending} (joined : Joined ls e.text) :
    blank (sourceOf ls ++ e.text) = ls.flatMap Lexeme.blanked ++ e.blanked := by
  induction ls with
  | nil => exact blank_ending e
  | cons l ls ih =>
    obtain ⟨stops, rest⟩ := joined
    calc blank (sourceOf (l :: ls) ++ e.text)
        = blank (l.text ++ (sourceOf ls ++ e.text)) := by
          rw [sourceOf, List.flatMap_cons, List.append_assoc, sourceOf]
      _ = l.blanked ++ blank (sourceOf ls ++ e.text) := blank_lexeme l stops
      _ = (l :: ls).flatMap Lexeme.blanked ++ e.blanked := by
          rw [ih rest, List.flatMap_cons, List.append_assoc]

theorem isBody_cons {quote c : Char} (other : c ≠ quote) (unescaped : c ≠ '\\') (t : Text) :
    isBody quote (c :: t) = isBody quote t := by
  rw [isBody]
  · simp [other, unescaped]
  · exact fun _ _ backslash _ => unescaped backslash

/-- A text behind a quote begins with a body that is closed, or is one that is not, possibly cut behind a
backslash. -/
theorem exists_body (quote : Char) (t : Text) :
    (∃ body behind, t = body ++ quote :: behind ∧ isBody quote body = true) ∨
      isBody quote t = true ∨ ∃ body, t = body ++ ['\\'] ∧ isBody quote body = true := by
  induction t using isBody.induct with
  | case1 => exact .inr (.inl rfl)
  | case2 c r ih =>
    rcases ih with ⟨body, behind, rfl, whole⟩ | whole | ⟨body, rfl, whole⟩
    · exact .inl ⟨'\\' :: c :: body, behind, rfl, whole⟩
    · exact .inr (.inl whole)
    · exact .inr (.inr ⟨'\\' :: c :: body, rfl, whole⟩)
  | case3 c r single ih =>
    by_cases closes : c = quote
    · exact .inl ⟨[], r, by rw [closes]; rfl, rfl⟩
    by_cases backslash : c = '\\'
    · subst backslash
      cases r with
      | nil => exact .inr (.inr ⟨[], rfl, rfl⟩)
      | cons d r => exact absurd rfl (single d r rfl)
    have further := isBody_cons closes backslash
    rcases ih with ⟨body, behind, rfl, whole⟩ | whole | ⟨body, rfl, whole⟩
    · exact .inl ⟨c :: body, behind, rfl, by rw [further, whole]⟩
    · exact .inr (.inl (by rw [further, whole]))
    · exact .inr (.inr ⟨c :: body, rfl, by rw [further, whole]⟩)

/-- A block comment is closed where `*/` first occurs. -/
theorem exists_blockComment (t : Text) : contains "*/".toList t = false ∨
    ∃ body behind, t = body ++ '*' :: '/' :: behind ∧ contains "*/".toList body = false := by
  induction t with
  | nil => exact .inl rfl
  | cons c r ih =>
    cases here : dropPrefix? "*/".toList (c :: r) with
    | some behind => exact .inr ⟨[], behind, by rw [dropPrefix?_eq_some.mp here]; rfl, rfl⟩
    | none =>
      rcases ih with unclosed | ⟨body, behind, rfl, unclosed⟩
      · exact .inl (by rw [contains, startsWith, here, unclosed]; rfl)
      · have front : dropPrefix? "*/".toList (c :: body) = none := by
          cases found : dropPrefix? "*/".toList (c :: body) with
          | none => rfl
          | some more =>
            have longer : c :: (body ++ '*' :: '/' :: behind) =
                "*/".toList ++ (more ++ '*' :: '/' :: behind) := by
              rw [← List.append_assoc, ← dropPrefix?_eq_some.mp found, List.cons_append]
            rw [longer, dropPrefix?_append] at here
            cases here
        exact .inr ⟨c :: body, behind, rfl, by rw [contains, startsWith, front, unclosed]; rfl⟩

/-- Whether a text begins with a lexeme, or is the end of a source. -/
def Begins (t : Text) : Prop :=
  (∃ e : Ending, t = e.text) ∨
    ∃ (l : Lexeme) (behind : Text), t = l.text ++ behind ∧ l.StopsBefore behind ∧ behind.length < t.length

theorem begins_lineComment (t : Text) : Begins ('/' :: '/' :: t) := by
  have flat : '\n' ∉ t.takeWhile (· != '\n') := fun member => by
    simpa using List.mem_takeWhile_imp member
  have stops : ∀ c ∈ (t.dropWhile (· != '\n')).head?, c = '\n' := fun c first => by
    simpa using head_dropWhile _ t c first
  have less := (List.dropWhile_suffix (l := t) (· != '\n')).length_le
  refine .inr ⟨.lineComment _ flat, t.dropWhile (· != '\n'), ?_, stops, ?_⟩
  · simp [Lexeme.text]
  · simp only [List.length_cons]
    omega

theorem begins_blockComment (t : Text) : Begins ('/' :: '*' :: t) := by
  rcases exists_blockComment t with unclosed | ⟨body, behind, rfl, unclosed⟩
  · exact .inl ⟨.blockComment t unclosed, rfl⟩
  · refine .inr ⟨.blockComment body unclosed, behind, ?_, trivial, ?_⟩
    · simp [Lexeme.text]
    · simp only [List.length_cons, List.length_append]
      omega

theorem begins_literal {quote : Char} (opens : isQuote quote = true) (t : Text) : Begins (quote :: t) := by
  rcases exists_body quote t with ⟨body, behind, rfl, whole⟩ | whole | ⟨body, rfl, whole⟩
  · refine .inr ⟨.literal quote body opens whole, behind, ?_, trivial, ?_⟩
    · simp [Lexeme.text]
    · simp only [List.length_cons, List.length_append]
      omega
  · exact .inl ⟨.literal quote t opens whole, rfl⟩
  · exact .inl ⟨.escape quote body opens whole, rfl⟩

theorem begins_code {c : Char} (unquoted : isQuote c = false) {t : Text}
    (stops : c = '/' → ∀ d ∈ t.head?, d ≠ '/' ∧ d ≠ '*') : Begins (c :: t) := by
  refine .inr ⟨.code [c] (by simp [isQuiet, unquoted]), t, rfl, ?_, by simp⟩
  intro last
  exact stops (Option.some.inj last)

theorem begins (t : Text) : Begins t := by
  cases t with
  | nil => exact .inl ⟨.whole, rfl⟩
  | cons c t =>
    cases quoted : isQuote c with
    | true => exact begins_literal quoted t
    | false =>
      by_cases line : c = '/' ∧ t.head? = some '/'
      · obtain ⟨rfl, first⟩ := line
        obtain ⟨r, rfl⟩ := List.head?_eq_some_iff.mp first
        exact begins_lineComment r
      by_cases block : c = '/' ∧ t.head? = some '*'
      · obtain ⟨rfl, first⟩ := block
        obtain ⟨r, rfl⟩ := List.head?_eq_some_iff.mp first
        exact begins_blockComment r
      apply begins_code quoted
      intro slash d first
      constructor
      · intro same
        exact line ⟨slash, same ▸ first⟩
      · intro same
        exact block ⟨slash, same ▸ first⟩

/-- Every source is made of lexemes and an end. -/
@[elab_as_elim]
theorem lexemeInduction {motive : Text → Prop} (ending : ∀ e : Ending, motive e.text)
    (lexeme : ∀ (l : Lexeme) (behind : Text), l.StopsBefore behind → motive behind →
      motive (l.text ++ behind)) (t : Text) : motive t := by
  induction length : t.length using Nat.strongRecOn generalizing t with
  | ind n ih =>
    rcases begins t with ⟨e, rfl⟩ | ⟨l, behind, rfl, stops, less⟩
    · exact ending e
    · exact lexeme l behind stops (ih behind.length (length ▸ less) behind rfl)

theorem exists_lexemes (source : Text) :
    ∃ (ls : List Lexeme) (e : Ending), source = sourceOf ls ++ e.text ∧ Joined ls e.text := by
  induction source using lexemeInduction with
  | ending e => exact ⟨[], e, rfl, trivial⟩
  | lexeme l behind stops ih =>
    obtain ⟨ls, e, rfl, joined⟩ := ih
    exact ⟨l :: ls, e, by simp [sourceOf], stops, joined⟩

section Again

/-! A blanked source is made of lexemes again, which blanking leaves as they are. -/

theorem blankChar_blankChar (c : Char) : blankChar (blankChar c) = blankChar c := by
  unfold blankChar
  split <;> simp_all

theorem map_blankChar_again (t : Text) : (t.map blankChar).map blankChar = t.map blankChar := by
  simp [blankChar_blankChar]

theorem blankChar_cases (c : Char) : blankChar c = '\n' ∨ blankChar c = ' ' := by
  unfold blankChar
  split
  · exact .inl rfl
  · exact .inr rfl

theorem isQuiet_map_blankChar (t : Text) : isQuiet (t.map blankChar) = true := by
  induction t with
  | nil => rfl
  | cons c r ih =>
    apply isQuiet_cons _ ih
    rcases blankChar_cases c with same | same <;> rw [same] <;> decide

theorem isBody_map_blankChar {quote : Char} (opens : isQuote quote = true) (t : Text) :
    isBody quote (t.map blankChar) = true := by
  induction t with
  | nil => rfl
  | cons c r ih =>
    have other : blankChar c ≠ quote := by
      intro same
      rcases blankChar_cases c with made | made <;> rw [← same, made] at opens <;> cases opens
    have unescaped : blankChar c ≠ '\\' := by
      rcases blankChar_cases c with made | made <;> rw [made] <;> decide
    rw [List.map_cons, isBody_cons other unescaped, ih]

theorem blank_map_blankChar (t behind : Text) :
    blank (t.map blankChar ++ behind) = t.map blankChar ++ blank behind := by
  apply blank_code (isQuiet_map_blankChar t)
  intro last
  rw [List.getLast?_map, Option.map_eq_some_iff] at last
  obtain ⟨c, -, slash⟩ := last
  rcases blankChar_cases c with made | made <;> rw [made] at slash <;> cases slash

theorem head_blank {t : Text} {c : Char} (first : c ∈ (blank t).head?) : c ∈ t.head? ∨ c = ' ' := by
  unfold blank at first
  unfold blankFrom at first
  split at first
  · cases first
  · exact .inr (Option.some.inj first).symm
  · exact .inr (Option.some.inj first).symm
  · exact .inl first
  all_goals contradiction

theorem blank_blanked_literal {quote : Char} (opens : isQuote quote = true) (t behind : Text) :
    blank (quote :: (t.map blankChar ++ [quote]) ++ behind) =
      quote :: (t.map blankChar ++ [quote]) ++ blank behind := by
  have closed := blank_literal opens (isBody_map_blankChar opens t) behind
  rwa [map_blankChar_again] at closed

/-- Behind a blanked lexeme, blanking starts anew. -/
theorem blank_blanked (l : Lexeme) {behind : Text} (stops : l.StopsBefore behind) :
    blank (l.blanked ++ blank behind) = l.blanked ++ blank (blank behind) := by
  cases l with
  | code t quiet =>
    apply blank_code quiet
    intro last c first
    rcases head_blank first with kept | rfl
    · exact stops last c kept
    · decide
  | lineComment t flat => exact blank_map_blankChar _ _
  | blockComment t unclosed => exact blank_map_blankChar _ _
  | literal quote body opens whole => exact blank_blanked_literal opens body (blank behind)

theorem blank_blanked_ending (e : Ending) : blank e.blanked = e.blanked := by
  cases e with
  | whole => rfl
  | blockComment t unclosed => exact blank_eq_self (isQuiet_map_blankChar ('/' :: '*' :: t))
  | literal quote body opens whole =>
    rw [Ending.blanked]
    split
    · exact blank_ending (.literal quote [] opens rfl)
    · have closed := blank_blanked_literal opens body.dropLast []
      rwa [List.append_nil, blank_nil, List.append_nil] at closed
  | escape quote body opens whole =>
    rw [Ending.blanked]
    have closed := blank_blanked_literal opens body []
    rwa [List.append_nil, blank_nil, List.append_nil] at closed

/-- Blanking a second time changes nothing. -/
theorem blank_blank (source : Text) : blank (blank source) = blank source := by
  induction source using lexemeInduction with
  | ending e => rw [blank_ending, blank_blanked_ending]
  | lexeme l behind stops ih =>
    calc blank (blank (l.text ++ behind))
        = blank (l.blanked ++ blank behind) := by rw [blank_lexeme l stops]
      _ = l.blanked ++ blank (blank behind) := blank_blanked l stops
      _ = l.blanked ++ blank behind := by rw [ih]
      _ = blank (l.text ++ behind) := (blank_lexeme l stops).symm

end Again

end TestSkeleton.V
