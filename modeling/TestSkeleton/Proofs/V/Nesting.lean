import TestSkeleton.Extraction.V.Bracket

/-! Brackets are checked with a stack, and the check passes for the properly nested words of brackets alone.

A check that does not pass names a bracket of the text and the line it stands on. -/

namespace TestSkeleton.V

open Text

/-- The brackets that wait to be closed behind a text, innermost first, when none is closed by
another one. -/
def openAfter : List Char → Text → Option (List Char)
  | opened, [] => some opened
  | opened, c :: r =>
    match closing? c with
    | some b => openAfter (b :: opened) r
    | none =>
      if isClosing c then
        match opened with
        | b :: outer => if b = c then openAfter outer r else none
        | [] => none
      else openAfter opened r

/-- Every bracket is closed by its own, and none is closed that was not opened. -/
def Nested (t : Text) : Prop := openAfter [] t = some []

instance (t : Text) : Decidable (Nested t) := inferInstanceAs (Decidable (_ = _))

theorem openAfter_append (opened : List Char) (u v : Text) :
    openAfter opened (u ++ v) = (openAfter opened u).bind fun between => openAfter between v := by
  induction u generalizing opened with
  | nil => rfl
  | cons c r ih =>
    simp only [List.cons_append, openAfter]
    split
    · exact ih _
    · split
      · split
        · split
          · exact ih _
          · rfl
        · rfl
      · exact ih _

/-- What one character does to the brackets that wait: it opens one, it closes the innermost one, or
it is none. -/
theorem openAfter_cons {opened left : List Char} {c : Char} {r : Text}
    (through : openAfter opened (c :: r) = some left) :
    (∃ b, closing? c = some b ∧ openAfter (b :: opened) r = some left) ∨
      (∃ outer, opened = c :: outer ∧ closing? c = none ∧ isClosing c = true ∧
        openAfter outer r = some left) ∨
      closing? c = none ∧ isClosing c = false ∧ openAfter opened r = some left := by
  simp only [openAfter] at through
  cases opens : closing? c with
  | some b => exact .inl ⟨b, rfl, by simpa only [opens] using through⟩
  | none =>
    simp only [opens] at through
    cases closes : isClosing c with
    | false => exact .inr (.inr ⟨rfl, rfl, by simpa [closes] using through⟩)
    | true =>
      cases opened with
      | nil => simp [closes] at through
      | cons b outer =>
        by_cases same : b = c
        · exact .inr (.inl ⟨outer, by rw [same], rfl, rfl, by simpa [closes, same] using through⟩)
        · simp [closes, same] at through

/-- Brackets around a text do not matter to it. -/
theorem openAfter_outer {opened left : List Char} {u : Text} (through : openAfter opened u = some left)
    (outer : List Char) : openAfter (opened ++ outer) u = some (left ++ outer) := by
  induction u generalizing opened with
  | nil =>
    simp only [openAfter, Option.some.injEq] at through ⊢
    rw [through]
  | cons c r ih =>
    rcases openAfter_cons through with ⟨b, opens, later⟩ | ⟨inner, rfl, opens, closes, later⟩ |
      ⟨opens, plain, later⟩
    · simpa [openAfter, opens] using ih later
    · simpa [openAfter, opens, closes] using ih later
    · simpa [openAfter, opens, plain] using ih later

theorem isClosing_of_closing? {opening closing : Char} (pair : closing? opening = some closing) :
    closing? closing = none ∧ isClosing closing = true := by
  unfold closing? at pair
  split at pair <;> cases pair <;> decide

namespace Nested

theorem append {u v : Text} (front : Nested u) (back : Nested v) : Nested (u ++ v) := by
  rw [Nested, openAfter_append, front, Option.bind_some, back]

theorem between {u : Text} (inside : Nested u) {opening closing : Char}
    (pair : closing? opening = some closing) : Nested (opening :: (u ++ [closing])) := by
  have closes := isClosing_of_closing? pair
  have through : openAfter [closing] u = some [closing] := openAfter_outer inside [closing]
  simp only [Nested, openAfter, pair, openAfter_append, through, Option.bind_some, closes, if_true]

end Nested

/-- A nested text holds no parenthesis that closes one outside. -/
theorem cutAtClosing?_append {opened left : List Char} {u : Text}
    (through : openAfter opened u = some left) (depth : Nat) (rest : Text) :
    cutAtClosing? (opened.count ')' + depth) (u ++ rest) =
      (cutAtClosing? (left.count ')' + depth) rest).map fun (a, b) => (u ++ a, b) := by
  induction u generalizing opened with
  | nil =>
    simp only [openAfter, Option.some.injEq] at through
    subst through
    simp
  | cons c r ih =>
    simp only [List.cons_append]
    rcases openAfter_cons through with ⟨b, opens, later⟩ | ⟨outer, rfl, opens, -, later⟩ |
      ⟨opens, plain, later⟩
    -- of the brackets that wait, only round ones count for the depth
    · have cut := ih later
      by_cases round : c = '('
      · subst round
        obtain rfl : ')' = b := by simpa [closing?] using opens
        rw [List.count_cons_self, Nat.add_right_comm] at cut
        simp [cutAtClosing?, cut, Function.comp_def]
      · obtain ⟨noClosing, other⟩ : c ≠ ')' ∧ b ≠ ')' := by
          unfold closing? at opens
          split at opens <;> cases opens <;> simp_all
        rw [List.count_cons_of_ne other] at cut
        simp [cutAtClosing?, round, noClosing, cut, Function.comp_def]
    · have noOpening : c ≠ '(' := by
        rintro rfl
        cases opens
      have cut := ih later
      by_cases round : c = ')'
      · subst round
        rw [List.count_cons_self, Nat.add_right_comm]
        simp [cutAtClosing?, cut, Function.comp_def]
      · rw [List.count_cons_of_ne round]
        simp [cutAtClosing?, round, noOpening, cut, Function.comp_def]
    · have others : c ≠ '(' ∧ c ≠ ')' := by
        constructor <;> rintro rfl
        · cases opens
        · cases plain
      simp [cutAtClosing?, others, ih later, Function.comp_def]

/-- The parameters end where their parenthesis is closed. -/
theorem cutAtClosing?_nested {u : Text} (nested : Nested u) (rest : Text) :
    cutAtClosing? 0 (u ++ ')' :: rest) = some (u, rest) := by
  have cut := cutAtClosing?_append nested 0 (')' :: rest)
  simpa [cutAtClosing?] using cut

def isBracket (c : Char) : Bool := (closing? c).isSome || isClosing c

/-- The brackets of a text, in order. -/
def brackets (t : Text) : List Char := t.filter isBracket

/-- A properly nested word of brackets. -/
inductive Balanced : List Char → Prop
  | nil : Balanced []
  | pair {opening closing : Char} {u v : List Char} (kind : closing? opening = some closing)
      (inner : Balanced u) (rest : Balanced v) : Balanced (opening :: (u ++ closing :: v))

theorem closing?_of_isClosing {c : Char} (closes : isClosing c = true) : closing? c = none := by
  simp only [isClosing, Bool.or_eq_true, beq_iff_eq] at closes
  rcases closes with (rfl | rfl) | rfl <;> rfl

theorem openAfter_brackets (opened : List Char) (t : Text) :
    openAfter opened (brackets t) = openAfter opened t := by
  induction t generalizing opened with
  | nil => rfl
  | cons c r ih =>
    rw [brackets] at ih ⊢
    cases opens : closing? c with
    | some b => simp [isBracket, opens, openAfter, ih]
    | none =>
      cases closes : isClosing c with
      | false => simp [isBracket, opens, closes, openAfter, ih]
      | true =>
        cases opened with
        | nil => simp [isBracket, opens, closes, openAfter]
        | cons b outer => simp [isBracket, opens, closes, openAfter, ih]

theorem Balanced.nested {w : List Char} (balanced : Balanced w) : Nested w := by
  induction balanced with
  | nil => rfl
  | pair kind inner rest innerNested restNested =>
    have both := (innerNested.between kind).append restNested
    simpa using both

/-- The innermost of the brackets that wait is closed somewhere, and what stands before is nested. -/
theorem exists_closing {inner outer : List Char} {b : Char} {t : Text}
    (through : openAfter (inner ++ b :: outer) t = some []) :
    ∃ inside after, t = inside ++ b :: after ∧ openAfter inner inside = some [] ∧
      openAfter outer after = some [] := by
  induction t generalizing inner with
  | nil => simp [openAfter] at through
  | cons c r ih =>
    rcases openAfter_cons through with ⟨d, opens, later⟩ | ⟨rest, same, opens, closes, later⟩ |
      ⟨opens, plain, later⟩
    · have further : openAfter ((d :: inner) ++ b :: outer) r = some [] := later
      obtain ⟨inside, after, rfl, front, back⟩ := ih further
      exact ⟨c :: inside, after, rfl, by simpa [openAfter, opens] using front, back⟩
    · cases inner with
      | nil =>
        obtain ⟨rfl, rfl⟩ := List.cons.inj same
        exact ⟨[], r, rfl, rfl, later⟩
      | cons d inner =>
        obtain ⟨rfl, rfl⟩ := List.cons.inj same
        obtain ⟨inside, after, rfl, front, back⟩ := ih later
        exact ⟨d :: inside, after, rfl, by simpa [openAfter, opens, closes] using front, back⟩
    · obtain ⟨inside, after, rfl, front, back⟩ := ih later
      exact ⟨c :: inside, after, rfl, by simpa [openAfter, opens, plain] using front, back⟩

/-- The brackets of a nested text are a properly nested word: those between the first one and its own, and those
behind, are. -/
theorem Nested.balanced {t : Text} (nested : Nested t) : Balanced (brackets t) := by
  induction length : t.length using Nat.strongRecOn generalizing t with
  | ind n ih =>
    cases t with
    | nil => exact .nil
    | cons c r =>
      rcases openAfter_cons nested with ⟨b, opens, later⟩ | ⟨outer, same, -, -, -⟩ | ⟨opens, plain, later⟩
      · have waiting : openAfter ([] ++ [b]) r = some [] := later
        obtain ⟨inside, after, rfl, inner, rest⟩ := exists_closing waiting
        simp only [List.length_cons, List.length_append] at length
        have first : isBracket c = true := by simp [isBracket, opens]
        have last : isBracket b = true := by simp [isBracket, isClosing_of_closing? opens]
        have split : brackets (c :: (inside ++ b :: after)) =
            c :: (brackets inside ++ b :: brackets after) := by
          simp [brackets, first, last]
        rw [split]
        exact .pair opens (ih inside.length (by omega) inner rfl) (ih after.length (by omega) rest rfl)
      · cases same
      · have skip : brackets (c :: r) = brackets r := by simp [brackets, isBracket, opens, plain]
        have less : r.length < n := by
          rw [← length]
          exact Nat.lt_succ_self r.length
        rw [skip]
        exact ih r.length less later rfl

/-- The stack is empty in the end exactly for the texts whose brackets are a properly nested word. -/
theorem nested_iff_balanced {t : Text} : Nested t ↔ Balanced (brackets t) := by
  constructor
  · exact Nested.balanced
  · intro balanced
    rw [Nested, ← openAfter_brackets]
    exact balanced.nested

/-- The line of a place, given the text in front of it. -/
def lineBehind (front : Text) : Nat := front.count '\n' + 1

/-- The brackets that wait to be closed behind a text, innermost first, with their lines: the text between two of
them is nested. -/
inductive Waits : Text → List (Char × Nat) → Prop
  | closed {u : Text} (nested : Nested u) : Waits u []
  | opened {u v : Text} {b : Char} {waiting : List (Char × Nat)} (outer : Waits u waiting)
      (opens : (closing? b).isSome = true) (nested : Nested v) :
      Waits (u ++ b :: v) ((b, lineBehind u) :: waiting)

namespace Waits

theorem append {u v : Text} {waiting : List (Char × Nat)} (waits : Waits u waiting) (nested : Nested v) :
    Waits (u ++ v) waiting := by
  cases waits with
  | closed front => exact .closed (front.append nested)
  | opened outer opens inner =>
    rw [List.append_assoc, List.cons_append]
    exact .opened outer opens (inner.append nested)

theorem skip {u : Text} {waiting : List (Char × Nat)} (waits : Waits u waiting) {c : Char}
    (noOpening : closing? c = none) (noClosing : isClosing c = false) : Waits (u ++ [c]) waiting := by
  apply waits.append
  simp [Nested, openAfter, noOpening, noClosing]

theorem push {u : Text} {waiting : List (Char × Nat)} (waits : Waits u waiting) {b : Char}
    (opens : (closing? b).isSome = true) : Waits (u ++ [b]) ((b, lineBehind u) :: waiting) :=
  .opened waits opens rfl

/-- With its closing bracket, the innermost of those that wait joins the nested text behind the next one. -/
theorem close {u : Text} {b c : Char} {line : Nat} {outer : List (Char × Nat)}
    (waits : Waits u ((b, line) :: outer)) (fits : closing? b = some c) : Waits (u ++ [c]) outer := by
  cases waits with
  | @opened u v b outer waits opens nested =>
    have closed : Waits (u ++ b :: (v ++ [c])) outer := waits.append (nested.between fits)
    rwa [List.append_assoc, List.cons_append]

/-- The stack holds the closing brackets of those that wait. -/
theorem openAfter_eq {u : Text} {waiting : List (Char × Nat)} (waits : Waits u waiting) :
    ∃ closers, openAfter [] u = some closers ∧ waiting.map (closing? ·.1) = closers.map some := by
  induction waits with
  | closed nested => exact ⟨[], nested, rfl⟩
  | @opened u v b waiting outer opens nested ih =>
    obtain ⟨closers, front, kinds⟩ := ih
    obtain ⟨closing, kind⟩ := Option.isSome_iff_exists.mp opens
    refine ⟨closing :: closers, ?_, ?_⟩
    · simp only [openAfter_append, front, Option.bind_some, openAfter, kind]
      exact openAfter_outer nested (closing :: closers)
    · simp [kind, kinds]

end Waits

/-- The place of the bracket that a failure of the check names: one that closes none of those that wait, or the
innermost of those that wait in the end. -/
inductive FaultAt (t : Text) : Nat → ExtractionError → Prop
  | unexpected {front behind : Text} {c : Char} {waiting : List (Char × Nat)} (place : t = front ++ c :: behind)
      (waits : Waits front waiting) (closes : isClosing c = true)
      (other : ∀ b ∈ waiting.head?, closing? b.1 ≠ some c) :
      FaultAt t front.length (.unexpectedBracket c (lineBehind front))
  | unclosed {front behind : Text} {b : Char} {waiting : List (Char × Nat)} (place : t = front ++ b :: behind)
      (waits : Waits front waiting) (opens : (closing? b).isSome = true) (nested : Nested behind) :
      FaultAt t front.length (.unclosedBracket b (lineBehind front))

theorem FaultAt.not_nested {t : Text} {i : Nat} {fault : ExtractionError} (wrong : FaultAt t i fault) :
    ¬Nested t := by
  intro nested
  cases wrong with
  | @unexpected front behind c waiting place waits closes other =>
    obtain ⟨closers, through, kinds⟩ := waits.openAfter_eq
    rw [Nested, place, openAfter_append, through, Option.bind_some] at nested
    rcases openAfter_cons nested with ⟨b, opens, -⟩ | ⟨outer, rfl, -, -, -⟩ | ⟨-, plain, -⟩
    · rw [closing?_of_isClosing closes] at opens
      cases opens
    · cases waiting with
      | nil => cases kinds
      | cons first waiting => exact other first rfl (List.cons.inj kinds).1
    · rw [closes] at plain
      cases plain
  | unclosed place waits opens inner =>
    obtain ⟨closers, through, kinds⟩ := (waits.opened opens inner).openAfter_eq
    rw [Nested, place, through, Option.some.injEq] at nested
    subst nested
    cases kinds

/-- The bracket that a failure of the check names, and the line it names for it. -/
def bracketAndLine? : ExtractionError → Option (Char × Nat)
  | .unexpectedBracket c line => some (c, line)
  | .unclosedBracket b line => some (b, line)
  | .syntaxError _ => none
  | .unreadable _ => none

/-- A failure of the check names the bracket in its place and the line of that place. -/
theorem FaultAt.bracketAndLine?_eq {t : Text} {i : Nat} {fault : ExtractionError} (wrong : FaultAt t i fault) :
    ∃ c, t[i]? = some c ∧ isBracket c = true ∧ bracketAndLine? fault = some (c, lineBehind (t.take i)) := by
  cases wrong with
  | @unexpected front behind c waiting place waits closes other =>
    exact ⟨c, by simp [place], by simp [isBracket, closes], by simp [place, bracketAndLine?]⟩
  | @unclosed front behind b waiting place waits opens inner =>
    exact ⟨b, by simp [place], by simp [isBracket, opens], by simp [place, bracketAndLine?]⟩

theorem lineBehind_append_singleton {c : Char} (other : c ≠ '\n') (front : Text) :
    lineBehind (front ++ [c]) = lineBehind front := by
  simp [lineBehind, other]

theorem lineBehind_append_lineEnd (front : Text) : lineBehind (front ++ ['\n']) = lineBehind front + 1 := by
  simp [lineBehind]

theorem nestingFaultFrom?_cons (line : Nat) (opened : List (Char × Nat)) (c : Char) (r : Text) :
    nestingFaultFrom? line opened (c :: r) =
      if c = '\n' then nestingFaultFrom? (line + 1) opened r
      else if (closing? c).isSome then nestingFaultFrom? line ((c, line) :: opened) r
      else if isClosing c then
        match opened with
        | (b, _) :: outer =>
          if closing? b = some c then nestingFaultFrom? line outer r
          else some (.unexpectedBracket c line)
        | [] => some (.unexpectedBracket c line)
      else nestingFaultFrom? line opened r := by
  cases opened <;> simp only [nestingFaultFrom?, beq_iff_eq]

/-- The check goes on from brackets that wait: it ends in a nested text, or at a bracket that does not fit. -/
theorem nestingFaultFrom?_of_waits {front rest : Text} {waiting : List (Char × Nat)}
    (waits : Waits front waiting) :
    (nestingFaultFrom? (lineBehind front) waiting rest).elim (Nested (front ++ rest))
      fun fault => ∃ i, FaultAt (front ++ rest) i fault := by
  induction rest generalizing front waiting with
  | nil =>
    rw [List.append_nil]
    cases waits with
    | closed nested => exact nested
    | opened outer opens nested => exact ⟨_, .unclosed rfl outer opens nested⟩
  | cons c r ih =>
    have step : (front ++ [c]) ++ r = front ++ c :: r := by rw [List.append_assoc, List.singleton_append]
    rw [nestingFaultFrom?_cons]
    by_cases lineEnd : c = '\n'
    · have next := ih (waits.skip (c := c) (by rw [lineEnd]; rfl) (by rw [lineEnd]; rfl))
      rw [step, lineEnd, lineBehind_append_lineEnd] at next
      rw [if_pos lineEnd, lineEnd]
      exact next
    have line : lineBehind (front ++ [c]) = lineBehind front := lineBehind_append_singleton lineEnd front
    rw [if_neg lineEnd]
    cases opens : (closing? c).isSome with
    | true =>
      have next := ih (waits.push opens)
      rw [if_pos rfl]
      rwa [step, line] at next
    | false =>
      rw [if_neg (by simp)]
      cases closes : isClosing c with
      | false =>
        have next := ih (waits.skip (by simpa using opens) closes)
        rw [if_neg (by simp)]
        rwa [step, line] at next
      | true =>
        rw [if_pos rfl]
        cases waiting with
        | nil => exact ⟨_, .unexpected rfl waits closes (by simp)⟩
        | cons first outer =>
          by_cases fits : closing? first.1 = some c
          · have next := ih (waits.close fits)
            simp only [if_pos fits]
            rwa [step, line] at next
          · simp only [if_neg fits]
            refine ⟨_, .unexpected rfl waits closes ?_⟩
            intro b same
            cases same
            exact fits

theorem nestingFault?_elim (t : Text) :
    (nestingFault? t).elim (Nested t) fun fault => ∃ i, FaultAt t i fault := by
  have start : Waits [] [] := .closed rfl
  exact nestingFaultFrom?_of_waits start

theorem nestingFault?_eq_some {t : Text} {fault : ExtractionError} (found : nestingFault? t = some fault) :
    ∃ i, FaultAt t i fault := by
  have outcome := nestingFault?_elim t
  rwa [found] at outcome

/-- The check passes exactly for the properly nested texts. -/
theorem nestingFault?_eq_none_iff {t : Text} : nestingFault? t = none ↔ Nested t := by
  have outcome := nestingFault?_elim t
  cases found : nestingFault? t with
  | none =>
    rw [found] at outcome
    exact ⟨fun _ => outcome, fun _ => rfl⟩
  | some fault =>
    rw [found] at outcome
    obtain ⟨i, wrong⟩ := outcome
    exact ⟨fun same => absurd same (by simp), fun nested => absurd nested wrong.not_nested⟩

/-- Places of a text that hold brackets of one pair: what stands between them is properly nested. -/
def Paired (t : Text) (i j : Nat) : Prop :=
  ∃ front opening inside closing behind, t = front ++ opening :: (inside ++ closing :: behind) ∧
    closing? opening = some closing ∧ Balanced (brackets inside) ∧
      i = front.length ∧ j = front.length + inside.length + 1

/-- In a nested text every opening bracket is closed by its own, with a nested text between them. -/
theorem exists_pair {front rest : Text} {opening closing : Char} (kind : closing? opening = some closing)
    (nested : Nested (front ++ opening :: rest)) :
    ∃ inside after, rest = inside ++ closing :: after ∧ Nested inside := by
  rw [Nested, openAfter_append] at nested
  obtain ⟨opened, -, through⟩ := Option.bind_eq_some_iff.mp nested
  simp only [openAfter, kind] at through
  have waiting : openAfter ([] ++ closing :: opened) rest = some [] := through
  obtain ⟨inside, after, same, inner, -⟩ := exists_closing waiting
  exact ⟨inside, after, same, inner⟩

/-- The parenthesis where the parameters are cut is the one that is paired with the opening one. -/
theorem paired_iff {front inside after : Text} (nested : Nested inside) (j : Nat) :
    Paired (front ++ '(' :: (inside ++ ')' :: after)) front.length j ↔
      j = front.length + inside.length + 1 := by
  constructor
  · rintro ⟨front', opening, inside', closing, behind, place, kind, balanced, start, rfl⟩
    obtain ⟨rfl, same⟩ := List.append_inj place start
    obtain ⟨rfl, rest⟩ := List.cons.inj same
    obtain rfl : ')' = closing := Option.some.inj kind
    have cut := cutAtClosing?_nested nested after
    rw [rest, cutAtClosing?_nested (nested_iff_balanced.mpr balanced)] at cut
    cases cut
    rfl
  · rintro rfl
    exact ⟨front, '(', inside, ')', after, rfl, rfl, nested_iff_balanced.mp nested, rfl, rfl⟩

end TestSkeleton.V
