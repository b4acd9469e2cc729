import TestSkeleton.Extraction.V.Blanking
import TestSkeleton.Proofs.Text.Basic
import TestSkeleton.Proofs.V.Nesting

/-! Code that blanking leaves as it is, with nested brackets. -/

namespace TestSkeleton.V

/-- No quotes, and no slash that begins a comment. -/
def isQuiet : Text → Bool
  | [] => true
  | c :: r => !isQuote c && !(c == '/' && r.head?.any fun d => d == '/' || d == '*') && isQuiet r

/-- Blanking leaves code as it is, where no slash at its end begins a comment with what stands behind. -/
theorem blank_code {t behind : Text} (quiet : isQuiet t = true)
    (stops : t.getLast? = some '/' → ∀ c ∈ behind.head?, c ≠ '/' ∧ c ≠ '*') :
    blank (t ++ behind) = t ++ blank behind := by
  induction t with
  | nil => rfl
  | cons c r ih =>
    simp only [isQuiet, Bool.and_eq_true, Bool.not_eq_true'] at quiet
    obtain ⟨⟨unquoted, uncommented⟩, rest⟩ := quiet
    have apart : ∀ mark r', mark = '/' ∨ mark = '*' → c = '/' → r ++ behind = mark :: r' → False := by
      intro mark r' marks slash next
      subst slash
      cases r with
      | nil =>
        have first := stops rfl mark (by rw [List.nil_append] at next; rw [next]; rfl)
        rcases marks with same | same
        · exact first.1 same
        · exact first.2 same
      | cons d r =>
        obtain ⟨rfl, -⟩ := List.cons.inj next
        rcases marks with rfl | rfl <;> simp at uncommented
    have later : blank (r ++ behind) = r ++ blank behind := by
      apply ih rest
      intro last
      apply stops
      rw [List.getLast?_cons, last]
      rfl
    rw [blank] at later ⊢
    rw [List.cons_append, blankFrom, unquoted, if_neg (by simp), later, List.cons_append]
    · exact fun r' => apart '/' r' (.inl rfl)
    · exact fun r' => apart '*' r' (.inr rfl)

theorem blank_eq_self {t : Text} (quiet : isQuiet t = true) : blank t = t := by
  have alone : blank (t ++ []) = t ++ blank [] := blank_code quiet (by simp)
  simpa [blank, blankFrom] using alone

theorem isQuiet_cons {c : Char} {v : Text} (plain : isQuote c = false ∧ c ≠ '/')
    (back : isQuiet v = true) : isQuiet (c :: v) = true := by
  simp [isQuiet, plain, back]

/-- A character that begins no comment parts two texts. -/
theorem isQuiet_append_mark {u v : Text} {mark : Char} (front : isQuiet u = true)
    (plain : isQuote mark = false ∧ mark ≠ '/' ∧ mark ≠ '*') (back : isQuiet v = true) :
    isQuiet (u ++ mark :: v) = true := by
  induction u with
  | nil => exact isQuiet_cons ⟨plain.1, plain.2.1⟩ back
  | cons c r ih =>
    simp only [isQuiet, Bool.and_eq_true] at front
    obtain ⟨⟨unquoted, uncommented⟩, rest⟩ := front
    have later := ih rest
    cases r with
    | nil =>
      simp only [List.cons_append, List.nil_append] at later ⊢
      rw [isQuiet, unquoted, later]
      simp [plain]
    | cons d r =>
      simp only [List.cons_append] at later ⊢
      rw [isQuiet, unquoted, later]
      simpa using uncommented

/-- Code without effect on what stands around it. -/
structure Inert (t : Text) : Prop where
  nested : Nested t
  quiet : isQuiet t = true

/-- The characters that matter to blanking, to nesting, to lists or to lines. -/
def marks : Text :=
  ['\'', '"', '\x60', '/', '*', '(', ')', '[', ']', '\x7b', '\x7d', '<', '>', ',', '\n']

def Markless (t : Text) : Prop := ∀ c ∈ t, c ∉ marks

instance (t : Text) : Decidable (Markless t) := inferInstanceAs (Decidable (∀ c ∈ t, c ∉ marks))

namespace Markless

theorem append {u v : Text} (front : Markless u) (back : Markless v) : Markless (u ++ v) := by
  intro c member
  rcases List.mem_append.mp member with member | member
  · exact front c member
  · exact back c member

theorem plain {c : Char} (unmarked : c ∉ marks) :
    (isQuote c = false ∧ c ≠ '/' ∧ c ≠ '*') ∧ closing? c = none ∧ isClosing c = false := by
  have other (mark : Char) (member : mark ∈ marks) : c ≠ mark := by
    rintro rfl
    exact unmarked member
  refine ⟨⟨?_, other '/' (by decide), other '*' (by decide)⟩, ?_, ?_⟩
  · simp [isQuote, other '\'' (by decide), other '"' (by decide), other '\x60' (by decide)]
  · unfold closing?
    split
    · exact absurd rfl (other '(' (by decide))
    · exact absurd rfl (other '[' (by decide))
    · exact absurd rfl (other '\x7b' (by decide))
    · rfl
  · simp [isClosing, other ')' (by decide), other ']' (by decide), other '\x7d' (by decide)]

end Markless

namespace Inert

theorem nil : Inert [] := ⟨rfl, rfl⟩

theorem cons {c : Char} {v : Text} (unmarked : c ∉ marks) (back : Inert v) : Inert (c :: v) := by
  obtain ⟨⟨noQuote, noSlash, -⟩, noOpening, noClosing⟩ := Markless.plain unmarked
  refine ⟨?_, isQuiet_cons ⟨noQuote, noSlash⟩ back.quiet⟩
  rw [Nested, openAfter, noOpening, noClosing]
  exact back.nested

theorem append_markless {u v : Text} (front : Markless u) (back : Inert v) : Inert (u ++ v) := by
  induction u with
  | nil => exact back
  | cons c u ih =>
    exact cons (front c (by simp)) (ih fun d member => front d (List.mem_cons_of_mem c member))

theorem append_mark {u v : Text} {mark : Char} (front : Inert u) (plain : mark ∈ [' ', ',', '\n'])
    (back : Inert v) : Inert (u ++ mark :: v) := by
  have free : (isQuote mark = false ∧ mark ≠ '/' ∧ mark ≠ '*') ∧ Nested [mark] := by
    simp only [List.mem_cons, List.not_mem_nil, or_false] at plain
    rcases plain with rfl | rfl | rfl <;> decide
  exact ⟨front.nested.append (free.2.append back.nested), isQuiet_append_mark front.quiet free.1 back.quiet⟩

theorem bracketed {u v : Text} {opening closing : Char} (inside : Inert u)
    (pair : closing? opening = some closing) (back : Inert v) :
    Inert (opening :: (u ++ closing :: v)) := by
  have free : (isQuote opening = false ∧ opening ≠ '/') ∧
      isQuote closing = false ∧ closing ≠ '/' ∧ closing ≠ '*' := by
    unfold closing? at pair
    split at pair <;> cases pair <;> decide
  constructor
  · simpa using (inside.nested.between pair).append back.nested
  · exact isQuiet_cons free.1 (isQuiet_append_mark inside.quiet free.2 back.quiet)

end Inert

end TestSkeleton.V
