import TestSkeleton.Proofs.Text.Ascii
import TestSkeleton.Proofs.Text.Basic
import TestSkeleton.Signature

/-! Which characters snake case leaves of a name.

Main statement: only words are left, unless the name has the one capital whose lower case is two
characters, since the second of these is a mark that belongs to no word. -/

namespace TestSkeleton

namespace Text

/-- Nothing but letters, numbers and underscores. -/
def OnlyWords (t : Text) : Prop := ∀ c ∈ t, isWord c = true

theorem onlyWords_append {t u : Text} : OnlyWords (t ++ u) ↔ OnlyWords t ∧ OnlyWords u :=
  List.forall_mem_append

theorem onlyWords_cons {c : Char} {t : Text} : OnlyWords (c :: t) ↔ isWord c = true ∧ OnlyWords t :=
  List.forall_mem_cons

/-- Whether one range holds a whole run of code points. -/
def holdsRun (ranges : List (Nat × Nat)) (first last : Nat) : Bool :=
  ranges.any fun range => range.1.ble first && last.ble range.2

/-- Whether no range meets a run of code points. -/
def missesRun (ranges : List (Nat × Nat)) (first last : Nat) : Bool :=
  ranges.all fun range => last.blt range.1 || range.2.blt first

/-- The sign of the unit, whose lower case is the ASCII letter. -/
def kelvin : Char := '\u212A'

/-- Lower case takes each run of capitals into a run of words, and the Kelvin sign alone to ASCII. The runs
that are left are circled letters, which are symbols. -/
theorem lowerRuns_words : (lowerRuns.all fun run =>
    holdsRun wordRanges (run.1 + run.2.2.2).toNat (run.2.1 + run.2.2.2).toNat ||
      (run.1 == kelvin.toNat && run.2.1 == kelvin.toNat) || missesRun wordRanges run.1 run.2.1) = true := by
  decide +kernel

/-- The table of words begins above ASCII and keeps clear of what is no character. -/
theorem wordRanges_characters : (wordRanges.all fun range =>
    Nat.ble 0x80 range.1 && (range.2.blt 0xD800 || (Nat.blt 0xDFFF range.1 && range.2.blt 0x110000))) =
      true := by
  decide +kernel

theorem lowerChar_kelvin : lowerChar kelvin = 'k' := by decide +kernel

theorem isWord_lowerChar_ascii : ((List.range 0x80).all fun n =>
    !isWord (Char.ofNat n) || isWord (lowerChar (Char.ofNat n))) = true := by
  decide

/-- A code point in the table of words is that of a word. -/
theorem isWord_ofNat {n : Nat} (listed : inRanges wordRanges n = true) : isWord (Char.ofNat n) = true := by
  obtain ⟨range, member, inside⟩ := List.any_eq_true.mp listed
  have shape := List.all_eq_true.mp wordRanges_characters range member
  simp only [Bool.and_eq_true, Bool.or_eq_true, decide_eq_true_eq, Nat.ble_eq, Nat.blt_eq] at inside shape
  have valid : n.isValidChar := by
    unfold Nat.isValidChar
    omega
  have point : (Char.ofNat n).toNat = n := by
    rw [Char.ofNat, dif_pos valid]
    rfl
  rw [isWord, point, if_neg (by omega)]
  exact listed

/-- The lower case of a word's character is that of a word again. -/
theorem isWord_lowerChar {c : Char} (word : isWord c = true) : isWord (lowerChar c) = true := by
  by_cases sign : c = kelvin
  · rw [sign, lowerChar_kelvin]
    rfl
  rcases Nat.lt_or_ge c.toNat 0x80 with ascii | high
  · have listed := List.all_eq_true.mp isWord_lowerChar_ascii c.toNat (List.mem_range.mpr ascii)
    simpa [Char.ofNat_toNat, word] using listed
  · have table : inRanges wordRanges c.toNat = true := by rwa [isWord, if_neg (by omega)] at word
    unfold lowerChar
    rw [if_neg (by omega)]
    split
    · rename_i first last step distance found
      have listed := List.all_eq_true.mp lowerRuns_words _ (List.mem_of_find?_eq_some found)
      have inside := List.find?_some found
      simp only [Bool.and_eq_true, decide_eq_true_eq] at inside
      obtain ⟨⟨low, up⟩, -⟩ := inside
      simp only [Bool.or_eq_true, Bool.and_eq_true, beq_iff_eq] at listed
      rcases listed with (held | ⟨rfl, rfl⟩) | missed
      · apply isWord_ofNat
        obtain ⟨range, member, held⟩ := List.any_eq_true.mp held
        simp only [Bool.and_eq_true, Nat.ble_eq] at held
        refine List.any_eq_true.mpr ⟨range, member, ?_⟩
        simp only [Bool.and_eq_true, decide_eq_true_eq]
        omega
      · exact absurd (Char.toNat_inj.mp (Nat.le_antisymm up low)) sign
      · obtain ⟨range, member, within⟩ := List.any_eq_true.mp table
        have apart := List.all_eq_true.mp missed range member
        simp only [Bool.and_eq_true, Bool.or_eq_true, decide_eq_true_eq, Nat.blt_eq] at within apart
        omega
    · exact word

/-- Of words, only the capital with two characters in lower case leaves the words. -/
theorem onlyWords_lowerFrom_iff {t : Text} (before : Text) (words : OnlyWords t) :
    OnlyWords (lowerFrom before t) ↔ 'İ' ∉ t := by
  induction t generalizing before with
  | nil => simp [lowerFrom, OnlyWords]
  | cons c t ih =>
    obtain ⟨here, words⟩ := onlyWords_cons.mp words
    rw [lowerFrom, onlyWords_append, ih (c :: before) words, List.mem_cons, not_or]
    refine and_congr_left fun _ => ?_
    split
    · rename_i sigma
      rw [beq_iff_eq.mp sigma]
      have forms : isWord 'ς' = true ∧ isWord 'σ' = true := by decide +kernel
      split <;> simp [OnlyWords, forms]
    · split
      · rename_i dotted
        have mark : isWord '\u0307' = false := by decide +kernel
        simp [OnlyWords, mark, beq_iff_eq.mp dotted]
      · rename_i other
        have apart : 'İ' ≠ c := fun same => other (beq_iff_eq.mpr same.symm)
        simp [OnlyWords, apart, isWord_lowerChar here]

theorem trimMatches_subset (p : Char → Bool) (t : Text) : trimMatches p t ⊆ t := by
  intro c member
  have front := (List.dropWhile_sublist p).subset (List.mem_reverse.mp member)
  exact (List.dropWhile_sublist p).subset (List.mem_reverse.mp front)

theorem mem_trimMatches {p : Char → Bool} {c : Char} {t : Text} (kept : p c = false) :
    c ∈ trimMatches p t ↔ c ∈ t := by
  refine ⟨fun member => trimMatches_subset p t member, fun member => ?_⟩
  have front := mem_dropWhile member kept
  exact List.mem_reverse.mpr (mem_dropWhile (List.mem_reverse.mpr front) kept)

end Text

namespace Signature

open Text

theorem mem_separateCapitals {c : Char} (other : c ≠ '_') (t : Text) : c ∈ separateCapitals t ↔ c ∈ t := by
  fun_induction separateCapitals t with
  | case1 => rfl
  | case2 => rfl
  | case3 a d r _ ih => simp [ih, other]
  | case4 a d r _ ih => simp [ih]

theorem onlyWords_joinWordsFrom (inGap : Bool) (t : Text) : OnlyWords (joinWordsFrom inGap t) := by
  fun_induction joinWordsFrom inGap t with
  | case1 => simp [OnlyWords]
  | case2 _ c r word ih => exact onlyWords_cons.mpr ⟨word, ih⟩
  | case3 _ r _ ih => exact ih
  | case4 _ c r _ _ ih => exact onlyWords_cons.mpr ⟨by decide, ih⟩

theorem mem_joinWordsFrom {c : Char} (word : isWord c = true) (other : c ≠ '_') (inGap : Bool) (t : Text) :
    c ∈ joinWordsFrom inGap t ↔ c ∈ t := by
  fun_induction joinWordsFrom inGap t with
  | case1 => rfl
  | case2 _ d r _ ih => simp [ih]
  | case3 d r gap ih =>
    have apart : c ≠ d := fun same => gap (same ▸ word)
    rw [ih, List.mem_cons, or_iff_right apart]
  | case4 _ d r gap _ ih =>
    have apart : c ≠ d := fun same => gap (same ▸ word)
    rw [List.mem_cons, List.mem_cons, ih, or_iff_right other, or_iff_right apart]

/-- Snake case leaves only words of a name exactly when no capital of the name has two characters in lower
case. -/
theorem onlyWords_toSnakeCase_iff (name : Text) : OnlyWords (toSnakeCase name) ↔ 'İ' ∉ name := by
  have words : OnlyWords (trimMatches (· == '_') (joinWordsFrom false (separateCapitals name))) :=
    fun c member => onlyWords_joinWordsFrom _ _ c (trimMatches_subset _ _ member)
  rw [toSnakeCase, lower, onlyWords_lowerFrom_iff [] words, mem_trimMatches (by decide),
    mem_joinWordsFrom (by decide +kernel) (by decide), mem_separateCapitals (by decide)]

end Signature

end TestSkeleton
