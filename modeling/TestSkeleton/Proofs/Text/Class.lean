import TestSkeleton.Text.Class

/-! No blank character belongs to a word or to an identifier. -/

namespace TestSkeleton.Text

/-- The code points of the ASCII blanks. -/
def asciiBlanks : List Nat := [0x9, 0xA, 0xB, 0xC, 0xD, 0x1C, 0x1D, 0x1E, 0x1F, 0x20]

/-- The runs of blank code points above ASCII. -/
def blankRuns : List (Nat × Nat) :=
  [(0x85, 0x85), (0xA0, 0xA0), (0x1680, 0x1680), (0x2000, 0x200A), (0x2028, 0x2029),
    (0x202F, 0x202F), (0x205F, 0x205F), (0x3000, 0x3000)]

theorem toNat_mem_blanks {c : Char} (blank : isBlank c = true) :
    c.toNat ∈ asciiBlanks ∨ ∃ run ∈ blankRuns, run.1 ≤ c.toNat ∧ c.toNat ≤ run.2 := by
  simp only [isBlank, Bool.or_eq_true, Bool.and_eq_true, decide_eq_true_eq, beq_iff_eq] at blank
  simp only [asciiBlanks, blankRuns, List.mem_cons, List.not_mem_nil, or_false, exists_eq_or_imp,
    exists_eq_left]
  omega

/-- A class that is looked up in a table above ASCII holds no blank, when none of the ASCII blanks is
in it and no run of the table meets a run of blanks. -/
theorem of_blanks {p : Char → Bool} {ranges : List (Nat × Nat)} {c : Char}
    (high : 0x80 ≤ c.toNat → p c = inRanges ranges c.toNat)
    (ascii : (asciiBlanks.all fun n => !p (Char.ofNat n)) = true)
    (apart : (ranges.all fun range => blankRuns.all fun run =>
      range.2 < run.1 || run.2 < range.1) = true)
    (blank : isBlank c = true) : p c = false := by
  rcases toNat_mem_blanks blank with low | ⟨run, listed, above, below⟩
  · have other := List.all_eq_true.mp ascii c.toNat low
    simpa [Char.ofNat_toNat] using other
  · have notAscii : 0x80 ≤ c.toNat := by
      have start : ∀ run ∈ blankRuns, 0x80 ≤ run.1 := by decide
      exact Nat.le_trans (start run listed) above
    rw [high notAscii, inRanges, List.any_eq_false]
    intro range member
    have split := List.all_eq_true.mp (List.all_eq_true.mp apart range member) run listed
    simp only [Bool.or_eq_true, decide_eq_true_eq] at split
    simp only [Bool.and_eq_true, decide_eq_true_eq]
    omega

theorem isWord_of_isBlank {c : Char} (blank : isBlank c = true) : isWord c = false := by
  have high : 0x80 ≤ c.toNat → isWord c = inRanges wordRanges c.toNat := fun high => by
    rw [isWord, if_neg (by omega)]
  exact of_blanks high (by decide) (by decide +kernel) blank

theorem not_blank_of_isWord {c : Char} (word : isWord c = true) : isBlank c = false := by
  cases blank : isBlank c with
  | false => rfl
  | true =>
    rw [isWord_of_isBlank blank] at word
    cases word

theorem isIdentifierContinue_of_isBlank {c : Char} (blank : isBlank c = true) :
    isIdentifierContinue c = false := by
  have high : 0x80 ≤ c.toNat → isIdentifierContinue c = inRanges identifierContinueRanges c.toNat :=
    fun high => by rw [isIdentifierContinue, if_neg (by omega)]
  exact of_blanks high (by decide) (by decide +kernel) blank

theorem isIdentifierStart_of_isBlank {c : Char} (blank : isBlank c = true) :
    isIdentifierStart c = false := by
  have high : 0x80 ≤ c.toNat → isIdentifierStart c = inRanges identifierStartRanges c.toNat :=
    fun high => by rw [isIdentifierStart, if_neg (by omega)]
  exact of_blanks high (by decide) (by decide +kernel) blank

theorem isAsciiIdentifierStart_of_isBlank {c : Char} (blank : isBlank c = true) :
    isAsciiIdentifierStart c = false := by
  have high : 0x80 ≤ c.toNat → isAsciiIdentifierStart c = inRanges [] c.toNat := by
    intro high
    have letter : c.isAlpha = false := by
      change (decide (65 ≤ c.val ∧ c.val ≤ 90) || decide (97 ≤ c.val) && decide (c.val ≤ 122)) = false
      simp only [Bool.or_eq_false_iff, Bool.and_eq_false_iff, decide_eq_false_iff_not,
        UInt32.le_iff_toNat_le, Char.toNat_val, UInt32.reduceToNat]
      omega
    have underscore : c ≠ '_' := by
      rintro rfl
      exact absurd high (by decide)
    simp [isAsciiIdentifierStart, inRanges, letter, underscore]
  exact of_blanks high (by decide) rfl blank

end TestSkeleton.Text
