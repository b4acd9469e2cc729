import TestSkeleton.Proofs.Text.Basic
import TestSkeleton.Proofs.Text.Class
import TestSkeleton.Signature

/-! The normal spelling as one pass over the text.

Every step of the spelling drops blanks by the characters around them or puts a space behind a
comma. So the result is decided pair by pair, for neighbours among the characters that are not
blank. -/

namespace TestSkeleton.Signature

open Text

def solid (c : Char) : Bool := !isBlank c

/-- The first character that is not blank. -/
def nextSolid (t : Text) : Option Char := t.find? solid

/-- Drops blanks by what stands around them. `before` is the last character read that is not blank. -/
def sieve (drop : Option Char → Option Char → Bool) : Option Char → Text → Text
  | _, [] => []
  | before, c :: r =>
    if isBlank c then
      if drop before (nextSolid r) then sieve drop before r else c :: sieve drop before r
    else c :: sieve drop (some c) r

theorem nextSolid_cons_blank {c : Char} (r : Text) (blank : isBlank c = true) :
    nextSolid (c :: r) = nextSolid r := by
  simp [nextSolid, solid, blank]

theorem nextSolid_cons_solid {c : Char} (r : Text) (visible : isBlank c = false) :
    nextSolid (c :: r) = some c := by
  simp [nextSolid, solid, visible]

theorem solid_of_nextSolid {t : Text} {c : Char} (found : c ∈ nextSolid t) : isBlank c = false := by
  have visible := List.find?_some found
  simpa [solid] using visible

theorem nextSolid_sieve (drop : Option Char → Option Char → Bool) (before : Option Char) (t : Text) :
    nextSolid (sieve drop before t) = nextSolid t := by
  induction t generalizing before with
  | nil => rfl
  | cons c r ih =>
    cases blank : isBlank c with
    | false => simp [sieve, blank, nextSolid_cons_solid]
    | true =>
      simp only [sieve, blank, if_true]
      split
      · rw [ih, nextSolid_cons_blank _ blank]
      · rw [nextSolid_cons_blank _ blank, nextSolid_cons_blank _ blank, ih]

theorem sieve_sieve (first second : Option Char → Option Char → Bool) (before : Option Char)
    (t : Text) :
    sieve second before (sieve first before t) =
      sieve (fun a b => first a b || second a b) before t := by
  induction t generalizing before with
  | nil => rfl
  | cons c r ih =>
    cases blank : isBlank c with
    | false => simp [sieve, blank, ih]
    | true =>
      by_cases dropped : first before (nextSolid r) = true
      · simp [sieve, blank, dropped, ih]
      · simp [sieve, blank, dropped, ih, nextSolid_sieve]

theorem tightenAfterFrom_eq_sieve (p : Char → Bool) (plain : ∀ c, isBlank c = true → p c = false)
    (before : Option Char) (t : Text) :
    tightenAfterFrom p (before.any p) t = sieve (fun a _ => a.any p) before t := by
  induction t generalizing before with
  | nil => rfl
  | cons c r ih =>
    cases blank : isBlank c with
    | false => simpa [tightenAfterFrom, sieve, blank] using ih (some c)
    | true =>
      by_cases tight : before.any p = true
      · simpa [tightenAfterFrom, sieve, blank, tight] using ih before
      · have again := ih before
        simp only [Bool.not_eq_true] at tight
        rw [tight] at again
        simpa [tightenAfterFrom, sieve, blank, tight, plain c blank] using again

/-- The flag after `u` says whether its last character that is not blank satisfies `p`. -/
theorem tightenAfterFrom_append (p : Char → Bool) (plain : ∀ c, isBlank c = true → p c = false)
    (tight : Bool) (u v : Text) :
    tightenAfterFrom p tight (u ++ v) =
      tightenAfterFrom p tight u ++
        tightenAfterFrom p (((nextSolid u.reverse).map p).getD tight) v := by
  induction u generalizing tight with
  | nil => rfl
  | cons c r ih =>
    have last : nextSolid (c :: r).reverse =
        (nextSolid r.reverse).or (if isBlank c then none else some c) := by
      cases blank : isBlank c <;> simp [nextSolid, solid, blank]
    rw [last]
    cases blank : isBlank c with
    | false =>
      cases found : nextSolid r.reverse <;> simp [tightenAfterFrom, blank, ih, found]
    | true =>
      cases tight <;> cases found : nextSolid r.reverse <;>
        simp [tightenAfterFrom, blank, ih, found, plain c blank]

theorem tightenBefore_cons (p : Char → Bool) (plain : ∀ c, isBlank c = true → p c = false)
    (c : Char) (r : Text) :
    tightenBefore p (c :: r) =
      (if isBlank c && (nextSolid r).any p then [] else [c]) ++ tightenBefore p r := by
  have split := tightenAfterFrom_append p plain false r.reverse [c]
  rw [List.reverse_reverse] at split
  have flag : ((nextSolid r).map p).getD false = (nextSolid r).any p := by
    cases nextSolid r <;> rfl
  rw [flag] at split
  simp only [tightenBefore, tightenAfter, List.reverse_cons, split, List.reverse_append]
  cases blank : isBlank c <;> cases tight : (nextSolid r).any p <;>
    simp [tightenAfterFrom, blank]

theorem tightenBefore_eq_sieve (p : Char → Bool) (plain : ∀ c, isBlank c = true → p c = false)
    (before : Option Char) (t : Text) :
    tightenBefore p t = sieve (fun _ b => b.any p) before t := by
  induction t generalizing before with
  | nil => rfl
  | cons c r ih =>
    rw [tightenBefore_cons p plain]
    cases blank : isBlank c with
    | false => simp [sieve, blank, ih (some c)]
    | true => cases tight : (nextSolid r).any p <;> simp [sieve, blank, tight, ih before]

/-- A word before a blank that stays is forgotten, which changes nothing: what follows the blank is
no angle bracket. -/
theorem tightenAngleFrom_eq_sieve (word : Bool) (before : Option Char) (t : Text)
    (known : word = before.any isWord ∨ word = false ∧ nextSolid t ≠ some '<')
    (plain : ∀ c, isBlank c = true → isWord c = false) :
    tightenAngleFrom word t = sieve (fun a b => a.any isWord && b == some '<') before t := by
  have next (r : Text) : (r.dropWhile isBlank).head? = nextSolid r := by
    induction r with
    | nil => rfl
    | cons c r ih =>
      cases blank : isBlank c with
      | false => simp [nextSolid, solid, blank]
      | true => simpa [nextSolid, solid, blank] using ih
  induction t generalizing word before with
  | nil => rfl
  | cons c r ih =>
    cases blank : isBlank c with
    | false =>
      simp only [tightenAngleFrom, sieve, blank, Bool.and_false, Bool.false_and, Bool.false_eq_true,
        if_false]
      rw [ih (isWord c) (some c) (Or.inl rfl)]
    | true =>
      rw [nextSolid_cons_blank _ blank] at known
      by_cases angle : nextSolid r = some '<'
      · obtain known | ⟨-, other⟩ := known
        · subst known
          cases word : before.any isWord with
          | true =>
            simp only [tightenAngleFrom, sieve, blank, word, next, angle, Bool.and_true, beq_self_eq_true,
              if_true]
            exact ih true before (Or.inl word.symm)
          | false =>
            simp only [tightenAngleFrom, sieve, blank, word, next, angle, Bool.and_true,
              Bool.false_and, Bool.false_eq_true, if_true, if_false, plain c blank]
            rw [ih false before (Or.inl word.symm)]
        · exact absurd angle other
      · have other : (nextSolid r == some '<') = false := by simpa using angle
        simp only [tightenAngleFrom, sieve, blank, next, other, Bool.and_false, Bool.false_eq_true,
          if_true, if_false, plain c blank]
        rw [ih false before (Or.inr ⟨rfl, angle⟩)]

/-- Writes the characters that are not blank, with one space between two of them where `keep` asks
for one. `before` is the last of them and the flag says whether blanks stand behind it. -/
def spaceFrom (keep : Char → Char → Bool → Bool) : (before : Option Char) → (gap : Bool) → Text → Text
  | _, _, [] => []
  | before, gap, c :: r =>
    if isBlank c then spaceFrom keep before true r
    else (if before.any (keep · c gap) then [' '] else []) ++ c :: spaceFrom keep (some c) false r

theorem spaceFrom_words (t : Text) :
    (∀ b, spaceFrom (fun _ _ gap => gap) (some b) true t =
      if words t = [] then [] else ' ' :: join [' '] (words t)) ∧
    (∀ b, isBlank b = false →
      b :: spaceFrom (fun _ _ gap => gap) (some b) false t = join [' '] (words (b :: t))) ∧
    ∀ gap, spaceFrom (fun _ _ gap => gap) none gap t = join [' '] (words t) := by
  induction t with
  | nil => simp +contextual [spaceFrom, words, splitWhere, join]
  | cons c r ih =>
    obtain ⟨behind, inside, front⟩ := ih
    cases blank : isBlank c with
    | true =>
      refine ⟨fun b => ?_, fun b visible => ?_, fun gap => ?_⟩
      · simp [spaceFrom, blank, words_cons_blank, behind]
      · have alone : words (b :: c :: r) = [b] :: words r := by
          simp [words, splitWhere, visible, blank]
        simp only [spaceFrom, blank, if_true, behind, alone, join_cons]
        split <;> simp
      · simp [spaceFrom, blank, words_cons_blank, front]
    | false =>
      obtain ⟨piece, rest, pieces, whole⟩ := words_cons_solid r blank
      refine ⟨fun b => ?_, fun b visible => ?_, fun gap => ?_⟩
      · simp [spaceFrom, blank, inside, whole]
      · have longer : words (b :: c :: r) = (b :: c :: piece) :: rest.filter (· ≠ []) := by
          simp [words, splitWhere, visible, blank, pieces]
        simp [spaceFrom, blank, inside, whole, longer, join_cons]
      · simp [spaceFrom, blank, inside]

/-- The last character of a text that is not blank, or the one before it. -/
def lastSolid (before : Option Char) (t : Text) : Option Char := (nextSolid t.reverse).or before

theorem lastSolid_cons_blank {c : Char} (before : Option Char) (r : Text) (blank : isBlank c = true) :
    lastSolid before (c :: r) = lastSolid before r := by
  simp [lastSolid, nextSolid, solid, blank]

theorem lastSolid_cons_solid {c : Char} (before : Option Char) (r : Text)
    (visible : isBlank c = false) : lastSolid before (c :: r) = lastSolid (some c) r := by
  simp [lastSolid, nextSolid, solid, visible]

theorem sieve_spaceFrom (keep : Char → Char → Bool → Bool) (drop : Option Char → Option Char → Bool)
    (before : Option Char) (gap : Bool) (t tail : Text) :
    sieve drop before (spaceFrom keep before gap t ++ tail) =
      spaceFrom (fun a b gap => keep a b gap && !drop (some a) (some b)) before gap t ++
        sieve drop (lastSolid before t) tail := by
  induction t generalizing before gap with
  | nil => simp [spaceFrom, lastSolid, nextSolid]
  | cons c r ih =>
    cases blank : isBlank c with
    | true => simp [spaceFrom, blank, ih, lastSolid_cons_blank]
    | false =>
      rw [lastSolid_cons_solid _ _ blank]
      have space : isBlank ' ' = true := by decide
      cases before with
      | none => simp [spaceFrom, blank, sieve, ih]
      | some a =>
        cases kept : keep a c gap <;> cases dropped : drop (some a) (some c) <;>
          simp [spaceFrom, blank, sieve, ih, kept, dropped, space, nextSolid_cons_solid]

/-- Spaces behind commas, as `spaceCommas` puts them. A comma that was read last owes its space. -/
theorem spaceFrom_commas (keep : Char → Char → Bool → Bool)
    (tight : ∀ b gap, keep ',' b gap = false) (before : Option Char) (gap : Bool) (t : Text) :
    (if before = some ',' then [' '] else []) ++
        (spaceFrom keep before gap t).flatMap (fun c => if c == ',' then [',', ' '] else [c]) =
      spaceFrom (fun a b gap => a == ',' || keep a b gap) before gap t ++
        if lastSolid before t = some ',' then [' '] else [] := by
  induction t generalizing before gap with
  | nil =>
    rw [show lastSolid before [] = before from rfl]
    simp [spaceFrom]
  | cons c r ih =>
    cases blank : isBlank c with
    | true => simpa [spaceFrom, blank, lastSolid_cons_blank] using ih before true
    | false =>
      have later := ih (some c) false
      rw [lastSolid_cons_solid _ _ blank]
      simp only [spaceFrom, blank, Bool.false_eq_true, if_false, List.append_assoc, List.cons_append,
        List.flatMap_append, List.flatMap_cons]
      rw [← later]
      have lead : (if before = some ',' then [' '] else []) ++
          ((if before.any (keep · c gap) then [' '] else []) : Text).flatMap
            (fun c => if c == ',' then [',', ' '] else [c]) =
          if before.any (fun a => a == ',' || keep a c gap) then [' '] else [] := by
        cases before with
        | none => rfl
        | some a =>
          by_cases comma : a = ','
          · simp [comma, tight]
          · cases kept : keep a c gap <;> simp [comma, kept]
      rw [← List.append_assoc, lead]
      by_cases comma : c = ',' <;> simp [comma]

/-- Whether a blank between two characters stays when it is not behind a comma. -/
def keepsBlank (a b : Char) : Bool :=
  !(isOpening a || isClosing b || isWord a && b == '<' || a == '&' || b == ',')

/-- Whether a space stands between two characters in normal spelling, given whether blanks stood
there. -/
def spacing (a b : Char) (gap : Bool) : Bool := a == ',' || gap && keepsBlank a b

theorem head?_spaceFrom (keep : Char → Char → Bool → Bool) (gap : Bool) (t : Text) :
    (spaceFrom keep none gap t).head? = nextSolid t := by
  induction t generalizing gap with
  | nil => rfl
  | cons c r ih =>
    cases blank : isBlank c with
    | true => simp [spaceFrom, blank, ih, nextSolid_cons_blank]
    | false => simp [spaceFrom, blank, nextSolid_cons_solid]

theorem getLast?_spaceFrom (keep : Char → Char → Bool → Bool) (before : Option Char) (gap : Bool)
    (t : Text) : (spaceFrom keep before gap t).getLast?.or before = lastSolid before t := by
  induction t generalizing before gap with
  | nil => simp [spaceFrom, lastSolid, nextSolid]
  | cons c r ih =>
    cases blank : isBlank c with
    | true => simp [spaceFrom, blank, ih, lastSolid_cons_blank]
    | false =>
      rw [lastSolid_cons_solid _ _ blank, ← ih (some c) false]
      simp only [spaceFrom, blank, Bool.false_eq_true, if_false, List.getLast?_append,
        List.getLast?_cons]
      cases (spaceFrom keep (some c) false r).getLast? <;> simp

theorem isOpening_of_isBlank {c : Char} (blank : isBlank c = true) : isOpening c = false := by
  cases found : isOpening c with
  | false => rfl
  | true =>
    simp only [isOpening, Bool.or_eq_true, beq_iff_eq] at found
    rcases found with (rfl | rfl) | rfl <;> exact absurd blank (by decide)

theorem isClosing_of_isBlank {c : Char} (blank : isBlank c = true) : isClosing c = false := by
  cases found : isClosing c with
  | false => rfl
  | true =>
    simp only [isClosing, Bool.or_eq_true, beq_iff_eq] at found
    rcases found with (rfl | rfl) | rfl <;> exact absurd blank (by decide)

theorem ne_of_isBlank {mark c : Char} (visible : isBlank mark = false) (blank : isBlank c = true) :
    (c == mark) = false := by
  rw [beq_eq_false_iff_ne]
  rintro rfl
  rw [visible] at blank
  cases blank

theorem spaceFrom_congr {keep other : Char → Char → Bool → Bool}
    (same : ∀ a b gap, keep a b gap = other a b gap) (before : Option Char) (gap : Bool) (t : Text) :
    spaceFrom keep before gap t = spaceFrom other before gap t := by
  have equal : keep = other := funext fun a => funext fun b => funext fun gap => same a b gap
  rw [equal]

/-- Where blanks are left by the steps that look at brackets. -/
def bracketSpacing (a b : Char) (gap : Bool) : Bool :=
  gap && !(isOpening a || isClosing b || isWord a && b == '<')

/-- Where blanks are left when those around commas are dropped too. -/
def commaSpacing (a b : Char) (gap : Bool) : Bool :=
  bracketSpacing a b gap && !(a == ',' || b == ',')

/-- The space that a comma at the end of a text takes. -/
def commaTail (t : Text) : Text := if lastSolid none t = some ',' then [' '] else []

theorem tightenAfter_eq_sieve (p : Char → Bool) (plain : ∀ c, isBlank c = true → p c = false)
    (t : Text) : tightenAfter p t = sieve (fun a _ => a.any p) none t :=
  tightenAfterFrom_eq_sieve p plain none t

theorem brackets_eq_spaceFrom (t : Text) :
    tightenAngle (tightenBefore isClosing (tightenAfter isOpening (join [' '] (words t)))) =
      spaceFrom bracketSpacing none false t := by
  have angled := fun r => tightenAngleFrom_eq_sieve false none r (Or.inl rfl)
    fun _ => isWord_of_isBlank
  rw [← (spaceFrom_words t).2.2 false, tightenAfter_eq_sieve _ fun _ => isOpening_of_isBlank,
    tightenBefore_eq_sieve _ (fun _ => isClosing_of_isBlank) none, sieve_sieve, tightenAngle, angled,
    sieve_sieve, ← List.append_nil (spaceFrom _ none _ t), sieve_spaceFrom]
  simp only [sieve, List.append_nil]
  apply spaceFrom_congr
  intro a b gap
  cases gap <;> simp [bracketSpacing]

theorem spaceCommas_eq_spaceFrom (t : Text) :
    spaceCommas (spaceFrom bracketSpacing none false t) =
      spaceFrom (fun a b gap => a == ',' || commaSpacing a b gap) none false t ++ commaTail t := by
  have plain : ∀ c, isBlank c = true → (c == ',') = false := fun _ => ne_of_isBlank (by decide)
  have bare : tightenAfter (· == ',') (tightenBefore (· == ',')
      (spaceFrom bracketSpacing none false t)) = spaceFrom commaSpacing none false t := by
    rw [tightenBefore_eq_sieve _ plain none, tightenAfter_eq_sieve _ plain, sieve_sieve,
      ← List.append_nil (spaceFrom _ none _ t), sieve_spaceFrom]
    simp only [sieve, List.append_nil]
    apply spaceFrom_congr
    intro a b gap
    simp [commaSpacing, Bool.or_comm]
  have written := spaceFrom_commas commaSpacing (by simp [commaSpacing]) none false t
  simpa [spaceCommas, bare, commaTail] using written

theorem references_eq_spaceFrom (t : Text) :
    tightenAfter (· == '&') (spaceCommas (spaceFrom bracketSpacing none false t)) =
      spaceFrom spacing none false t ++ commaTail t := by
  have plain : ∀ c, isBlank c = true → (c == '&') = false := fun _ => ne_of_isBlank (by decide)
  have tail : sieve (fun a _ => a.any (· == '&')) (lastSolid none t) (commaTail t) = commaTail t := by
    by_cases comma : lastSolid none t = some ','
    · simp [commaTail, comma, sieve, show isBlank ' ' = true by decide]
    · simp [commaTail, comma, sieve]
  rw [spaceCommas_eq_spaceFrom, tightenAfter_eq_sieve _ plain, sieve_spaceFrom, tail]
  congr 1
  apply spaceFrom_congr
  intro a b gap
  cases comma : a == ',' with
  | true =>
    have here : a = ',' := by simpa using comma
    simp [spacing, here]
  | false =>
    cases gap <;> simp [spacing, commaSpacing, bracketSpacing, keepsBlank, comma, Bool.and_comm,
      Bool.and_assoc, Bool.and_left_comm]

/-- The normal spelling depends on the characters that are not blank and on where blanks part two of
them. -/
theorem normalize_eq_spaceFrom (t : Text) : normalize t = spaceFrom spacing none false t := by
  have blanks : ∀ c ∈ commaTail t, isBlank c = true := by
    intro c member
    unfold commaTail at member
    split at member
    · rw [List.mem_singleton.mp member]
      decide
    · cases member
  simp only [normalize, brackets_eq_spaceFrom, references_eq_spaceFrom]
  apply trim_append_blanks _ _ blanks
  · rw [head?_spaceFrom]
    exact fun c found => solid_of_nextSolid found
  · intro c found
    have last := getLast?_spaceFrom spacing none false t
    rw [Option.or_none] at last
    rw [last, lastSolid, Option.or_none] at found
    exact solid_of_nextSolid found

/-- A text that is spaced out stays as it is where `keep` asks again for the spaces that stand there
and for no others. -/
theorem spaceFrom_spaceFrom {keep : Char → Char → Bool → Bool}
    (stable : ∀ a b gap, keep a b (keep a b gap) = keep a b gap) (before : Option Char) (gap : Bool)
    (t : Text) : spaceFrom keep before false (spaceFrom keep before gap t) =
      spaceFrom keep before gap t := by
  induction t generalizing before gap with
  | nil => rfl
  | cons c r ih =>
    cases blank : isBlank c with
    | true => simpa [spaceFrom, blank] using ih before true
    | false =>
      have later := ih (some c) false
      have space : isBlank ' ' = true := by decide
      cases before with
      | none => simp [spaceFrom, blank, later]
      | some a =>
        have again := stable a c gap
        cases kept : keep a c gap with
        | true =>
          rw [kept] at again
          simp [spaceFrom, blank, later, kept, again, space]
        | false =>
          rw [kept] at again
          simp [spaceFrom, blank, later, kept, again]

theorem normalize_normalize (t : Text) : normalize (normalize t) = normalize t := by
  rw [normalize_eq_spaceFrom t, normalize_eq_spaceFrom]
  apply spaceFrom_spaceFrom
  intro a b gap
  rw [spacing, spacing]
  cases a == ',' <;> cases keepsBlank a b <;> cases gap <;> rfl

/-- The normal spelling has no blanks at its ends. -/
theorem trim_eq_of_normal {t : Text} (normal : normalize t = t) : trim t = t := by
  rw [normalize_eq_spaceFrom] at normal
  apply trim_eq_self
  · rw [← normal, head?_spaceFrom]
    exact fun c found => solid_of_nextSolid found
  · intro c found
    have last := getLast?_spaceFrom spacing none false t
    rw [normal, Option.or_none] at last
    rw [last, lastSolid, Option.or_none] at found
    exact solid_of_nextSolid found

theorem filter_solid_spaceFrom (keep : Char → Char → Bool → Bool) (before : Option Char) (gap : Bool)
    (t : Text) : (spaceFrom keep before gap t).filter solid = t.filter solid := by
  induction t generalizing before gap with
  | nil => rfl
  | cons c r ih =>
    have space : solid ' ' = false := by decide
    cases blank : isBlank c with
    | true => simp [spaceFrom, blank, ih, solid]
    | false =>
      have spaces : ∀ b : Bool, (if b then [' '] else []).filter solid = [] := by decide
      simp [spaceFrom, blank, ih, spaces, solid]

/-- Whatever stands in front, a text is spelled from a visible character on as it is spelled alone. -/
theorem normalize_suffix (front : Text) {c : Char} (visible : isBlank c = false) (r : Text) :
    normalize (c :: r) <:+ normalize (front ++ c :: r) := by
  have alone : normalize (c :: r) = c :: spaceFrom spacing (some c) false r := by
    simp [normalize_eq_spaceFrom, spaceFrom, visible]
  have ends : ∀ before gap, c :: spaceFrom spacing (some c) false r <:+
      spaceFrom spacing before gap (front ++ c :: r) := by
    induction front with
    | nil =>
      intro before gap
      simp only [List.nil_append, spaceFrom, visible, Bool.false_eq_true, if_false]
      exact List.suffix_append _ _
    | cons d front ih =>
      intro before gap
      rw [List.cons_append, spaceFrom]
      split
      · exact ih before true
      · exact (ih (some d) false).trans ((List.suffix_cons d _).trans (List.suffix_append _ _))
  rw [alone, normalize_eq_spaceFrom]
  exact ends none false

/-- A text that ends in another and has as many visible characters begins where that one does. -/
theorem eq_of_suffix {u : Text} {c : Char} {r : Text} (visible : isBlank c = false)
    (ends : u <:+ c :: r) (same : u.filter solid = (c :: r).filter solid) : u = c :: r := by
  obtain ⟨front, whole⟩ := ends
  cases front with
  | nil => exact whole
  | cons d front =>
    obtain rfl : d = c := List.head_eq_of_cons_eq whole
    have counted : solid d = true := by simp [solid, visible]
    have length := congrArg List.length (same.trans (congrArg (List.filter solid) whole.symm))
    simp only [List.cons_append, List.filter_cons_of_pos counted, List.filter_append, List.length_cons,
      List.length_append] at length
    omega

/-- A text in normal spelling is in normal spelling from any visible character on. -/
theorem normalize_behind {front : Text} {c : Char} {r : Text} (visible : isBlank c = false)
    (normal : normalize (front ++ c :: r) = front ++ c :: r) : normalize (c :: r) = c :: r := by
  have written := normalize_suffix front visible r
  have kept : (normalize (c :: r)).filter solid = (c :: r).filter solid := by
    rw [normalize_eq_spaceFrom, filter_solid_spaceFrom]
  rw [normal] at written
  rcases List.suffix_or_suffix_of_suffix written (List.suffix_append front (c :: r)) with short | long
  · exact eq_of_suffix visible short kept
  · have alone : normalize (c :: r) = c :: spaceFrom spacing (some c) false r := by
      simp [normalize_eq_spaceFrom, spaceFrom, visible]
    rw [alone] at long kept ⊢
    exact (eq_of_suffix visible long kept.symm).symm

/-- Wherever `u` stands, from its first character to its last, its normal spelling is `v`. -/
structure Settles (first : Char) (u v : Text) (last : Char) : Prop where
  firstSolid : isBlank first = false
  lastSolid : isBlank last = false
  spell : ∀ before gap rest, spaceFrom spacing before gap (u ++ rest) =
    (if before.any (spacing · first gap) then [' '] else []) ++ v ++
      spaceFrom spacing (some last) false rest

theorem spaceFrom_blanks (keep : Char → Char → Bool → Bool) (before : Option Char) (gap : Bool)
    {blanks : Text} (blank : ∀ c ∈ blanks, isBlank c = true) (rest : Text) :
    spaceFrom keep before gap (blanks ++ rest) =
      spaceFrom keep before (gap || !blanks.isEmpty) rest := by
  induction blanks generalizing gap with
  | nil => simp
  | cons c blanks ih =>
    have later := ih true fun d member => blank d (List.mem_cons_of_mem _ member)
    simp [spaceFrom, blank c (by simp), later]

namespace Settles

/-- Two texts with blanks between them. -/
theorem append {a b y z : Char} {u v u' v' blanks : Text} (front : Settles a u v z)
    (back : Settles b u' v' y) (blank : ∀ c ∈ blanks, isBlank c = true) :
    Settles a (u ++ (blanks ++ u')) (v ++ ((if spacing z b (!blanks.isEmpty) then [' '] else []) ++ v'))
      y where
  firstSolid := front.firstSolid
  lastSolid := back.lastSolid
  spell before gap rest := by
    simp only [List.append_assoc]
    rw [front.spell, spaceFrom_blanks _ _ _ blank, back.spell]
    simp

/-- Two texts with nothing between them. -/
theorem next {a b y z : Char} {u v u' v' : Text} (front : Settles a u v z) (back : Settles b u' v' y)
    (plain : z ≠ ',') : Settles a (u ++ u') (v ++ v') y := by
  have none : ∀ c ∈ ([] : Text), isBlank c = true := by simp
  simpa [spacing, plain] using front.append back none

/-- Behind a comma a space stands in normal spelling, whatever stood there. -/
theorem behindComma {a b y : Char} {u v u' v' blanks : Text} (front : Settles a u v ',')
    (back : Settles b u' v' y) (blank : ∀ c ∈ blanks, isBlank c = true) :
    Settles a (u ++ (blanks ++ u')) (v ++ ([' '] ++ v')) y := by
  simpa [spacing] using front.append back blank

/-- A space between two characters that keep one. -/
theorem spaced {a b y z : Char} {u v u' v' : Text} (front : Settles a u v z) (back : Settles b u' v' y)
    (kept : keepsBlank z b = true) : Settles a (u ++ ([' '] ++ u')) (v ++ ([' '] ++ v')) y := by
  have space : ∀ c ∈ [' '], isBlank c = true := by decide
  simpa [spacing, kept] using front.append back space

theorem solid {u : Text} {c z : Char} (clean : ∀ d ∈ c :: u, isBlank d = false ∧ d ≠ ',')
    (last : (c :: u).getLast? = some z) : Settles c (c :: u) (c :: u) z := by
  induction u generalizing c with
  | nil =>
    obtain rfl : c = z := by simpa using last
    have visible := (clean c (by simp)).1
    exact ⟨visible, visible, fun before gap rest => by simp [spaceFrom, visible]⟩
  | cons d u ih =>
    have later := ih (fun e member => clean e (List.mem_cons_of_mem _ member)) (by simpa using last)
    have visible := (clean c (by simp)).1
    refine ⟨visible, later.lastSolid, fun before gap rest => ?_⟩
    have tight : spacing c d false = false := by simpa [spacing] using (clean c (by simp)).2
    have next := later.spell (some c) false rest
    simp only [Option.any_some, tight, Bool.false_eq_true, if_false, List.nil_append] at next
    simp only [List.cons_append, spaceFrom, visible, Bool.false_eq_true, if_false] at next ⊢
    rw [next]
    simp

/-- A text in normal spelling on its own. -/
theorem normalize_eq {a z : Char} {u v : Text} (settled : Settles a u v z) : normalize u = v := by
  rw [normalize_eq_spaceFrom]
  simpa [spaceFrom] using settled.spell none false []

end Settles

end TestSkeleton.Signature
