import Mathlib.Logic.Relation
import TestSkeleton.Assertion.Rust
import TestSkeleton.Assertion.V
import TestSkeleton.Literal.Rust
import TestSkeleton.Literal.V
import TestSkeleton.Policy
import TestSkeleton.Proofs.Signature.Normal

/-! Blanks that carry no meaning.

Blanks between two texts can only matter through the pair of visible characters around them. So it is
enough to look at that pair, whatever the texts are. -/

namespace TestSkeleton.Signature

open Text

/-- Where a run of blanks between `u` and `v` says nothing. -/
inductive Loose (u v : Text) : Prop
  | behind {a : Char} (last : u.getLast? = some a) (mark : a ∈ ['<', '(', '[', '&', ','])
  | ahead {b : Char} (head : v.head? = some b) (mark : b ∈ ['>', ')', ']', ','])
  | angle {a : Char} (last : u.getLast? = some a) (word : isWord a = true) (head : v.head? = some '<')

/-- A run of white space, of any length but zero. -/
def IsRun (w : Text) : Prop := w ≠ [] ∧ ∀ c ∈ w, isBlank c = true

instance (w : Text) : Decidable (IsRun w) := inferInstanceAs (Decidable (_ ∧ _))

/-- One edit of the blanks: a run that says nothing goes, or a run becomes another run. -/
inductive Respacing : Text → Text → Prop
  | drop {u v w : Text} (loose : Loose u v) (run : IsRun w) : Respacing (u ++ w ++ v) (u ++ v)
  | exchange {u v w x : Text} (run : IsRun w) (other : IsRun x) :
      Respacing (u ++ w ++ v) (u ++ x ++ v)

theorem lastSolid_of_getLast? {u : Text} {a : Char} (before : Option Char)
    (last : u.getLast? = some a) (visible : isBlank a = false) : lastSolid before u = some a := by
  rcases List.getLast?_eq_some_iff.mp last with ⟨front, rfl⟩
  simp [lastSolid, nextSolid, solid, visible]

theorem nextSolid_of_head? {v : Text} {b : Char} (head : v.head? = some b)
    (visible : isBlank b = false) : nextSolid v = some b := by
  rcases List.head?_eq_some_iff.mp head with ⟨back, rfl⟩
  exact nextSolid_cons_solid back visible

/-- What is written behind `u` depends on its last visible character and on whether `u` ends in
blanks. -/
theorem spaceFrom_append (keep : Char → Char → Bool → Bool) (before : Option Char) (gap : Bool)
    (u v : Text) :
    spaceFrom keep before gap (u ++ v) =
      spaceFrom keep before gap u ++
        spaceFrom keep (lastSolid before u) ((u.getLast?.map isBlank).getD gap) v := by
  induction u generalizing before gap with
  | nil => simp [spaceFrom, lastSolid, nextSolid]
  | cons c r ih =>
    cases blank : isBlank c with
    | true =>
      have later := ih before true
      rw [lastSolid_cons_blank _ _ blank]
      cases last : r.getLast? <;>
        simpa [spaceFrom, blank, List.getLast?_cons, last] using later
    | false =>
      have later := ih (some c) false
      rw [lastSolid_cons_solid _ _ blank]
      cases last : r.getLast? <;>
        simpa [spaceFrom, blank, List.getLast?_cons, last] using later

/-- Blanks in front of a text are not seen where the pair around them is spaced alike with and
without. -/
theorem spaceFrom_gap {keep : Char → Char → Bool → Bool} {before : Option Char} {t : Text}
    (idle : ∀ a ∈ before, ∀ b ∈ nextSolid t, keep a b true = keep a b false) (gap other : Bool) :
    spaceFrom keep before gap t = spaceFrom keep before other t := by
  cases t with
  | nil => rfl
  | cons c r =>
    cases blank : isBlank c with
    | true => simp [spaceFrom, blank]
    | false =>
      cases before with
      | none => simp [spaceFrom, blank]
      | some a =>
        have alike := idle a rfl c (nextSolid_cons_solid r blank)
        cases gap <;> cases other <;> simp [spaceFrom, blank, alike]

theorem spacing_behind {a : Char} (mark : a ∈ ['<', '(', '[', '&', ',']) (b : Char) :
    spacing a b true = spacing a b false := by
  simp only [List.mem_cons, List.not_mem_nil, or_false] at mark
  rcases mark with rfl | rfl | rfl | rfl | rfl <;> simp [spacing, keepsBlank, isOpening]

theorem spacing_ahead {b : Char} (mark : b ∈ ['>', ')', ']', ',']) (a : Char) :
    spacing a b true = spacing a b false := by
  simp only [List.mem_cons, List.not_mem_nil, or_false] at mark
  rcases mark with rfl | rfl | rfl | rfl <;> simp [spacing, keepsBlank, isClosing]

/-- At a loose place the visible characters around it are spaced alike with and without blanks. -/
theorem Loose.spacing_eq {u v : Text} (loose : Loose u v) :
    ∀ a ∈ lastSolid none u, ∀ b ∈ nextSolid v, spacing a b true = spacing a b false := by
  have opened : ∀ c ∈ ['<', '(', '[', '&', ','], isBlank c = false := by decide
  have closed : ∀ c ∈ ['>', ')', ']', ','], isBlank c = false := by decide
  intro a left b right
  cases loose with
  | @behind c last mark =>
    have visible : isBlank c = false := opened c mark
    rw [lastSolid_of_getLast? none last visible] at left
    rw [← Option.mem_some.mp left]
    exact spacing_behind mark b
  | @ahead c head mark =>
    have visible : isBlank c = false := closed c mark
    rw [nextSolid_of_head? head visible] at right
    rw [← Option.mem_some.mp right]
    exact spacing_ahead mark a
  | @angle c last word head =>
    have visible : isBlank c = false := by
      cases blank : isBlank c with
      | false => rfl
      | true => exact absurd word (by simp [isWord_of_isBlank blank])
    rw [lastSolid_of_getLast? none last visible] at left
    rw [nextSolid_of_head? head (by decide)] at right
    rw [← Option.mem_some.mp left, ← Option.mem_some.mp right]
    simp [spacing, keepsBlank, word]

theorem normalize_run (u v : Text) {w : Text} (run : IsRun w) :
    normalize (u ++ w ++ v) =
      spaceFrom spacing none false u ++ spaceFrom spacing (lastSolid none u) true v := by
  have counted : w.isEmpty = false := by simpa using run.1
  rw [normalize_eq_spaceFrom, List.append_assoc, spaceFrom_append, spaceFrom_blanks _ _ _ run.2,
    counted, Bool.not_false, Bool.or_true]

theorem normalize_drop {u v w : Text} (loose : Loose u v) (run : IsRun w) :
    normalize (u ++ w ++ v) = normalize (u ++ v) := by
  calc
    normalize (u ++ w ++ v) =
        spaceFrom spacing none false u ++ spaceFrom spacing (lastSolid none u) true v :=
      normalize_run u v run
    _ = spaceFrom spacing none false u ++
        spaceFrom spacing (lastSolid none u) ((u.getLast?.map isBlank).getD false) v := by
      rw [spaceFrom_gap loose.spacing_eq]
    _ = normalize (u ++ v) := by
      rw [normalize_eq_spaceFrom, spaceFrom_append]

theorem normalize_exchange (u v : Text) {w x : Text} (run : IsRun w) (other : IsRun x) :
    normalize (u ++ w ++ v) = normalize (u ++ x ++ v) := by
  rw [normalize_run u v run, normalize_run u v other]

theorem Respacing.normalize_eq {s t : Text} (edit : Respacing s t) : normalize s = normalize t := by
  cases edit with
  | drop loose run => exact normalize_drop loose run
  | exchange run other => exact normalize_exchange _ _ run other

/-- A chain of edits, in either direction. -/
theorem normalize_eq_of_chain {s t : Text} (chain : Relation.EqvGen Respacing s t) :
    normalize s = normalize t := by
  induction chain with
  | rel s t edit => exact edit.normalize_eq
  | refl s => rfl
  | symm s t _ same => exact same.symm
  | trans s t r _ _ first second => exact first.trans second

/-- Every edit of blanks that say nothing leaves the normal spelling alone, and with it everything
that is looked up or written for a type. -/
theorem respaced_agree :
    (∀ u v w, IsRun w → Loose u v → normalize (u ++ w ++ v) = normalize (u ++ v)) ∧
    (∀ u v w x, IsRun w → IsRun x → normalize (u ++ w ++ v) = normalize (u ++ x ++ v)) ∧
    ∀ s t, Relation.EqvGen Respacing s t →
      Rust.assertion s = Rust.assertion t ∧ V.assertion s = V.assertion t ∧
      ∀ policy : Policy,
        policy.typeMapping? s = policy.typeMapping? t ∧
        Rust.literal policy.typeMapping? s = Rust.literal policy.typeMapping? t ∧
        V.literal policy.typeMapping? s = V.literal policy.typeMapping? t := by
  refine ⟨fun u v w run loose => normalize_drop loose run, fun u v w x => normalize_exchange u v, ?_⟩
  intro s t chain
  have same := normalize_eq_of_chain chain
  refine ⟨?_, ?_, fun policy => ⟨?_, ?_, ?_⟩⟩
  · rw [Rust.assertion, Rust.assertion, same]
  · rw [V.assertion, V.assertion, same]
  · rw [Policy.typeMapping?, Policy.typeMapping?, same]
  · rw [Rust.literal, Rust.literal, same]
  · rw [V.literal, V.literal, same]

theorem respaced_vector :
    Relation.EqvGen Respacing "&\t mut Vec<\nu8 >".toList "&mut  Vec<u8>".toList ∧
      Rust.literal Policy.default.typeMapping? "&\t mut Vec<\nu8 >".toList =
        Rust.literal Policy.default.typeMapping? "&mut  Vec<u8>".toList := by
  have chain : Relation.EqvGen Respacing "&\t mut Vec<\nu8 >".toList "&mut  Vec<u8>".toList := by
    apply Relation.EqvGen.trans _ "&mut Vec<\nu8 >".toList
    · exact .rel _ _ (.drop (u := ['&']) (v := "mut Vec<\nu8 >".toList) (w := ['\t', ' '])
        (.behind rfl (by decide)) (by decide))
    apply Relation.EqvGen.trans _ "&mut Vec<u8 >".toList
    · exact .rel _ _ (.drop (u := "&mut Vec<".toList) (v := "u8 >".toList) (w := ['\n'])
        (.behind rfl (by decide)) (by decide))
    apply Relation.EqvGen.trans _ "&mut Vec<u8>".toList
    · exact .rel _ _ (.drop (u := "&mut Vec<u8".toList) (v := ['>']) (w := [' '])
        (.ahead rfl (by decide)) (by decide))
    · exact .rel _ _ (.exchange (u := "&mut".toList) (v := "Vec<u8>".toList) (w := [' '])
        (x := [' ', ' ']) (by decide) (by decide))
  exact ⟨chain, (respaced_agree.2.2 _ _ chain).2.2 Policy.default |>.2.1⟩

end TestSkeleton.Signature
