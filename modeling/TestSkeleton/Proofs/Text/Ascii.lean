import Mathlib.Data.List.TakeWhile
import TestSkeleton.Text.Lines
import TestSkeleton.Text.Utf8

/-! Reading back a text of ASCII characters from the bytes of a file. -/

namespace TestSkeleton

namespace Utf8

theorem decodeFrom_encode_ascii {t : Text} (ascii : ∀ c ∈ t, c.toNat < 0x80) (place : Nat) :
    decodeFrom none place (encode t) = .ok t := by
  induction t generalizing place with
  | nil => rfl
  | cons c t ih =>
    have small := ascii c List.mem_cons_self
    have byte : (UInt8.ofNat c.toNat).toNat = c.toNat := by
      rw [UInt8.toNat_ofNat']
      omega
    have first : encode (c :: t) = UInt8.ofNat c.toNat :: encode t := by
      rw [encode, List.flatMap_cons, encodeChar]
      dsimp only
      rw [if_pos small]
      rfl
    have later := ih (fun d member => ascii d (List.mem_cons_of_mem _ member)) (place + 1)
    rw [first, decodeFrom, byte, if_pos small, later, Char.ofNat_toNat]
    rfl

theorem decode_encode_ascii {t : Text} (ascii : ∀ c ∈ t, c.toNat < 0x80) :
    decode (encode t) = .ok t :=
  decodeFrom_encode_ascii ascii 0

end Utf8

namespace Text

theorem unifyLineEnds_eq_self {t : Text} (plain : '\r' ∉ t) : unifyLineEnds t = t := by
  induction t with
  | nil => rfl
  | cons c t ih =>
    rw [List.mem_cons, not_or] at plain
    obtain ⟨other, plain⟩ := plain
    have apart : (c == '\r') = false := by simpa using Ne.symm other
    rw [unifyLineEnds]
    · rw [apart, ih plain]
      rfl
    · rintro rest rfl
      exact absurd rfl other

theorem mem_dropWhile {p : Char → Bool} {t : Text} {c : Char} (member : c ∈ t) (kept : p c = false) :
    c ∈ t.dropWhile p := by
  rw [← List.takeWhile_append_dropWhile (p := p) (l := t)] at member
  rcases List.mem_append.mp member with front | behind
  · rw [List.mem_takeWhile_imp front] at kept
    cases kept
  · exact behind

theorem mem_trim {t : Text} {c : Char} (member : c ∈ t) (visible : isBlank c = false) : c ∈ trim t := by
  have front : c ∈ trimStart t := mem_dropWhile member visible
  apply List.mem_reverse.mpr
  exact mem_dropWhile (List.mem_reverse.mpr front) visible

end Text

end TestSkeleton
