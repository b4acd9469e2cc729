import TestSkeleton.Text.Basic

/-! UTF-8: from bytes to text and back.

Reading names the first byte sequence that is not part of any character, with its place and why it
was refused. -/

namespace TestSkeleton

/-- The content of a file. -/
abbrev Bytes := List UInt8

inductive Utf8Fault where
  | invalidStart
  | invalidContinuation
  | unexpectedEnd
  deriving DecidableEq, Repr

/-- The bytes that could not be read: their place, their number and the first of them. -/
structure Utf8Error where
  start : Nat
  count : Nat
  first : UInt8
  fault : Utf8Fault
  deriving DecidableEq, Repr

namespace Utf8Fault

def description : Utf8Fault → Text
  | invalidStart => "invalid start byte".toList
  | invalidContinuation => "invalid continuation byte".toList
  | unexpectedEnd => "unexpected end of data".toList

end Utf8Fault

namespace Utf8Error

def twoHexDigits (b : UInt8) : Text := (b.toNat / 16).digitChar :: [(b.toNat % 16).digitChar]

def message (e : Utf8Error) : Text :=
  let place := if e.count = 1 then
      "byte 0x".toList ++ twoHexDigits e.first ++ " in position ".toList ++ Text.ofNat e.start
    else
      "bytes in position ".toList ++ Text.ofNat e.start ++ ['-'] ++
        Text.ofNat (e.start + e.count - 1)
  "'utf-8' codec can't decode ".toList ++ place ++ ": ".toList ++ e.fault.description

end Utf8Error

namespace Utf8

/-- A character of which some bytes were read: where it starts, its first byte, the bytes read and
those still owed, the range of the next byte, and the bits read. -/
structure Pending where
  start : Nat
  first : UInt8
  read : Nat
  owed : Nat
  low : Nat
  high : Nat
  bits : Nat

/-- The state after the first byte of a character of several bytes. -/
def lead? (start : Nat) (b : UInt8) : Option Pending :=
  let n := b.toNat
  if 0xC2 ≤ n && n ≤ 0xDF then some ⟨start, b, 1, 1, 0x80, 0xBF, n - 0xC0⟩
  else if n == 0xE0 then some ⟨start, b, 1, 2, 0xA0, 0xBF, 0⟩
  else if n == 0xED then some ⟨start, b, 1, 2, 0x80, 0x9F, n - 0xE0⟩
  else if 0xE1 ≤ n && n ≤ 0xEF then some ⟨start, b, 1, 2, 0x80, 0xBF, n - 0xE0⟩
  else if n == 0xF0 then some ⟨start, b, 1, 3, 0x90, 0xBF, 0⟩
  else if 0xF1 ≤ n && n ≤ 0xF3 then some ⟨start, b, 1, 3, 0x80, 0xBF, n - 0xF0⟩
  else if n == 0xF4 then some ⟨start, b, 1, 3, 0x80, 0x8F, n - 0xF0⟩
  else none

/-- Reads the rest of the bytes from a place, with a character pending or none. -/
def decodeFrom : Option Pending → Nat → Bytes → Except Utf8Error Text
  | none, _, [] => .ok []
  | some p, _, [] => .error ⟨p.start, p.read, p.first, .unexpectedEnd⟩
  | none, place, b :: r =>
    if b.toNat < 0x80 then (Char.ofNat b.toNat :: ·) <$> decodeFrom none (place + 1) r
    else match lead? place b with
      | some p => decodeFrom (some p) (place + 1) r
      | none => .error ⟨place, 1, b, .invalidStart⟩
  | some p, place, b :: r =>
    if p.low ≤ b.toNat && b.toNat ≤ p.high then
      let bits := p.bits * 64 + (b.toNat - 0x80)
      if p.owed ≤ 1 then (Char.ofNat bits :: ·) <$> decodeFrom none (place + 1) r
      else decodeFrom
        (some { p with read := p.read + 1, owed := p.owed - 1, low := 0x80, high := 0xBF, bits })
        (place + 1) r
    else .error ⟨p.start, p.read, p.first, .invalidContinuation⟩

def decode (bytes : Bytes) : Except Utf8Error Text := decodeFrom none 0 bytes

def encodeChar (c : Char) : Bytes :=
  let n := c.toNat
  let tail (k : Nat) : UInt8 := UInt8.ofNat (0x80 + n / Nat.pow 64 k % 64)
  if n < 0x80 then [UInt8.ofNat n]
  else if n < 0x800 then [UInt8.ofNat (0xC0 + n / 64), tail 0]
  else if n < 0x10000 then [UInt8.ofNat (0xE0 + n / Nat.pow 64 2), tail 1, tail 0]
  else [UInt8.ofNat (0xF0 + n / Nat.pow 64 3), tail 2, tail 1, tail 0]

def encode (t : Text) : Bytes := t.flatMap encodeChar

end Utf8

end TestSkeleton
