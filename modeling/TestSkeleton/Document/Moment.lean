import TestSkeleton.Text.Basic

/-! Dates and times of day. -/

namespace TestSkeleton

structure Date where
  year : Nat
  month : Nat
  day : Nat
  deriving DecidableEq, Repr

structure TimeOfDay where
  hour : Nat
  minute : Nat
  second : Nat
  micros : Nat := 0
  deriving DecidableEq, Repr

/-- A distance from universal time, in minutes. -/
structure Offset where
  minutes : Int
  deriving DecidableEq, Repr

inductive Moment where
  | date (d : Date)
  | time (t : TimeOfDay)
  | dateTime (d : Date) (t : TimeOfDay) (offset : Option Offset)
  deriving DecidableEq, Repr

namespace Date

def isLeap (year : Nat) : Bool := year % 4 == 0 && (year % 100 != 0 || year % 400 == 0)

def daysIn (year month : Nat) : Nat :=
  if month = 2 then if isLeap year then 29 else 28
  else if month ∈ [4, 6, 9, 11] then 30
  else 31

/-- Whether there is such a day in the years from 1 to 9999. -/
def isValid (d : Date) : Bool :=
  1 ≤ d.year && d.year ≤ 9999 && 1 ≤ d.month && d.month ≤ 12 && 1 ≤ d.day &&
    d.day ≤ daysIn d.year d.month

end Date

namespace TimeOfDay

def isValid (t : TimeOfDay) : Bool := t.hour < 24 && t.minute < 60 && t.second < 60

end TimeOfDay

namespace Offset

/-- An offset is less than a day. -/
def isValid (o : Offset) : Bool := o.minutes.natAbs < 24 * 60

end Offset

/-- A numeral with zeros in front up to a width. -/
def padded (width n : Nat) : Text :=
  let digits := Text.ofNat n
  List.replicate (width - digits.length) '0' ++ digits

namespace Date

def text (d : Date) : Text :=
  padded 4 d.year ++ ['-'] ++ padded 2 d.month ++ ['-'] ++ padded 2 d.day

end Date

namespace TimeOfDay

/-- Hours, minutes and seconds, with six places behind the seconds unless they are whole. -/
def text (t : TimeOfDay) : Text :=
  padded 2 t.hour ++ [':'] ++ padded 2 t.minute ++ [':'] ++ padded 2 t.second ++
    if t.micros = 0 then [] else '.' :: padded 6 t.micros

end TimeOfDay

namespace Offset

def text (o : Offset) : Text :=
  let size := o.minutes.natAbs
  (if o.minutes < 0 then '-' else '+') :: padded 2 (size / 60) ++ [':'] ++ padded 2 (size % 60)

end Offset

namespace Moment

def isValid : Moment → Bool
  | date d => d.isValid
  | time t => t.isValid
  | dateTime d t offset => d.isValid && t.isValid && offset.all Offset.isValid

def text : Moment → Text
  | date d => d.text
  | time t => t.text
  | dateTime d t offset => d.text ++ [' '] ++ t.text ++ (offset.map Offset.text).getD []

end Moment

end TestSkeleton
