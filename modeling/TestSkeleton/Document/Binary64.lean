import TestSkeleton.Text.Basic

/-! Floating-point numbers of 64 bits: from decimals, and to the shortest decimals that read back.

All arithmetic is on natural numbers, so nothing here depends on the machine. -/

namespace TestSkeleton

/-- A number with a mantissa below `2 ^ 53`, times a power of two. -/
inductive Binary64 where
  | finite (negative : Bool) (mantissa : Nat) (exponent : Int)
  | infinite (negative : Bool)
  | notANumber
  deriving DecidableEq, Repr

namespace Binary64

def minExponent : Int := -1074

def maxExponent : Int := 971

/-- The quotient rounded to the nearest number, a half to the even one. -/
def roundDiv (num den : Nat) : Nat :=
  let quotient := num / den
  let twice := 2 * (num % den)
  if twice < den then quotient
  else if den < twice then quotient + 1
  else quotient + quotient % 2

/-- The ratio divided by a power of `base`, as a ratio again. -/
def unscale (base num den : Nat) : Int → Nat × Nat
  | .ofNat e => (num, den * Nat.pow base e)
  | .negSucc e => (num * Nat.pow base (e + 1), den)

/-- The number nearest to a ratio. -/
def ofRatio (negative : Bool) (num den : Nat) : Binary64 :=
  if num = 0 then finite negative 0 minExponent
  else
    let first : Int := (Nat.log2 num : Int) - Nat.log2 den - 52
    let (n, d) := unscale 2 num den first
    let exponent := max minExponent (if n < Nat.pow 2 52 * d then first - 1 else first)
    let (n, d) := unscale 2 num den exponent
    let mantissa := roundDiv n d
    let (mantissa, exponent) :=
      if mantissa = Nat.pow 2 53 then (Nat.pow 2 52, exponent + 1) else (mantissa, exponent)
    if maxExponent < exponent then infinite negative else finite negative mantissa exponent

/-- The number nearest to `digits * 10 ^ exponent`. -/
def ofDecimal (negative : Bool) (digits : Nat) (exponent : Int) : Binary64 :=
  let magnitude := (Nat.log2 digits : Int) + 10 * exponent / 3
  if digits = 0 ∨ magnitude < -1200 - Nat.log2 digits then finite negative 0 minExponent
  else if 1200 + (Nat.log2 digits : Int) < magnitude then infinite negative
  else match exponent with
    | .ofNat e => ofRatio negative (digits * Nat.pow 10 e) 1
    | .negSucc e => ofRatio negative digits (Nat.pow 10 (e + 1))

/-- The ratio of a mantissa times a power of two. -/
def ratio (mantissa : Nat) : Int → Nat × Nat
  | .ofNat e => (mantissa * Nat.pow 2 e, 1)
  | .negSucc e => (mantissa, Nat.pow 2 (e + 1))

def negate : Binary64 → Binary64
  | finite negative mantissa exponent => finite (!negative) mantissa exponent
  | infinite negative => infinite (!negative)
  | notANumber => notANumber

/-- The product with a natural number, rounded. -/
def scale (f : Binary64) (k : Nat) : Binary64 :=
  match f with
  | finite negative mantissa exponent =>
    let (num, den) := ratio mantissa exponent
    ofRatio negative (num * k) den
  | f => f

/-- The sum, rounded. -/
def add : Binary64 → Binary64 → Binary64
  | finite negativeA a e, finite negativeB b f =>
    let (numA, denA) := ratio a e
    let (numB, denB) := ratio b f
    let side (negative : Bool) (n : Nat) : Int := if negative then -n else n
    let sum := side negativeA (numA * denB) + side negativeB (numB * denA)
    ofRatio (sum < 0 || (sum = 0 && negativeA && negativeB)) sum.natAbs (denA * denB)
  | infinite a, infinite b => if a = b then infinite a else notANumber
  | infinite a, finite _ _ _ => infinite a
  | finite _ _ _, infinite b => infinite b
  | _, _ => notANumber

/-- The number of digits in front of the decimal point of a ratio; zeros behind the point count
below zero. -/
def pointPlace (num den : Nat) : Int :=
  let guess : Int := (Nat.toDigits 10 num).length - (Nat.toDigits 10 den).length
  let (n, d) := unscale 10 num den guess
  if n < d then guess else guess + 1

/-- The decimals of `count` digits on both sides of a ratio that read back, the nearer first. -/
def readingBack (mantissa : Nat) (exponent : Int) (num den : Nat) (place : Int) (count : Nat) :
    List (Nat × Int) :=
  let scale := place - count
  let (n, d) := unscale 10 num den scale
  let below := n / d
  let twice := 2 * (n % d)
  let upFirst := d < twice ∨ (twice = d ∧ below % 2 = 1)
  let order := if upFirst then [below + 1, below] else [below, below + 1]
  (order.filter fun digits => ofDecimal false digits scale = finite false mantissa exponent).map
    fun digits => (digits, scale)

/-- The decimal of fewest digits that reads back, and the nearest of those; seventeen digits always
do. -/
def shortest (mantissa : Nat) (exponent : Int) : Nat × Int :=
  let (num, den) := ratio mantissa exponent
  let place := pointPlace num den
  let found := (List.range' 1 17).findSome? fun count =>
    (readingBack mantissa exponent num den place count).head?
  found.getD (0, 0)

/-- Digits with the point behind the first `place` of them. Numbers from `10 ^ 16` on and below
`10 ^ -4` are written with an exponent of two digits at least. -/
def layOut (digits : Text) (place : Int) : Text :=
  let zeros (n : Int) : Text := List.replicate n.toNat '0'
  if -4 < place ∧ place ≤ 16 then
    if place ≤ 0 then "0.".toList ++ zeros (-place) ++ digits
    else if digits.length ≤ place.toNat then digits ++ zeros (place - digits.length) ++ ".0".toList
    else digits.take place.toNat ++ ['.'] ++ digits.drop place.toNat
  else
    let fraction := if digits.length ≤ 1 then [] else '.' :: digits.drop 1
    let exponent := place - 1
    let power := Text.ofNat exponent.natAbs
    digits.take 1 ++ fraction ++ ['e', if exponent < 0 then '-' else '+'] ++
      zeros (2 - power.length) ++ power

def text : Binary64 → Text
  | finite negative mantissa exponent =>
    let sign : Text := if negative then ['-'] else []
    if mantissa = 0 then sign ++ "0.0".toList
    else
      let (digits, scale) := shortest mantissa exponent
      let shown := Text.ofNat digits
      sign ++ layOut (Text.dropEndWhile (· == '0') shown) (shown.length + scale)
  | infinite negative => (if negative then ['-'] else []) ++ "inf".toList
  | notANumber => "nan".toList

/-- The integer of the same value, if there is one. -/
def toInt? : Binary64 → Option Int
  | finite negative mantissa exponent =>
    let (num, den) := ratio mantissa exponent
    if num % den = 0 then
      let size : Int := (num / den : Nat)
      some (if negative then -size else size)
    else none
  | _ => none

end Binary64

end TestSkeleton
