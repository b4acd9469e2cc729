import TestSkeleton.Document.Numeral
import TestSkeleton.Document.Value

/-! Scalars of YAML: what a plain spelling means, and reading a scalar of a given kind. -/

namespace TestSkeleton.Yaml

open Text

/-- What a tag, or the spelling of a plain scalar, makes of a node. -/
inductive Kind where
  | null
  | flag
  | int
  | float
  | moment
  | text
  | merge
  | standard
  | list
  | table
  | unknown
  deriving DecidableEq, Repr

/-- Why a document yields no value: it is not well formed, or a scalar does not fit its kind. -/
inductive Fault where
  | malformed
  | scalar (cause : ScalarFault)
  deriving DecidableEq, Repr

/-! Spelling -/

def capitalized : Text → Text
  | [] => []
  | c :: r => c.toUpper :: r

/-- A word in small letters, with a capital, and in capitals. -/
def spellings (word : String) : List Text :=
  [word.toList, capitalized word.toList, word.toList.map Char.toUpper]

def nullWords : List Text := [[], ['~']] ++ spellings "null"

def trueWords : List Text := ["yes", "true", "on"].flatMap spellings

def falseWords : List Text := ["no", "false", "off"].flatMap spellings

def nanWords : List Text := ["nan", "NaN", "NAN"].map String.toList

def isDigitOrUnderscore (base : Nat) (c : Char) : Bool := isDigitOf base c || c == '_'

/-- Digits that may be mixed with underscores, the first one a digit. -/
def isGrouped (t : Text) : Bool :=
  t.head?.any Char.isDigit && t.all (isDigitOrUnderscore 10)

/-- Sixtieths behind a colon: one digit, or two of which the first is below six. -/
def isSixtieth : Text → Bool
  | [c] => c.isDigit
  | [c, d] => isDigitOf 6 c && d.isDigit
  | _ => false

def spellsInt (t : Text) : Bool :=
  match (cutSign t).2 with
  | '0' :: 'b' :: r => !r.isEmpty && r.all (isDigitOrUnderscore 2)
  | '0' :: 'x' :: r => !r.isEmpty && r.all (isDigitOrUnderscore 16)
  | '0' :: r => r.all (isDigitOrUnderscore 8)
  | body =>
    match splitOn ':' body with
    | first :: rest => isGrouped first && rest.all isSixtieth
    | [] => false

/-- An exponent, which needs a sign, or nothing. -/
def isExponent : Text → Bool
  | [] => true
  | e :: sign :: digits =>
    (e == 'e' || e == 'E') && (sign == '+' || sign == '-') && !digits.isEmpty &&
      digits.all Char.isDigit
  | _ => false

def spellsFloat (t : Text) : Bool :=
  let tailFits (r : Text) : Bool := isExponent (r.dropWhile (isDigitOrUnderscore 10))
  match (cutSign t).2 with
  | '.' :: r =>
    (spellings "inf").contains r ||
      t.head? == some '.' && (nanWords.contains r || r.head?.any Char.isDigit && tailFits r)
  | body =>
    match (cutAt? (· == '.') body).map fun (whole, r) => (splitOn ':' whole, r) with
    | some ([digits], r) => isGrouped digits && tailFits r
    | some (first :: rest, r) =>
      isGrouped first && rest.all isSixtieth && r.all (isDigitOrUnderscore 10)
    | _ => false

/-! Moments -/

/-- Between `least` and `most` digits, as many as there are. -/
def takeNumber (least most : Nat) (t : Text) : Option (Nat × Text) :=
  let digits := (t.take most).takeWhile Char.isDigit
  if digits.length < least then none else some (ofDigits 10 digits, t.drop digits.length)

def takeMark (mark : Char) : Text → Option Text
  | c :: r => if c == mark then some r else none
  | [] => none

def isSpace (c : Char) : Bool := c == ' ' || c == '\t'

/-- A zone at the end of a text: none, `Z`, or hours and minutes with a sign. -/
def readZone (t : Text) : Option (Option Offset) :=
  match t.dropWhile isSpace with
  | [] => some none
  | ['Z'] => some (some ⟨0⟩)
  | sign :: r =>
    if sign == '+' || sign == '-' then do
      let (hours, r) ← takeNumber 1 2 r
      let minutes ← match r with
        | [] => some 0
        | _ => do
          let (minutes, r) ← takeNumber 2 2 (← takeMark ':' r)
          if r.isEmpty then some minutes else none
      return some ⟨signed (sign == '-') (60 * hours + minutes)⟩
    else none

/-- The first six places behind the point of the seconds. -/
def readMicros (digits : Text) : Nat :=
  ofDigits 10 ((digits ++ List.replicate 6 '0').take 6)

def readTimeOfDay (t : Text) : Option (TimeOfDay × Option Offset) := do
  let (hour, r) ← takeNumber 1 2 t
  let (minute, r) ← takeNumber 2 2 (← takeMark ':' r)
  let (second, r) ← takeNumber 2 2 (← takeMark ':' r)
  let (digits, r) := match r with
    | '.' :: r => (r.takeWhile Char.isDigit, r.dropWhile Char.isDigit)
    | r => ([], r)
  return (⟨hour, minute, second, readMicros digits⟩, ← readZone r)

/-- What separates a date from a time of day: the letter T, or spaces. -/
def readSeparator : Text → Option Text
  | [] => none
  | c :: r =>
    if c == 'T' || c == 't' then some r
    else if isSpace c then some (r.dropWhile isSpace)
    else none

/-- A date, with or without a time of day, whether or not there is such a day. -/
def readMoment (t : Text) : Option Moment := do
  let (year, r) ← takeNumber 4 4 t
  let (month, r) ← takeNumber 1 2 (← takeMark '-' r)
  let (day, r) ← takeNumber 1 2 (← takeMark '-' r)
  if r.isEmpty then return .date ⟨year, month, day⟩
  let (time, zone) ← readTimeOfDay (← readSeparator r)
  return .dateTime ⟨year, month, day⟩ time zone

/-- A plain date has two digits each for its month and its day. -/
def spellsMoment (t : Text) : Bool :=
  match readMoment t with
  | some (.date _) => t.length == 10
  | some _ => true
  | none => false

/-- What the spelling of a plain scalar means. -/
def Kind.ofPlain (t : Text) : Kind :=
  if nullWords.contains t then .null
  else if trueWords.contains t || falseWords.contains t then .flag
  else if spellsFloat t then .float
  else if spellsInt t then .int
  else if t = "<<".toList then .merge
  else if spellsMoment t then .moment
  else if t = ['='] then .standard
  else .text

/-! Reading -/

def readFlag (t : Text) : Except Fault Bool :=
  let word := lower t
  if trueWords.contains word then .ok true
  else if falseWords.contains word then .ok false
  else .error (.scalar .badFlag)

/-- Numbers separated by colons count sixty times as much from each to the one before. -/
def inSixties (parts : List Int) : Int := parts.foldl (fun n part => 60 * n + part) 0

/-- The parts of a numeral, without underscores: its sign and the rest. -/
def numeralParts (t : Text) : Except Fault (Bool × Text) :=
  let t := t.filter (· ≠ '_')
  if t.isEmpty then .error (.scalar .emptyNumber) else .ok (cutSign t)

def require {α : Type} (found : Option α) : Except Fault α :=
  match found with
  | some a => .ok a
  | none => .error (.scalar .badNumber)

/-- An integer: binary behind `0b`, hexadecimal behind `0x`, octal behind a zero, else decimal or in
sixties. -/
def readInt (t : Text) : Except Fault Int := do
  let (negative, body) ← numeralParts t
  let sign (i : Int) : Int := if negative then -i else i
  match body with
  | [] => throw (.scalar .emptyNumber)
  | ['0'] => return 0
  | '0' :: 'b' :: r => return signed negative (← require (digits? 2 r))
  | '0' :: 'x' :: r => return signed negative (← require (digits? 16 r))
  | '0' :: r => return signed negative (← require (digits? 8 r))
  | _ => return sign (inSixties (← require ((splitOn ':' body).mapM readInteger?)))

/-- A decimal with a point, an exponent, both or neither, or a name of a number without one. -/
def readDecimal? (t : Text) : Option Binary64 := do
  let (negative, body) := cutSign (lower (trim t))
  if body = "inf".toList ∨ body = "infinity".toList then return .infinite negative
  if body = "nan".toList then return .notANumber
  let whole := body.takeWhile Char.isDigit
  let (fraction, rest) := match body.drop whole.length with
    | '.' :: r => (r.takeWhile Char.isDigit, r.dropWhile Char.isDigit)
    | r => ([], r)
  if (whole ++ fraction).isEmpty then none
  let power ← match rest with
    | [] => some 0
    | 'e' :: r =>
      let (below, digits) := cutSign r
      (digits? 10 digits).map (signed below)
    | _ => none
  return Binary64.ofDecimal negative (ofDigits 10 (whole ++ fraction)) (power - fraction.length)

/-- The sum of parts separated by colons, added up from the last. -/
def sumOfSixties (parts : List Binary64) : Binary64 :=
  let step := fun (sum, base) part => (Binary64.add sum (part.scale base), base * 60)
  (parts.reverse.foldl step (Binary64.ofRatio false 0 1, 1)).1

def readFloat (t : Text) : Except Fault Binary64 := do
  let (negative, body) ← numeralParts (lower t)
  let sign (f : Binary64) : Binary64 := if negative then f.negate else f
  if body = ".inf".toList then return .infinite negative
  if body = ".nan".toList then return .notANumber
  match splitOn ':' body with
  | [whole] => return sign (← require (readDecimal? whole))
  | parts => return sign (sumOfSixties (← require (parts.mapM readDecimal?)))

def readMomentExactly (t : Text) : Except Fault Moment :=
  match readMoment t with
  | none => .error (.scalar .badMoment)
  | some m => if m.isValid then .ok m else .error (.scalar .impossibleMoment)

/-- The scalar of a kind that a text spells. -/
def readScalar (kind : Kind) (t : Text) : Except Fault Scalar :=
  match kind with
  | .null => .ok .null
  | .flag => .flag <$> readFlag t
  | .int => .int <$> readInt t
  | .float => .float <$> readFloat t
  | .moment => .moment <$> readMomentExactly t
  | .text => .ok (.text t)
  | .merge | .standard | .list | .table | .unknown => .error .malformed

end TestSkeleton.Yaml
