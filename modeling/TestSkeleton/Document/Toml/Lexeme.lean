import TestSkeleton.Document.Numeral
import TestSkeleton.Document.Value

/-! The smallest parts of TOML: keys, strings, numbers, dates and times.

A reader takes a part from the front of a text and gives it with the text behind it. -/

namespace TestSkeleton.Toml

open Text

abbrev Reader (α : Type) := Text → Option (α × Text)

def isSpace (c : Char) : Bool := c == ' ' || c == '\t'

def isSpaceOrLineEnd (c : Char) : Bool := isSpace c || c == '\n'

/-- Control characters, which neither comments nor strings of one line may hold, except the tab. -/
def isControl (c : Char) : Bool := (c.toNat < 0x20 && c != '\t') || c.toNat == 0x7F

/-- Control characters that a string of several lines may not hold. -/
def isControlInLines (c : Char) : Bool := isControl c && c != '\n'

def isBareKeyChar (c : Char) : Bool := c.isAlphanum || c == '-' || c == '_'

def skipSpaces (t : Text) : Text := t.dropWhile isSpace

/-- Passes over a comment, if there is one, up to the end of its line. -/
def skipComment (t : Text) : Option Text :=
  match t with
  | '#' :: r =>
    if (r.takeWhile (· != '\n')).any isControl then none else some (r.dropWhile (· != '\n'))
  | _ => some t

/-- A character given by its number in hexadecimal digits. -/
def readCodePoint (width : Nat) : Reader Text := fun t => do
  let digits := t.take width
  if digits.length < width then none
  let n ← digits? 16 digits
  if n < 0xD800 ∨ (0xE000 ≤ n ∧ n < 0x110000) then some ([Char.ofNat n], t.drop width) else none

/-- What a backslash and a character stand for in a string. -/
def escaped? : Char → Option Char
  | 'b' => some '\x08'
  | 't' => some '\t'
  | 'n' => some '\n'
  | 'f' => some '\x0c'
  | 'r' => some '\r'
  | '"' => some '"'
  | '\\' => some '\\'
  | _ => none

/-- The text behind a backslash. Between three quotes, a backslash at the end of a line takes away
all spaces and line ends that follow. -/
def readEscape (inLines : Bool) : Reader Text := fun t =>
  match t with
  | 'u' :: r => readCodePoint 4 r
  | 'U' :: r => readCodePoint 8 r
  | c :: r =>
    if inLines && isSpaceOrLineEnd c then
      match skipSpaces (c :: r) with
      | [] => some ([], [])
      | '\n' :: rest => some ([], rest.dropWhile isSpaceOrLineEnd)
      | _ => none
    else (escaped? c).map fun e => ([e], r)
  | [] => none

/-- The rest of a string between double quotes, one or three. -/
def readBasicWithin (inLines : Bool) : Nat → Reader Text
  | 0, _ => none
  | steps + 1, t =>
    match t with
    | [] => none
    | '"' :: r =>
      if !inLines then some ([], r)
      else match r with
        | '"' :: '"' :: rest => some ([], rest)
        | _ => (readBasicWithin inLines steps r).map fun (s, rest) => ('"' :: s, rest)
    | '\\' :: r => do
      let (piece, rest) ← readEscape inLines r
      let (s, rest) ← readBasicWithin inLines steps rest
      return (piece ++ s, rest)
    | c :: r =>
      if if inLines then isControlInLines c else isControl c then none
      else (readBasicWithin inLines steps r).map fun (s, rest) => (c :: s, rest)

def readBasic (inLines : Bool) : Reader Text := fun t => readBasicWithin inLines (t.length + 1) t

/-- The rest of a string between single quotes, in which nothing is escaped. -/
def readLiteral (inLines : Bool) : Reader Text := fun t => do
  let delimiter : Text := if inLines then ['\'', '\'', '\''] else ['\'']
  let (s, rest) ← cutAtText? delimiter t
  if s.any (if inLines then isControlInLines else isControl) then none else some (s, rest)

/-- Up to two more quotes right behind three closing ones belong to the string. -/
def takeExtraQuotes (quote : Char) : Text × Text → Text × Text
  | (s, rest) =>
    let extra := (rest.take 2).takeWhile (· == quote)
    (s ++ extra, rest.drop extra.length)

def dropFirstLineEnd : Text → Text
  | '\n' :: r => r
  | t => t

def readString : Reader Text
  | '"' :: '"' :: '"' :: r => (readBasic true (dropFirstLineEnd r)).map (takeExtraQuotes '"')
  | '"' :: r => readBasic false r
  | '\'' :: '\'' :: '\'' :: r => (readLiteral true (dropFirstLineEnd r)).map (takeExtraQuotes '\'')
  | '\'' :: r => readLiteral false r
  | _ => none

/-- One part of a key: bare, or a string on one line. -/
def readKeyPart : Reader Text
  | '"' :: r => readBasic false r
  | '\'' :: r => readLiteral false r
  | t =>
    let bare := t.takeWhile isBareKeyChar
    if bare.isEmpty then none else some (bare, t.dropWhile isBareKeyChar)

def readKeyWithin : Nat → Reader (List Text)
  | 0, _ => none
  | steps + 1, t => do
    let (part, rest) ← readKeyPart t
    match skipSpaces rest with
    | '.' :: r =>
      let (parts, rest) ← readKeyWithin steps (skipSpaces r)
      return (part :: parts, rest)
    | rest => return ([part], rest)

/-- A key of parts between dots, with the spaces behind it. -/
def readKey : Reader (List Text) := fun t => readKeyWithin (t.length + 1) t

/-! Dates and times -/

/-- A number of exactly so many digits. -/
def readFixed (width : Nat) : Reader Nat := fun t => do
  let digits := t.take width
  if digits.length < width then none
  let n ← digits? 10 digits
  return (n, t.drop width)

/-- A number of two digits below a limit. -/
def readTwo (limit : Nat) : Reader Nat := fun t => do
  let (n, rest) ← readFixed 2 t
  if n < limit then some (n, rest) else none

def readMark (mark : Char) : Reader Unit
  | c :: r => if c == mark then some ((), r) else none
  | [] => none

/-- The first six digits of a fraction, as millionths. -/
def millionths (digits : Text) : Nat :=
  ofDigits 10 (digits.take 6 ++ List.replicate (6 - digits.length) '0')

/-- A point and digits; digits behind the sixth are dropped. -/
def readFraction : Text → Nat × Text
  | '.' :: r =>
    let digits := r.takeWhile Char.isDigit
    if digits.isEmpty then (0, '.' :: r) else (millionths digits, r.dropWhile Char.isDigit)
  | t => (0, t)

def readTime : Reader TimeOfDay := fun t => do
  let (hour, t) ← readTwo 24 t
  let ((), t) ← readMark ':' t
  let (minute, t) ← readTwo 60 t
  let ((), t) ← readMark ':' t
  let (second, t) ← readTwo 60 t
  let (micros, t) := readFraction t
  return (⟨hour, minute, second, micros⟩, t)

def readOffset : Reader Offset
  | 'Z' :: r | 'z' :: r => some (⟨0⟩, r)
  | c :: r => do
    let negative ← if c == '-' then some true else if c == '+' then some false else none
    let (hour, r) ← readTwo 24 r
    let ((), r) ← readMark ':' r
    let (minute, r) ← readTwo 60 r
    return (⟨signed negative (60 * hour + minute)⟩, r)
  | [] => none

def readDate : Reader Date := fun t => do
  let (year, t) ← readFixed 4 t
  let ((), t) ← readMark '-' t
  let (month, t) ← readTwo 13 t
  let ((), t) ← readMark '-' t
  let (day, t) ← readTwo 32 t
  if month = 0 ∨ day = 0 then none else some (⟨year, month, day⟩, t)

/-- A date, with a time of day behind it if one follows. -/
def readDateTime : Reader Moment := fun t => do
  let (d, rest) ← readDate t
  let timed : Option (Moment × Text) := match rest with
    | c :: r =>
      if c == 'T' || c == 't' || c == ' ' then
        (readTime r).map fun (time, rest) => match readOffset rest with
          | some (offset, rest) => (.dateTime d time (some offset), rest)
          | none => (.dateTime d time none, rest)
      else none
    | [] => none
  return timed.getD (.date d, rest)

/-! Numbers -/

/-- The base that a prefix names. -/
def baseOf? : Char → Option Nat
  | 'x' => some 16
  | 'o' => some 8
  | 'b' => some 2
  | _ => none

def readPrefixed : Reader Int
  | '0' :: c :: r => do
    let base ← baseOf? c
    let (digits, rest) := cutGrouped base r
    if digits.isEmpty then none else some (ofDigits base digits, rest)
  | _ => none

/-- The digits in front of a decimal point: a zero, or digits that do not start with one. -/
def cutWhole : Text → Text × Text
  | '0' :: r => (['0'], r)
  | t => cutGrouped 10 t

def cutPart (lead : Text → Option Text) (t : Text) : Text × Text :=
  match lead t with
  | some r =>
    let (digits, rest) := cutGrouped 10 r
    if digits.isEmpty then ([], t) else (digits, rest)
  | none => ([], t)

/-- An exponent with its sign, if one follows. -/
def cutExponent (t : Text) : Option Int × Text :=
  match t with
  | c :: r =>
    if c == 'e' || c == 'E' then
      let (negative, body) := cutSign r
      let (digits, rest) := cutGrouped 10 body
      if digits.isEmpty then (none, t) else (some (signed negative (ofDigits 10 digits)), rest)
    else (none, t)
  | [] => (none, t)

def readDecimal : Reader Scalar := fun t =>
  let (negative, body) := cutSign t
  let (whole, rest) := cutWhole body
  if whole.isEmpty then none
  else
    let (fraction, rest) := cutPart (dropPrefix? ['.']) rest
    let (exponent, rest) := cutExponent rest
    if fraction.isEmpty && exponent.isNone then
      some (.int (signed negative (ofDigits 10 whole)), rest)
    else
      let digits := ofDigits 10 (whole ++ fraction)
      let scale := exponent.getD 0 - fraction.length
      some (.float (Binary64.ofDecimal negative digits scale), rest)

def readSpecialFloat : Reader Binary64 := fun t =>
  let (negative, body) := cutSign t
  match dropPrefix? "inf".toList body with
  | some rest => some (.infinite negative, rest)
  | none => (dropPrefix? "nan".toList body).map fun rest => (.notANumber, rest)

/-- A date, a time or a number. A date that is on no calendar is refused. -/
def readMeasure : Reader Scalar := fun t =>
  match readDateTime t with
  | some (m, rest) => if m.isValid then some (.moment m, rest) else none
  | none => match readTime t with
    | some (time, rest) => some (.moment (.time time), rest)
    | none => match readPrefixed t with
      | some (i, rest) => some (.int i, rest)
      | none => match readDecimal t with
        | some found => some found
        | none => (readSpecialFloat t).map fun (f, rest) => (.float f, rest)

def readFlag : Reader Bool := fun t =>
  match dropPrefix? "true".toList t with
  | some rest => some (true, rest)
  | none => (dropPrefix? "false".toList t).map fun rest => (false, rest)

end TestSkeleton.Toml
