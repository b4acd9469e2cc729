import TestSkeleton.Text.Class

/-! Headers of V functions.

A header starts on a line of its own: `pub`, `fn`, a receiver in parentheses, the name, generic
arguments in square brackets, and the parenthesis that opens the parameters. -/

namespace TestSkeleton.V

open Text

/-- The receiver of a method: whether it is mutable, and its type as written. -/
structure Receiver where
  isMutable : Bool
  type : Text
  deriving DecidableEq, Repr

structure Header where
  isPublic : Bool
  receiver : Option Receiver
  name : Text
  deriving DecidableEq, Repr

/-- What follows a word and the blanks after it. There has to be a blank. -/
def dropKeyword? (word t : Text) : Option Text :=
  match dropPrefix? word t with
  | some (c :: r) => if isBlank c then some (trimStart r) else none
  | _ => none

/-- What follows brackets with no line end and no closing bracket inside, when the text starts with
an opening one. -/
def dropSquare? : Text → Option Text
  | '[' :: r => match r.dropWhile fun c => c != ']' && c != '\n' with
    | ']' :: rest => some rest
    | _ => none
  | _ => none

def isTypeNameChar (c : Char) : Bool := isWord c || c == '.'

/-- The type of a receiver up to the closing parenthesis, and what follows the blanks after it. -/
def receiverType? (t : Text) : Option (Text × Text) :=
  let (mark, t) : Text × Text := match t with
    | '&' :: r => (['&'], r)
    | _ => ([], t)
  let name := t.takeWhile isTypeNameChar
  if name.isEmpty then none
  else
    let rest := t.dropWhile isTypeNameChar
    let afterSquare := (dropSquare? rest).getD rest
    let square := rest.take (rest.length - afterSquare.length)
    match trimStart afterSquare with
    | ')' :: r => some (mark ++ name ++ square, trimStart r)
    | _ => none

/-- A receiver's name and type, after the parenthesis and a leading `mut` if there was one. -/
def receiverAfterMut? (leadMut : Bool) (t : Text) : Option (Receiver × Text) :=
  match t.takeWhile isWord, t.dropWhile isWord with
  | _ :: _, c :: r =>
    if isBlank c then
      let r := trimStart r
      let inner := (dropKeyword? "mut".toList r).bind receiverType?
      match inner with
      | some (type, rest) => some (⟨true, type⟩, rest)
      | none => (receiverType? r).map fun (type, rest) => (⟨leadMut, type⟩, rest)
    else none
  | _, _ => none

/-- A receiver in parentheses, and what follows the blanks after it. `mut` is read as a marker
where that leaves a name and a type, and as the name otherwise. -/
def receiver? : Text → Option (Receiver × Text)
  | '(' :: r =>
    let r := trimStart r
    ((dropKeyword? "mut".toList r).bind (receiverAfterMut? true)).or (receiverAfterMut? false r)
  | _ => none

/-- A name, generic arguments and the opening parenthesis, and what follows it. -/
def nameAndOpening? (t : Text) : Option (Text × Text) :=
  match t with
  | c :: r =>
    if isAsciiIdentifierStart c then
      let rest := trimStart (r.dropWhile isWord)
      let rest := ((dropSquare? rest).map trimStart).getD rest
      match rest with
      | '(' :: r' => some (c :: r.takeWhile isWord, r')
      | _ => none
    else none
  | [] => none

/-- The header that starts the text, and what follows its opening parenthesis. -/
def header? (t : Text) : Option (Header × Text) :=
  let t := t.dropWhile fun c => c == ' ' || c == '\t'
  let (isPublic, t) := match dropKeyword? "pub".toList t with
    | some r => (true, r)
    | none => (false, t)
  match dropKeyword? "fn".toList t with
  | none => none
  | some t =>
    let (receiver, t) := match receiver? t with
      | some (r, rest) => (some r, rest)
      | none => (none, t)
    (nameAndOpening? t).map fun (name, rest) => (⟨isPublic, receiver, name⟩, rest)

/-- The headers in the rest of a text, each with what follows its opening parenthesis. `skip`
counts the characters that belong to the last header, and the flag says whether a line starts. -/
def headersFrom : Nat → Bool → Text → List (Header × Text)
  | _, _, [] => []
  | skip + 1, _, _ :: r => headersFrom skip false r
  | 0, lineStart, c :: r =>
    match if lineStart then header? (c :: r) else none with
    | some (h, rest) => (h, rest) :: headersFrom (r.length - rest.length) false r
    | none => headersFrom 0 (c == '\n') r

def headers (code : Text) : List (Header × Text) := headersFrom 0 true code

end TestSkeleton.V
