import TestSkeleton.Text.Class

/-! Tokens of Rust sources.

Every token keeps the blanks and comments in front of it, so that the text of any run of tokens can
be read back. A sign is a single character; operators of several characters are signs without a gap
between them. -/

namespace TestSkeleton.Rust

open Text

inductive Trivia where
  | blank (text : Text)
  | comment (text : Text)
  deriving DecidableEq, Repr

def Trivia.text : Trivia → Text
  | blank t => t
  | comment t => t

inductive TokenKind where
  | word
  | lifetime
  | number
  | quoted
  | sign
  deriving DecidableEq, Repr

structure Token where
  kind : TokenKind
  text : Text
  gap : List Trivia
  deriving DecidableEq, Repr

def isSourceBlank (c : Char) : Bool := c == ' ' || (0x9 ≤ c.toNat && c.toNat ≤ 0xD)

/-- The characters that stand for themselves as signs. -/
def isSign (c : Char) : Bool := "!#$%&()*+,-./:;<=>?@[]^\x7b|\x7d~".toList.contains c

/-- A block comment inside `depth + 1` open ones, up to its end, and what follows. -/
def cutBlockComment? : Nat → Text → Option (Text × Text)
  | depth, '/' :: '*' :: r =>
    (cutBlockComment? (depth + 1) r).map fun (a, b) => ('/' :: '*' :: a, b)
  | 0, '*' :: '/' :: r => some (['*', '/'], r)
  | depth + 1, '*' :: '/' :: r =>
    (cutBlockComment? depth r).map fun (a, b) => ('*' :: '/' :: a, b)
  | depth, c :: r => (cutBlockComment? depth r).map fun (a, b) => (c :: a, b)
  | _, [] => none

/-- The rest of a string literal up to its closing quote, and what follows. -/
def cutString? : Text → Option (Text × Text)
  | '"' :: r => some (['"'], r)
  | '\\' :: c :: r => (cutString? r).map fun (a, b) => ('\\' :: c :: a, b)
  | c :: r => (cutString? r).map fun (a, b) => (c :: a, b)
  | [] => none

/-- The rest of a raw string up to its closing quote and hashes, and what follows. -/
def cutRawString? (hashes : Text) : Text → Option (Text × Text)
  | '"' :: r => match dropPrefix? hashes r with
    | some rest => some ('"' :: hashes, rest)
    | none => (cutRawString? hashes r).map fun (a, b) => ('"' :: a, b)
  | c :: r => (cutRawString? hashes r).map fun (a, b) => (c :: a, b)
  | [] => none

/-- A raw string from its hashes on, and what follows. -/
def rawString? (t : Text) : Option (Text × Text) :=
  let hashes := t.takeWhile (· == '#')
  match t.dropWhile (· == '#') with
  | '"' :: r => (cutRawString? hashes r).map fun (a, b) => (hashes ++ '"' :: a, b)
  | _ => none

/-- A character literal from its opening quote on, and what follows. -/
def charLiteral? : Text → Option (Text × Text)
  | '\'' :: '\\' :: c :: r =>
    match r.dropWhile fun c => c.isAlphanum || c == '_' || c == '\x7b' || c == '\x7d' with
    | '\'' :: rest => some ('\'' :: '\\' :: c :: r.take (r.length - rest.length), rest)
    | _ => none
  | '\'' :: c :: '\'' :: r => if c == '\n' then none else some (['\'', c, '\''], r)
  | _ => none

/-- String and character literals with their marks, and what follows. -/
def quoted? : Text → Option (Text × Text)
  | '"' :: r => (cutString? r).map fun (a, b) => ('"' :: a, b)
  | 'r' :: r => (rawString? r).map fun (a, b) => ('r' :: a, b)
  | 'b' :: '"' :: r => (cutString? r).map fun (a, b) => ('b' :: '"' :: a, b)
  | 'c' :: '"' :: r => (cutString? r).map fun (a, b) => ('c' :: '"' :: a, b)
  | 'b' :: 'r' :: r => (rawString? r).map fun (a, b) => ('b' :: 'r' :: a, b)
  | 'c' :: 'r' :: r => (rawString? r).map fun (a, b) => ('c' :: 'r' :: a, b)
  | 'b' :: '\'' :: r => (charLiteral? ('\'' :: r)).map fun (a, b) => ('b' :: a, b)
  | t => charLiteral? t

def lifetime? : Text → Option (Text × Text)
  | '\'' :: c :: r =>
    if isIdentifierStart c then
      some ('\'' :: c :: r.takeWhile isIdentifierContinue, r.dropWhile isIdentifierContinue)
    else none
  | _ => none

def word? : Text → Option (Text × Text)
  | 'r' :: '#' :: c :: r =>
    if isIdentifierStart c then
      some ('r' :: '#' :: c :: r.takeWhile isIdentifierContinue,
        r.dropWhile isIdentifierContinue)
    else some (['r'], '#' :: c :: r)
  | c :: r =>
    if isIdentifierStart c then
      some (c :: r.takeWhile isIdentifierContinue, r.dropWhile isIdentifierContinue)
    else none
  | [] => none

def numberTypes : List Text :=
  ["u8", "i8", "u16", "i16", "u32", "i32", "u64", "i64", "u128", "i128", "isize", "usize", "f32",
   "f64"].map String.toList

def isDigitOrGap (c : Char) : Bool := c.isDigit || c == '_'

def isHexOrGap (c : Char) : Bool :=
  isDigitOrGap c || ('a' ≤ c && c ≤ 'f') || ('A' ≤ c && c ≤ 'F')

/-- What follows the type that may end a number. -/
def dropNumberType (t : Text) : Text :=
  (numberTypes.findSome? fun type => match dropPrefix? type t with
    | some r => if r.head?.any isIdentifierContinue then none else some r
    | none => none).getD t

/-- What follows the exponent that may end a number. -/
def dropExponent : Text → Text
  | c :: r =>
    if c == 'e' || c == 'E' then
      let digits := match r with
        | s :: r' => if s == '+' || s == '-' then r' else r
        | [] => []
      if (digits.dropWhile (· == '_')).head?.any Char.isDigit then digits.dropWhile isDigitOrGap
      else c :: r
    else c :: r
  | [] => []

/-- What follows a number's fraction and exponent. A dot before a name or another dot is no
fraction. -/
def dropFraction : Text → Text
  | '.' :: c :: r =>
    if c == '.' || isIdentifierStart c then '.' :: c :: r
    else dropExponent ((c :: r).dropWhile isDigitOrGap)
  | ['.'] => []
  | t => dropExponent t

def dropNumber : Text → Text
  | '0' :: 'x' :: r => r.dropWhile isHexOrGap
  | '0' :: 'o' :: r => r.dropWhile isDigitOrGap
  | '0' :: 'b' :: r => r.dropWhile isDigitOrGap
  | t => dropFraction (t.dropWhile isDigitOrGap)

def number? : Text → Option (Text × Text)
  | c :: r =>
    if c.isDigit then
      let rest := dropNumberType (dropNumber (c :: r))
      some ((c :: r).take ((c :: r).length - rest.length), rest)
    else none
  | [] => none

def sign? : Text → Option (Text × Text)
  | c :: r => if isSign c then some ([c], r) else none
  | [] => none

/-- The token that starts the text, and what follows it. -/
def lexeme? (t : Text) : Option (TokenKind × Text × Text) :=
  ((quoted? t).map (.quoted, ·)).or <| ((lifetime? t).map (.lifetime, ·)).or <|
    ((word? t).map (.word, ·)).or <| ((number? t).map (.number, ·)).or <|
      (sign? t).map (.sign, ·)

/-- The blank run or the comment that starts the text, and what follows it. -/
def trivia? : Text → Option (Trivia × Text)
  | '/' :: '/' :: r =>
    some (.comment ('/' :: '/' :: r.takeWhile (· ≠ '\n')), r.dropWhile (· ≠ '\n'))
  | '/' :: '*' :: r =>
    (cutBlockComment? 0 r).map fun (a, b) => (.comment ('/' :: '*' :: a), b)
  | c :: r =>
    if isSourceBlank c then
      some (.blank (c :: r.takeWhile isSourceBlank), r.dropWhile isSourceBlank)
    else none
  | [] => none

/-- Tokens, the trivia after the last of them, and the text that starts no token. -/
structure Lexed where
  tokens : List Token
  tail : List Trivia
  rest : Text

/-- Reads at most the given number of tokens and trivia. `gap` holds the trivia read so far. -/
def lexFrom : Nat → List Trivia → Text → Lexed
  | 0, gap, t => ⟨[], gap, t⟩
  | n + 1, gap, t =>
    match trivia? t with
    | some (trivia, r) => lexFrom n (gap ++ [trivia]) r
    | none => match lexeme? t with
      | some (kind, text, r) =>
        let later := lexFrom n [] r
        { later with tokens := ⟨kind, text, gap⟩ :: later.tokens }
      | none => ⟨[], gap, t⟩

/-- The tokens of a source. Each of them, and each trivia, takes at least one character. -/
def lex (source : Text) : Lexed := lexFrom source.length [] source

end TestSkeleton.Rust
