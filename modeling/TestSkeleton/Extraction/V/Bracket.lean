import TestSkeleton.Extraction.Basic

/-! Nesting of brackets in blanked V sources. -/

namespace TestSkeleton.V

/-- The bracket that closes an opening one. -/
def closing? : Char → Option Char
  | '(' => some ')'
  | '[' => some ']'
  | '\x7b' => some '\x7d'
  | _ => none

def isClosing (c : Char) : Bool := c == ')' || c == ']' || c == '\x7d'

/-- The first fault in the nesting of the rest of a text, given the line it starts on and the open
brackets with their lines, innermost first. -/
def nestingFaultFrom? : Nat → List (Char × Nat) → Text → Option ExtractionError
  | _, [], [] => none
  | _, (b, line) :: _, [] => some (.unclosedBracket b line)
  | line, opened, c :: r =>
    if c == '\n' then nestingFaultFrom? (line + 1) opened r
    else if (closing? c).isSome then nestingFaultFrom? line ((c, line) :: opened) r
    else if isClosing c then
      match opened with
      | (b, _) :: outer =>
        if closing? b == some c then nestingFaultFrom? line outer r
        else some (.unexpectedBracket c line)
      | [] => some (.unexpectedBracket c line)
    else nestingFaultFrom? line opened r

def nestingFault? (code : Text) : Option ExtractionError := nestingFaultFrom? 1 [] code

/-- The text up to the parenthesis that closes `depth + 1` open ones, and the text after it. -/
def cutAtClosing? : Nat → Text → Option (Text × Text)
  | _, [] => none
  | depth, c :: r =>
    if c == ')' then
      match depth with
      | 0 => some ([], r)
      | depth + 1 => (cutAtClosing? depth r).map fun (a, b) => (c :: a, b)
    else (cutAtClosing? (if c == '(' then depth + 1 else depth) r).map fun (a, b) => (c :: a, b)

end TestSkeleton.V
