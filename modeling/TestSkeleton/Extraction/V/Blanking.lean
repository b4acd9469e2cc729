import TestSkeleton.Text.Basic

/-! V sources with comments and literals blanked out.

Every character keeps its place. Comments and the bodies of literals become spaces, except for line
feeds, and the delimiters of a literal stay. A literal that the source leaves open is closed by the
last character of the source. -/

namespace TestSkeleton.V

/-- What the next character is part of. A literal knows the quote that closes it. -/
inductive Region where
  | code
  | lineComment
  | blockComment
  | literal (quote : Char)
  | escape (quote : Char)
  deriving DecidableEq, Repr

def isQuote (c : Char) : Bool := c == '\'' || c == '"' || c == '\x60'

def blankChar (c : Char) : Char := if c == '\n' then '\n' else ' '

/-- Blanks the rest of a source that begins in a region. -/
def blankFrom : Region → Text → Text
  | _, [] => []
  | .code, '/' :: '/' :: r => ' ' :: ' ' :: blankFrom .lineComment r
  | .code, '/' :: '*' :: r => ' ' :: ' ' :: blankFrom .blockComment r
  | .code, c :: r => c :: blankFrom (if isQuote c then .literal c else .code) r
  | .lineComment, c :: r =>
    blankChar c :: blankFrom (if c == '\n' then .code else .lineComment) r
  | .blockComment, '*' :: '/' :: r => ' ' :: ' ' :: blankFrom .code r
  | .blockComment, c :: r => blankChar c :: blankFrom .blockComment r
  | .literal quote, [_] => [quote]
  | .escape quote, [_] => [quote]
  | .literal quote, c :: r =>
    if c == quote then quote :: blankFrom .code r
    else blankChar c :: blankFrom (if c == '\\' then .escape quote else .literal quote) r
  | .escape quote, c :: r => blankChar c :: blankFrom (.literal quote) r

/-- The source with comments and the bodies of literals blanked out. -/
def blank (source : Text) : Text := blankFrom .code source

end TestSkeleton.V
