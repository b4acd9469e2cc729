import TestSkeleton.Text.Basic

/-! Lines of a text: the uniform line end of files that were read, and all line ends of Unicode. -/

namespace TestSkeleton.Text

/-- Reads a carriage return, with or without a line feed after it, as a line feed. -/
def unifyLineEnds : Text → Text
  | [] => []
  | '\r' :: '\n' :: r => '\n' :: unifyLineEnds r
  | c :: r => (if c == '\r' then '\n' else c) :: unifyLineEnds r

/-- The characters that end a line. -/
def isLineEnd (c : Char) : Bool :=
  let n := c.toNat
  (0xA ≤ n && n ≤ 0xD) || (0x1C ≤ n && n ≤ 0x1E) || n == 0x85 || n == 0x2028 || n == 0x2029

/-- Lines of the rest of a text. `current` is the line so far, read backwards. -/
def linesFrom (current : Text) : Text → List Text
  | [] => if current.isEmpty then [] else [current.reverse]
  | '\r' :: '\n' :: r => current.reverse :: linesFrom [] r
  | c :: r => if isLineEnd c then current.reverse :: linesFrom [] r else linesFrom (c :: current) r

/-- The lines without their ends; the text after the last line end is a line if it is not empty. -/
def lines (t : Text) : List Text := linesFrom [] t

end TestSkeleton.Text
