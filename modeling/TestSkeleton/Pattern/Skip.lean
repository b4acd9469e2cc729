import TestSkeleton.Pattern.Name
import TestSkeleton.Pattern.Path

/-! Skip patterns: which paths below a root are left out. -/

namespace TestSkeleton

open Text

namespace SkipPattern

/-- A pattern without blanks around it and slashes in front of it. -/
def core (pattern : Text) : Text := (trim pattern).dropWhile (· == '/')

/-- A pattern without a slash is held against every name of the path, any other against the whole
path. The slashes at its end do not count, but they make it one with a slash. -/
def admits (pattern path : Text) : Bool :=
  let pattern := core pattern
  if pattern.isEmpty then false
  else if '/' ∈ pattern then
    (PathPattern.read (dropEndWhile (· == '/') pattern)).admits path
  else (splitOn '/' path).any (NamePattern.read pattern).admits

end SkipPattern

def matchesSkipPattern (patterns : List Text) (path : Text) : Bool :=
  patterns.any (SkipPattern.admits · path)

end TestSkeleton
