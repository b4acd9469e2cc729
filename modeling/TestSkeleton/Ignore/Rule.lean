import TestSkeleton.Pattern.Name
import TestSkeleton.Pattern.Path
import TestSkeleton.Text.Lines

/-! Rules of ignore files.

A rule names paths below the folder of its file. Of all rules that admit a path the last one
decides. -/

namespace TestSkeleton

open Text

structure IgnoreRule where
  pattern : Text
  foldersOnly : Bool := false
  anchored : Bool := false
  negated : Bool := false
  hasSlash : Bool := false
  base : Text := []
  deriving DecidableEq, Repr

namespace IgnoreRule

/-- What is left of a text without a character at its end, and whether it was there. -/
def cutLast (c : Char) (t : Text) : Text × Bool :=
  if t.getLast? = some c then (t.dropLast, true) else (t, false)

/-- What is left of a text without a character in front, and whether it was there. -/
def cutFirst (c : Char) (t : Text) : Text × Bool :=
  if t.head? = some c then (t.tail, true) else (t, false)

/-- The rule of a pattern. A slash at its end asks for folders, one in front ties it to the folder
of the file. -/
def ofPattern? (base : Text) (negated : Bool) (pattern : Text) : Option IgnoreRule :=
  let pattern := trim pattern
  if pattern.isEmpty then none
  else
    let (pattern, foldersOnly) := cutLast '/' pattern
    let (pattern, anchored) := cutFirst '/' pattern
    some { pattern, foldersOnly, anchored, negated, hasSlash := '/' ∈ pattern, base }

/-- The rule of a line, unless it is blank or a comment. An exclamation mark negates; a backslash
in front is left out, so that it can protect one. -/
def ofLine? (base line : Text) : Option IgnoreRule :=
  match trim line with
  | [] => none
  | '#' :: _ => none
  | '!' :: r => ofPattern? base true r
  | '\\' :: r => ofPattern? base false r
  | line => ofPattern? base false line

/-- The rules of an ignore file in a folder, in order. -/
def parse (base text : Text) : List IgnoreRule := (lines text).filterMap (ofLine? base)

/-- The path as seen from the folder of the rule, if it lies there. -/
def inner? (r : IgnoreRule) (path : Text) : Option Text :=
  if r.base.isEmpty then some path else dropPrefix? (r.base ++ ['/']) path

/-- A rule without a slash admits a path when it admits one of its names. -/
def admits (r : IgnoreRule) (path : Text) (isFolder : Bool) : Bool :=
  if r.pattern.isEmpty || (r.foldersOnly && !isFolder) then false
  else match r.inner? path with
    | none => false
    | some inner =>
      if r.anchored || r.hasSlash then (PathPattern.read r.pattern).admits inner
      else (splitOn '/' inner).any (NamePattern.read r.pattern).admits

end IgnoreRule

/-- Whether rules leave out a path: the last one that admits it decides. -/
def isIgnored (rules : List IgnoreRule) (path : Text) (isFolder : Bool) : Bool :=
  rules.foldl (fun ignored r => if r.admits path isFolder then !r.negated else ignored) false

end TestSkeleton
