import TestSkeleton.Text.Basic

/-! Patterns for whole paths with slashes.

`*` and `?` stay inside one name, `**` crosses slashes, `**` followed by a slash stands for any
folders or none, and a slash and `**` at the end stand for all that lies inside. Brackets are
plain characters here. -/

namespace TestSkeleton

inductive PathPiece where
  | char (c : Char)
  | one
  | many
  | anything
  | folders
  | inside
  deriving DecidableEq, Repr

abbrev PathPattern := List PathPiece

namespace PathPattern

def read : Text → PathPattern
  | '*' :: '*' :: '/' :: r => .folders :: read r
  | '/' :: '*' :: '*' :: [] => [.inside]
  | '*' :: '*' :: r => .anything :: read r
  | '*' :: r => .many :: read r
  | '?' :: r => .one :: read r
  | c :: r => .char c :: read r
  | [] => []

/-- A line feed is never skipped by a pattern that crosses slashes. -/
def onLine (c : Char) : Bool := c != '\n'

def inName (c : Char) : Bool := c != '/'

/-- The ends of a text right behind a slash of its first line. -/
def endsBehindSlash (t : Text) : List Text :=
  (Text.endsAfter onLine t).filterMap fun rest => match rest with
    | '/' :: r => some r
    | _ => none

def admits : PathPattern → Text → Bool
  | [], path => path.isEmpty
  | .many :: p, path => (Text.endsAfter inName path).any (admits p)
  | .anything :: p, path => (Text.endsAfter onLine path).any (admits p)
  | .folders :: p, path => (path :: endsBehindSlash path).any (admits p)
  | .inside :: p, path =>
    (admits p path) || match path with
      | '/' :: r => (Text.endsAfter onLine r).any (admits p)
      | _ => false
  | .one :: p, path => match path with
    | c :: r => inName c && admits p r
    | [] => false
  | .char d :: p, path => match path with
    | c :: r => c == d && admits p r
    | [] => false

end PathPattern

end TestSkeleton
