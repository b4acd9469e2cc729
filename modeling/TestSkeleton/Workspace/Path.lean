import TestSkeleton.Text.Basic

/-! Paths, as names between slashes. Nothing here looks at a file tree. -/

namespace TestSkeleton

open Text

/-- How a path begins. Two leading slashes, and two alone, are kept apart from one. -/
inductive PathRoot where
  | relative
  | slash
  | doubleSlash
  deriving DecidableEq, Repr

/-- A path holds neither empty names nor names that are a single dot. -/
structure Path where
  root : PathRoot := .relative
  parts : List Text
  deriving DecidableEq, Repr

namespace PathRoot

def text : PathRoot → Text
  | relative => []
  | slash => ['/']
  | doubleSlash => ['/', '/']

def ofText : Text → PathRoot
  | '/' :: '/' :: '/' :: _ => slash
  | '/' :: '/' :: _ => doubleSlash
  | '/' :: _ => slash
  | _ => relative

end PathRoot

namespace Path

/-- The name of the folder around a folder. -/
def up : Text := "..".toList

/-- The names of a path text, without the ones that stand for the folder itself. -/
def names (t : Text) : List Text := (splitOn '/' t).filter fun name => name ≠ [] ∧ name ≠ ['.']

def read (t : Text) : Path := ⟨PathRoot.ofText t, names t⟩

def text (p : Path) : Text :=
  match p.root, p.parts with
  | .relative, [] => ['.']
  | root, parts => root.text ++ join ['/'] parts

def isAbsolute (p : Path) : Bool := p.root ≠ .relative

/-- The second path as seen from the first. -/
def append (p q : Path) : Path := if q.isAbsolute then q else ⟨p.root, p.parts ++ q.parts⟩

def child (p : Path) (name : Text) : Path := p.append (read name)

/-- The last name, empty when there is none. -/
def name (p : Path) : Text := p.parts.getLast?.getD []

def parent (p : Path) : Path := ⟨p.root, p.parts.dropLast⟩

/-- The path and the folders around it, from the inside out. -/
def selfAndParents (p : Path) : List Path :=
  (List.range (p.parts.length + 1)).map fun k => ⟨p.root, p.parts.take (p.parts.length - k)⟩

/-- The end of the name from its last dot on, when the dot is neither its first nor its last
character. -/
def suffix (p : Path) : Text :=
  match cutAt? (· == '.') p.name.reverse with
  | some (back, front) =>
    if back.isEmpty || front.isEmpty then [] else '.' :: back.reverse
  | none => []

/-- The rest of the path behind `base`, when it lies there by its names alone. -/
def relativeTo? (base p : Path) : Option Path :=
  if p.root = base.root ∧ base.parts.isPrefixOf p.parts then
    some ⟨.relative, p.parts.drop base.parts.length⟩
  else none

/-- The path of the folder around, by names alone. Above the topmost folder there is none. -/
def outer (p : Path) : Path :=
  match p.parts.getLast? with
  | none => if p.isAbsolute then p else ⟨.relative, [up]⟩
  | some last => if last = up then ⟨p.root, p.parts ++ [up]⟩ else p.parent

end Path

end TestSkeleton
