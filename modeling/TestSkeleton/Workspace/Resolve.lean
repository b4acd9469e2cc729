import TestSkeleton.Failure
import TestSkeleton.Workspace.Basic

/-! The true path of a file: absolute, without links and without steps up. -/

namespace TestSkeleton

/-- What replacing links gives: a path without links, or the place where that cannot go on. -/
inductive Resolution where
  | whole (p : Path)
  | loop (link : Path) (rest : List Text)
  | refused (fault : FileFault) (p : Path)
  deriving DecidableEq, Repr

namespace Workspace

/-- Extends a path without links by names. A link is replaced through `enter`, unless it is already
being replaced. Names behind a missing entry are kept as they are, except where every entry must
exist. -/
def resolveNames (w : Workspace) (strict : Bool)
    (enter : List Path → Path → List Text → Resolution) (entered : List Path) (p : Path) :
    List Text → Resolution
  | [] => .whole p
  | name :: rest =>
    if name = Path.up then resolveNames w strict enter entered p.outer rest
    else
      let here := p.child name
      match w.locate here false with
      | .ok ⟨_, some (.link target)⟩ =>
        if entered.contains here then .loop here rest
        else
          let origin := if (Path.read target).isAbsolute then ⟨.slash, []⟩ else p
          match enter (here :: entered) origin (Path.names target) with
          | .whole q => resolveNames w strict enter entered q rest
          | .loop link inner => .loop link (inner ++ rest)
          | .refused fault q => .refused fault q
      | .ok ⟨_, some _⟩ => resolveNames w strict enter entered here rest
      | .ok ⟨_, none⟩ =>
        if strict then .refused .notFound here
        else resolveNames w strict enter entered here rest
      | .error fault =>
        if strict then .refused fault here
        else resolveNames w strict enter entered here rest

/-- Replaces links inside links up to a depth. -/
def resolveWithin (w : Workspace) (strict : Bool) :
    (depth : Nat) → List Path → Path → List Text → Resolution
  | 0 => w.resolveNames strict fun _ p rest => .loop p rest
  | depth + 1 => w.resolveNames strict (w.resolveWithin strict depth)

/-- Each link can be entered once under every path that names it. -/
def resolveDepth (w : Workspace) : Nat :=
  (w.files.entries.length + 1) * (w.current.length + 2)

def resolution (w : Workspace) (strict : Bool) (p : Path) : Resolution :=
  let root := if p.isAbsolute then PathRoot.slash else .relative
  w.resolveWithin strict w.resolveDepth [] ⟨root, []⟩ p.parts

/-- Steps up taken by names alone, from the topmost folder down. -/
def withoutSteps (names : List Text) : Place :=
  names.foldl (fun place name => if name = Path.up then place.dropLast else place ++ [name]) []

/-- The absolute form of a path, steps up taken by names alone. -/
def absolute (w : Workspace) (p : Path) : Path :=
  match p.root with
  | .relative => ⟨.slash, withoutSteps (w.current ++ p.parts)⟩
  | root => ⟨root, withoutSteps p.parts⟩

/-- The true path. Names behind a missing entry stay; a link that leads to itself is a failure. -/
def resolve (w : Workspace) (p : Path) : Except Failure Path :=
  let q := w.absolute <| match w.resolution false p with
    | .whole q => q
    | .loop link rest => ⟨link.root, link.parts ++ rest⟩
    | .refused _ q => q
  match w.entry q with
  | .error .linkLoop => .error (.linkLoop q.text)
  | _ => .ok q

/-- The true path of something that exists; `none` when it does not. -/
def resolveExisting? (w : Workspace) (p : Path) : Except Failure (Option Path) :=
  match w.resolution true p with
  | .whole q => .ok (some (w.absolute q))
  | .loop link _ => .error (.linkLoop link.text)
  | .refused .linkLoop q => .error (.linkLoop q.text)
  | .refused _ _ => .ok none

def homeName : Text := "HOME".toList

/-- A text with its leading tilde replaced by the home folder. Other users are not known. -/
def expandTilde (w : Workspace) (t : Text) : Text :=
  match t with
  | '~' :: r =>
    if r.isEmpty || r.head? == some '/' then
      match w.givenVariable? homeName with
      | none => t
      | some home =>
        let whole := Text.dropEndWhile (· == '/') home ++ r
        if whole.isEmpty then ['/'] else whole
    else t
  | _ => t

/-- A path with a leading tilde replaced by the home folder. -/
def expandHome (w : Workspace) (p : Path) : Except Failure Path :=
  match p.root, p.parts with
  | .relative, ('~' :: r) :: rest =>
    let home := w.expandTilde ('~' :: r)
    if home.head? = some '~' then .error .noHome
    else .ok ((Path.read home).append ⟨.relative, rest⟩)
  | _, _ => .ok p

/-- The home folder. -/
def home (w : Workspace) : Except Failure Path := w.expandHome (Path.read ['~'])

/-- A path as seen from a base by their true paths, or else as it is given. -/
def relativeText (w : Workspace) (base p : Path) : Except Failure Text := do
  let whole ← w.resolve p
  let base ← w.resolve base
  return ((base.relativeTo? whole).getD p).text

end Workspace

end TestSkeleton
