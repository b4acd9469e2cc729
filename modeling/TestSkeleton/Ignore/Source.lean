import TestSkeleton.Ignore.Rule
import TestSkeleton.Text.Class
import TestSkeleton.Workspace.Resolve

/-! Where ignore rules come from: the user's file that holds for all projects, and the files inside
a project. -/

namespace TestSkeleton.IgnoreSource

open Text

def isBracket (c : Char) : Bool := c == '[' || c == ']'

/-- The value of a key of the core section, in the lines of a settings file of the version control
system. The first line with the key decides. -/
def coreValue? (key : Text) : (inCore : Bool) → List Text → Option Text
  | _, [] => none
  | inCore, line :: rest =>
    match trim line with
    | [] => coreValue? key inCore rest
    | c :: r =>
      if c == '#' || c == ';' then coreValue? key inCore rest
      else if c == '[' then
        coreValue? key (lower (trim (trimMatches isBracket (c :: r))) == "core".toList) rest
      else match cutAt? (· == '=') (c :: r) with
        | some (name, value) =>
          if inCore && lower (trim name) == key then some (trimMatches (· == '"') (trim value))
          else coreValue? key inCore rest
        | none => coreValue? key inCore rest

/-- The file that the user's settings name, if they do. -/
def configured? (w : Workspace) (home : Path) : Option Text :=
  match w.readText (home.child ".gitconfig".toList) with
  | .ok text => (coreValue? "excludesfile".toList false (lines text)).filter (· ≠ [])
  | .error _ => none

/-- The ignore file of the user: the configured one, or the usual one if it is there. -/
def userFile? (w : Workspace) : Except Failure (Option Path) := do
  let home ← match w.filledVariable? Workspace.homeName with
    | some home => pure (Path.read home)
    | none => w.home
  match configured? w home with
  | some name => return some (Path.read (w.expandTilde name))
  | none =>
    let base := match w.filledVariable? "XDG_CONFIG_HOME".toList with
      | some base => Path.read base
      | none => home.child ".config".toList
    let usual := base.child "git/ignore".toList
    return if ← (w.isFile usual).mapError .file then some usual else none

/-- The rules of a file that may be missing. -/
def rulesOf (w : Workspace) (base : Text) (p : Path) : Except ReadError (List IgnoreRule) :=
  match w.readText p with
  | .ok text => .ok (IgnoreRule.parse base text)
  | .error (.file cause) => if cause.fault = .notFound then .ok [] else .error (.file cause)
  | .error cause => .error cause

end TestSkeleton.IgnoreSource
