import TestSkeleton.Document.Toml
import TestSkeleton.Document.Yaml
import TestSkeleton.Document.Yaml.Printer
import TestSkeleton.Settings.Coercion
import TestSkeleton.Settings.Layer
import TestSkeleton.Workspace.Change

/-! Configuration files: reading them, finding them, and writing a policy as one.

The settings of a run come, from the lowest layer up, from the file of the user, the file of the
project or the one that is asked for, the environment, and overrides. -/

namespace TestSkeleton

open Text

namespace Settings

/-- The names of a project's configuration file, the preferred first. -/
def projectNames : List Text :=
  ["auto_test.toml", "auto_test.yaml", "auto_test.yml",
    ".auto_test.toml", ".auto_test.yaml", ".auto_test.yml"].map String.toList

/-- The names of the user's configuration file, the preferred first. -/
def userNames : List Text := ["config.toml", "config.yaml", "config.yml"].map String.toList

inductive Format where
  | toml
  | yaml
  deriving DecidableEq, Repr

/-- The format of a file by the end of its name. -/
def Format.ofPath? (p : Path) : Option Format :=
  let suffix := lower p.suffix
  if suffix = ".toml".toList then some .toml
  else if suffix = ".yaml".toList ∨ suffix = ".yml".toList then some .yaml
  else none

/-- The entries at the root of a document; null counts as an empty table. -/
def rootEntries (name : Text) : Value → Except Failure Entries
  | .table entries => .ok entries
  | .scalar .null => .ok []
  | _ => .error (.config (.noMapping name))

/-- The document in the text of a file. A blank text is an empty one, whatever the file's name. -/
def parse (p : Path) (text : Text) : Except Failure Entries :=
  if (trim text).isEmpty then .ok []
  else match Format.ofPath? p with
    | none => .error (.config (.unknownFormat p.name))
    | some .toml => match Toml.read text with
      | some entries => .ok entries
      | none => .error (.config (.malformed p.name))
    | some .yaml => match Yaml.read text with
      | .ok value => rootEntries p.name value
      | .error .malformed => .error (.config (.malformed p.name))
      | .error (.scalar cause) => .error (.document cause)

def documentAt (w : Workspace) (p : Path) : Except Failure Entries :=
  match w.readText p with
  | .ok text => parse p text
  | .error (.file cause) => .error (.config (.unreadable p.text cause))
  | .error (.utf8 cause) => .error (.utf8 cause)

def ofFile (w : Workspace) (p : Path) : Except Failure Settings := ofDocument <$> documentAt w p

/-- The first of several names in a folder that is a file. -/
def firstFile? (w : Workspace) (folder : Path) : List Text → Except Failure (Option Path)
  | [] => .ok none
  | name :: rest => do
    let p := folder.child name
    if ← (w.isFile p).mapError .file then return some p
    firstFile? w folder rest

/-- The folder of the user's configuration. -/
def userFolder (w : Workspace) : Except Failure Path := do
  let base ← match w.filledVariable? "XDG_CONFIG_HOME".toList with
    | some base => pure (Path.read base)
    | none => (·.child ".config".toList) <$> w.home
  return base.child "auto_test".toList

/-- The document of the user, empty if there is none. -/
def userDocument (w : Workspace) : Except Failure Entries := do
  match ← firstFile? w (← userFolder w) userNames with
  | some p => documentAt w p
  | none => return []

/-- The document that is asked for, which must be there, or else the one of the project. -/
def projectDocument (w : Workspace) (root : Path) (asked : Option Path) :
    Except Failure Entries := do
  match asked with
  | some p =>
    if ← (w.isPresent p).mapError .file then documentAt w p
    else throw (.config (.missing p.text))
  | none => match ← firstFile? w root projectNames with
    | some p => documentAt w p
    | none => return []

end Settings

/-- Where the settings of a run come from. -/
structure SettingSources where
  asked : Option Path := none
  overrides : List (Text × Value) := []
  withUser : Bool := true

/-- The documents that a run reads its settings from. -/
structure SettingDocuments where
  user : Entries := []
  project : Entries := []
  deriving DecidableEq

namespace SettingDocuments

def read (w : Workspace) (root : Path) (sources : SettingSources) :
    Except Failure SettingDocuments := do
  let user ← if sources.withUser then Settings.userDocument w else pure []
  let project ← Settings.projectDocument w root sources.asked
  return { user, project }

end SettingDocuments

namespace Settings

/-- The layers of settings, the lowest first. -/
def layers (d : SettingDocuments) (environment : Table Text Text)
    (overrides : List (Text × Value)) : List Settings :=
  [ofDocument d.user, ofDocument d.project, ofVariables environment, ofOverrides overrides]

end Settings

namespace Policy

/-- The policy of a project. -/
def load (w : Workspace) (root : Path) (sources : SettingSources := {}) :
    Except Failure Policy := do
  let d ← SettingDocuments.read w root sources
  let layers := Settings.layers d w.environment sources.overrides
  (layers.foldl Settings.overlay []).policy.mapError .config

/-- The policy as the text of a configuration file. -/
def print (p : Policy) : Text := Yaml.print p.layout

/-- Writes the policy as a configuration file, and makes the folders around it. -/
def write (p : Policy) (target : Path) (refusals : Change.Refusals := {}) : Change Unit := do
  Change.ensureFolders target.parent refusals.folder
  Change.writeFile target (Utf8.encode p.print) refusals

end Policy

end TestSkeleton
