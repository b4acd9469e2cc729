import TestSkeleton.Settings.Basic
import TestSkeleton.Text.Class

/-! Layers of settings, from files, from the environment and from overrides.

A layer replaces what the layers below it say, setting by setting; only the type overrides of all
layers are joined. -/

namespace TestSkeleton.Settings

open Text

/-- The entries of a section of a document; what is no table counts as an empty one. -/
def sectionOf (document : Entries) (name : Text) : Entries :=
  ((document.get? name).map Value.entries).getD []

/-- What a document says about a setting: its place in a section wins over its flat name, and the
name of the project stands in for a crate name. -/
def saidIn? (document : Entries) (s : Setting) : Option Value :=
  let inSection := (sectionOf document s.group).get? s.field
  let said := inSection.or (document.get? s.name)
  if s = .crateName then said.or ((sectionOf document Setting.projectSection).get? "name".toList)
  else said

/-- The settings of those for which a value is found, in order. -/
def collect (found : Setting → Option Value) : Settings :=
  Setting.all.filterMap fun s => (found s).map fun value => (s, value)

def ofDocument (document : Entries) : Settings := collect (saidIn? document)

/-- The variable of the environment for a setting. -/
def variableName (s : Setting) : Text := "AUTO_TEST_".toList ++ s.name.map Char.toUpper

/-- The pieces between commas, without blanks around them and without blank pieces. -/
def listItems (t : Text) : List Text := ((splitOn ',' t).map trim).filter (· ≠ [])

/-- What a variable says about a setting. Type overrides have no variable. -/
def saidBy? (environment : Table Text Text) (s : Setting) : Option Value :=
  if s = .typeMappings then none
  else (environment.get? (variableName s)).map fun raw =>
    if s = .skipFunctions ∨ s = .skipPatterns then Value.texts (listItems raw) else Value.text raw

def ofVariables (environment : Table Text Text) : Settings := collect (saidBy? environment)

/-- The settings among overrides, which leave out what is null. -/
def ofOverrides (overrides : List (Text × Value)) : Settings :=
  Table.ofList <| overrides.filterMap fun (name, value) =>
    if value.isNull then none else (Setting.ofName? name).map fun s => (s, value)

/-- The type overrides among settings; what is no table counts as an empty one. -/
def mappings (settings : Settings) : Entries :=
  ((settings.get? .typeMappings).map Value.entries).getD []

/-- A setting over the settings below it. -/
def overlaySetting (below : Settings) (s : Setting) (value : Value) : Settings :=
  if s = .typeMappings then below.put s (.table (Entries.putAll below.mappings value.entries))
  else below.put s value

/-- A layer over the settings below it. -/
def overlay (below layer : Settings) : Settings :=
  layer.foldl (fun all (s, value) => overlaySetting all s value) below

end TestSkeleton.Settings
