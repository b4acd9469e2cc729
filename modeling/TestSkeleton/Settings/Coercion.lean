import TestSkeleton.Document.Numeral
import TestSkeleton.Failure
import TestSkeleton.Settings.Basic

/-! From settings to a policy, and from a policy to the layout of a configuration file. -/

namespace TestSkeleton

open Text

namespace Value

def text? : Value → Option Text
  | scalar s => s.shown?
  | _ => none

/-- An integer, or a text that spells one. A flag is none. -/
def int? : Value → Option Int
  | scalar (.int i) => some i
  | scalar (.text t) => readInteger? t
  | _ => none

def trueWords : List Text := ["true", "yes", "1", "on"].map String.toList

def falseWords : List Text := ["false", "no", "0", "off"].map String.toList

/-- A flag, or a text that spells one in any letter case. -/
def flag? : Value → Option Bool
  | scalar (.flag b) => some b
  | scalar (.text t) =>
    let word := lower (trim t)
    if trueWords.contains word then some true
    else if falseWords.contains word then some false
    else none
  | _ => none

/-- The texts of a list, without its items that have none; a single text is a list of one. -/
def textList : Value → List Text
  | scalar (.text t) => [t]
  | list items => items.filterMap text?
  | _ => []

/-- The pairs of a table whose values have a text. -/
def textPairs (v : Value) : Table Text Text :=
  Table.ofList (v.entries.filterMap fun (key, value) => value.text?.map fun t => (key.shown, t))

end Value

namespace Settings

/-- A setting through its coercion, or its default when it is not set. -/
def valid {α : Type} (settings : Settings) (s : Setting) (read : Value → Option α) (absent : α) :
    Except ConfigError α :=
  match settings.get? s with
  | none => .ok absent
  | some value => match read value with
    | some a => .ok a
    | none => .error (.invalidValue s.name)

/-- A setting through a coercion that takes every value. -/
def taken {α : Type} (settings : Settings) (s : Setting) (read : Value → α) (absent : α) : α :=
  ((settings.get? s).map read).getD absent

/-- A text that is not empty. -/
def filled (v : Value) : Option Text := v.text?.filter (· ≠ [])

/-- A language by name; `auto` leaves it open. -/
def languageName (v : Value) : Option Text :=
  ((filled v).map lower).filter (· ≠ "auto".toList)

/-- The options that settings make. -/
def fields (settings : Settings) : Except ConfigError PolicyFields := do
  let d : PolicyFields := {}
  return {
    outputDir := ← settings.valid .outputDir Value.text? d.outputDir
    skipFunctions := settings.taken .skipFunctions Value.textList d.skipFunctions
    typeMappings := settings.taken .typeMappings Value.textPairs d.typeMappings
    includePrivate := ← settings.valid .includePrivate Value.flag? d.includePrivate
    parallel := ← settings.valid .parallel Value.flag? d.parallel
    parallelChunkSize := ← settings.valid .parallelChunkSize Value.int? d.parallelChunkSize
    respectGitignore := ← settings.valid .respectGitignore Value.flag? d.respectGitignore
    skipPatterns := settings.taken .skipPatterns Value.textList d.skipPatterns
    timeoutSeconds := ← settings.valid .timeoutSeconds Value.int? d.timeoutSeconds
    language := settings.taken .language languageName d.language
    crateName := settings.taken .crateName filled d.crateName
    templatesDir := settings.taken .templatesDir filled d.templatesDir }

def policy (settings : Settings) : Except ConfigError Policy := do
  (Policy.ofFields (← settings.fields)).mapError .policy

end Settings

namespace Policy

/-- The value of an option, if it has one. -/
def value? (p : Policy) : Setting → Option Value
  | .outputDir => some (.text p.outputDir)
  | .skipFunctions => some (.texts p.skipFunctions)
  | .includePrivate => some (.scalar (.flag p.includePrivate))
  | .timeoutSeconds => some (.scalar (.int p.timeoutSeconds))
  | .templatesDir => p.templatesDir.map .text
  | .typeMappings => some (.table (p.typeMappings.map fun (k, v) => (.text k, .text v)))
  | .parallel => some (.scalar (.flag p.parallel))
  | .parallelChunkSize => some (.scalar (.int p.parallelChunkSize))
  | .respectGitignore => some (.scalar (.flag p.respectGitignore))
  | .skipPatterns => some (.texts p.skipPatterns)
  | .language => p.language.map fun l => .text l.name
  | .crateName => p.crateName.map .text

/-- Enters a value into a section, which is made if there is none. -/
def enter (sections : Entries) (s : Setting) (value : Value) : Entries :=
  let fields := ((sections.get? s.group).map Value.entries).getD []
  sections.put (.text s.group) (.table (fields.put (.text s.field) value))

/-- Enters the option of a setting, if it has a value. -/
def enterOption (p : Policy) (sections : Entries) (s : Setting) : Entries :=
  match p.value? s with
  | some value => enter sections s value
  | none => sections

/-- The policy as a configuration file lays it out, in sections. -/
def layout (p : Policy) : Entries := Setting.all.foldl p.enterOption []

end Policy

end TestSkeleton
