import TestSkeleton.Document.Value
import TestSkeleton.Table

/-! The settings that a configuration can make.

Each setting has a flat name, and a place inside a section of a configuration file. -/

namespace TestSkeleton

inductive Setting where
  | outputDir
  | skipFunctions
  | includePrivate
  | timeoutSeconds
  | templatesDir
  | typeMappings
  | parallel
  | parallelChunkSize
  | respectGitignore
  | skipPatterns
  | language
  | crateName
  deriving DecidableEq, Repr

/-- The values of settings before they are checked. -/
abbrev Settings := Table Setting Value

namespace Setting

/-- All settings, those of one section in a row. -/
def all : List Setting :=
  [outputDir, skipFunctions, includePrivate, timeoutSeconds, templatesDir, typeMappings, parallel,
    parallelChunkSize, respectGitignore, skipPatterns, language, crateName]

def name : Setting → Text
  | outputDir => "output_dir".toList
  | skipFunctions => "skip_functions".toList
  | includePrivate => "include_private".toList
  | timeoutSeconds => "timeout_seconds".toList
  | templatesDir => "templates_dir".toList
  | typeMappings => "type_mappings".toList
  | parallel => "parallel".toList
  | parallelChunkSize => "parallel_chunk_size".toList
  | respectGitignore => "respect_gitignore".toList
  | skipPatterns => "skip_patterns".toList
  | language => "language".toList
  | crateName => "crate_name".toList

def ofName? (name : Text) : Option Setting := all.find? (·.name == name)

def projectSection : Text := "project".toList

/-- The section of a configuration file for a setting. -/
def group : Setting → Text
  | outputDir | skipFunctions | includePrivate | timeoutSeconds | templatesDir =>
    "generation".toList
  | typeMappings => "types".toList
  | parallel | parallelChunkSize => "performance".toList
  | respectGitignore | skipPatterns => "filesystem".toList
  | language | crateName => projectSection

/-- The name of a setting inside its section. -/
def field : Setting → Text
  | typeMappings => "mappings".toList
  | s => s.name

end Setting

end TestSkeleton
