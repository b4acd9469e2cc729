import TestSkeleton.Document.Value
import TestSkeleton.Extraction.Basic
import TestSkeleton.Literal.Basic

/-! Every way in which an operation can fail, by cause, with the wording of its message. -/

namespace TestSkeleton

/-- Why a configuration cannot be used. -/
inductive ConfigError where
  | policy (cause : PolicyError)
  | unreadable (path : Text) (cause : FileError)
  | missing (path : Text)
  | malformed (name : Text)
  | noMapping (name : Text)
  | unknownFormat (name : Text)
  | invalidValue (key : Text)
  | template (name problem : Text)
  deriving DecidableEq, Repr

namespace ConfigError

def message : ConfigError → Text
  | policy cause => cause.message
  | unreadable path cause =>
    "Failed to read ".toList ++ path ++ ": ".toList ++ cause.message
  | missing path => "Configuration file not found: ".toList ++ path
  | malformed name => "Failed to parse ".toList ++ name ++ ": not well formed".toList
  | noMapping name => name ++ " must contain a mapping at the root".toList
  | unknownFormat name =>
    "Unsupported configuration format for ".toList ++ name ++ ". Use .toml or .yaml".toList
  | invalidValue key => "Invalid value for '".toList ++ key ++ "'".toList
  | template name problem =>
    "Failed to render template ".toList ++ name ++ ": ".toList ++ problem

end ConfigError

/-- Why a path leads to no project. -/
inductive RootError where
  | notFound (path : Text)
  | notFolder (path : Text)
  | notUsable (path : Text)
  | noRootAbove (path : Text)
  deriving DecidableEq, Repr

namespace RootError

def message : RootError → Text
  | notFound path => "Project path not found: ".toList ++ path
  | notFolder path => "Project path is not a directory: ".toList ++ path
  | notUsable path => "Project path not found or not a directory: ".toList ++ path
  | noRootAbove path => "Project root not found above ".toList ++ path

end RootError

/-- What a language of an unknown name was wanted for. -/
inductive Service where
  | literals
  | assertions
  | rendering
  | extraction
  deriving DecidableEq, Repr

structure UnsupportedLanguage where
  service : Service
  name : Text
  deriving DecidableEq, Repr

namespace UnsupportedLanguage

def message (e : UnsupportedLanguage) : Text :=
  let about (what : String) : Text :=
    "No ".toList ++ what.toList ++ " for language '".toList ++ e.name ++ "'".toList
  match e.service with
  | .literals => about "value synthesizer"
  | .assertions => about "assertion synthesizer"
  | .rendering => about "test renderer"
  | .extraction => about "extractor" ++ " (supported: ".toList ++ Language.listed ++ [')']

end UnsupportedLanguage

inductive Failure where
  | config (cause : ConfigError)
  | root (cause : RootError)
  | language (cause : UnsupportedLanguage)
  | extraction (path : Text) (cause : ExtractionError)
  | literal (cause : LiteralError)
  | file (cause : FileError)
  | utf8 (cause : Utf8Error)
  | linkLoop (path : Text)
  | noHome
  | document (cause : ScalarFault)
  deriving DecidableEq, Repr

namespace Failure

def message : Failure → Text
  | config cause => cause.message
  | root cause => cause.message
  | language cause => cause.message
  | extraction path cause => path ++ ": ".toList ++ cause.reason
  | literal cause => cause.type ++ ": ".toList ++ cause.reason
  | file cause => cause.message
  | utf8 cause => cause.message
  | linkLoop path => "Symlink loop from ".toList ++ Text.quoted path
  | noHome => "Could not determine home directory.".toList
  | document cause => cause.message

end Failure

end TestSkeleton
