import TestSkeleton.CommandLine.Option
import TestSkeleton.Document.Numeral
import TestSkeleton.Language

/-! The arguments of a command line. -/

namespace TestSkeleton.CommandLine

open Text

inductive Command where
  | generate
  | init
  deriving DecidableEq, Repr

structure Arguments where
  verbose : Bool := false
  logFile : Option Text := none
  path : Text := ['.']
  outputDir : Option Text := none
  includePrivate : Bool := false
  skipFunctions : List Text := []
  noParallel : Bool := false
  chunkSize : Option Int := none
  noGitignore : Bool := false
  language : Option Text := none
  config : Option Text := none
  dryRun : Bool := false
  force : Bool := false
  deriving DecidableEq, Repr

/-- Why a command line leads to no command: help is asked for, or something is wrong. -/
inductive Stop where
  | help
  | wrong (command : Option Command) (problem : Problem)
  deriving DecidableEq, Repr

namespace Command

def name : Command → Text
  | generate => "generate".toList
  | init => "init".toList

def all : List Command := [generate, init]

/-- The options that a command takes. -/
def options : Command → List OptionKind
  | generate => [.help, .verbose, .logFile, .outputDir, .includePrivate, .skipFunction, .noParallel,
      .chunkSize, .noGitignore, .language, .config, .dryRun]
  | init => [.help, .verbose, .logFile, .force]

end Command

/-- The options in front of a command. -/
def commonOptions : List OptionKind := [.help, .verbose, .logFile]

namespace Arguments

/-- Enters one option. -/
def enter (command : Option Command) (a : Arguments) : Given → Except Stop Arguments
  | (.help, _) => .error .help
  | (.verbose, _) => .ok { a with verbose := true }
  | (.logFile, value) => .ok { a with logFile := value }
  | (.outputDir, value) => .ok { a with outputDir := value }
  | (.includePrivate, _) => .ok { a with includePrivate := true }
  | (.skipFunction, value) => .ok { a with skipFunctions := a.skipFunctions ++ value.toList }
  | (.noParallel, _) => .ok { a with noParallel := true }
  | (.noGitignore, _) => .ok { a with noGitignore := true }
  | (.config, value) => .ok { a with config := value }
  | (.dryRun, _) => .ok { a with dryRun := true }
  | (.force, _) => .ok { a with force := true }
  | (.chunkSize, value) =>
    let t := value.getD []
    match readInteger? t with
    | some i => .ok { a with chunkSize := some i }
    | none => .error (.wrong command (.invalidInt .chunkSize t))
  | (.language, value) =>
    let t := value.getD []
    match Language.ofName? t with
    | some _ => .ok { a with language := some t }
    | none =>
      let choices := Language.all.map (·.name)
      .error (.wrong command (.invalidChoice OptionKind.language.label t choices))

def enterAll (command : Option Command) (a : Arguments) (given : List Given) :
    Except Stop Arguments := given.foldlM (enter command) a

/-- Reads the words of a command: its options, its path, and words that it cannot use. -/
def readWords (command : Command) (a : Arguments) (pathTaken : Bool) (extra : List Text) :
    List Word → Except Stop (Arguments × List Text)
  | [] => .ok (a, extra)
  | w :: rest =>
    match w.role with
    | .option none _ => readWords command a pathTaken (extra ++ [w.text]) rest
    | .option (some (o, _)) attached =>
      match WordOptions.read command.options o attached with
      | .error problem => .error (.wrong command problem)
      | .ok ⟨given, none, unknown⟩ =>
        match a.enterAll command given with
        | .error stop => .error stop
        | .ok a => readWords command a pathTaken (extra ++ unknown.toList) rest
      | .ok ⟨given, some waiting, _⟩ =>
        match rest with
        | ⟨t, .plain⟩ :: rest =>
          match a.enterAll command (given ++ [(waiting, some t)]) with
          | .error stop => .error stop
          | .ok a => readWords command a pathTaken extra rest
        | _ => .error (.wrong command (.missingValue waiting))
    | .plain =>
      if pathTaken then readWords command a true (extra ++ [w.text]) rest
      else match rest with
        | ⟨_, .dashes⟩ :: rest => readWords command { a with path := w.text } true extra rest
        | rest => readWords command { a with path := w.text } true extra rest
    | .dashes =>
      if pathTaken then readWords command a true (extra ++ [w.text]) rest
      else match rest with
        | ⟨t, .plain⟩ :: rest => readWords command { a with path := t } true extra rest
        | rest => readWords command a true extra rest

/-- The command of a name and its words; the words that no one can use are a problem at last. -/
def readCommand (a : Arguments) (extra : List Text) (name : Text) (words : List Text) :
    Except Stop (Command × Arguments) := do
  match Command.all.find? (·.name == name) with
  | none =>
    throw (.wrong none (.invalidChoice "command".toList name (Command.all.map (·.name))))
  | some command =>
    let words ← (classify command.options words).mapError (.wrong command)
    let (a, more) ← readWords command a false [] words
    match extra ++ more with
    | [] => return (command, a)
    | unknown => throw (.wrong none (.unrecognized unknown))

/-- Reads the options in front of the command, and then the command. -/
def readFront (a : Arguments) (extra : List Text) : List Word → Except Stop (Command × Arguments)
  | [] => .error (.wrong none .missingCommand)
  | w :: rest =>
    match w.role with
    | .option none _ => readFront a (extra ++ [w.text]) rest
    | .option (some (o, _)) attached =>
      match WordOptions.read commonOptions o attached with
      | .error problem => .error (.wrong none problem)
      | .ok ⟨given, none, unknown⟩ =>
        match a.enterAll none given with
        | .error stop => .error stop
        | .ok a => readFront a (extra ++ unknown.toList) rest
      | .ok ⟨given, some waiting, _⟩ =>
        match rest with
        | ⟨t, .plain⟩ :: rest =>
          match a.enterAll none (given ++ [(waiting, some t)]) with
          | .error stop => .error stop
          | .ok a => readFront a extra rest
        | _ => .error (.wrong none (.missingValue waiting))
    | .dashes =>
      if rest.isEmpty then .error (.wrong none .missingCommand)
      else readCommand a extra w.text (rest.map (·.text))
    | .plain => readCommand a extra w.text (rest.map (·.text))

/-- The command and the arguments that a command line gives. -/
def read (words : List Text) : Except Stop (Command × Arguments) := do
  let words ← (classify commonOptions words).mapError (.wrong none)
  readFront {} [] words

end Arguments

namespace Stop

def program : Text := "autotest".toList

/-- What is printed for a command line that leads to no command. -/
def text : Stop → Text
  | help => usage
  | wrong command problem =>
    let name := match command with
      | some c => program ++ [' '] ++ c.name
      | none => program
    usage ++ name ++ ": error: ".toList ++ problem.message ++ ['\n']
where
  usage : Text :=
    "usage: autotest [-h] [-v] [--log-file FILE] generate|init [OPTION ...] [PATH]\n".toList

end Stop

end TestSkeleton.CommandLine
