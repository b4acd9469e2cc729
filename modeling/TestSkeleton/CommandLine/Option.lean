import TestSkeleton.Text.Class
import TestSkeleton.Text.Quoted

/-! Options among the words of a command line.

A long option may be shortened as long as it stays the only one, and its value may stand behind an
equals sign. Behind two hyphens alone no word is an option. -/

namespace TestSkeleton.CommandLine

open Text

inductive OptionKind where
  | help
  | verbose
  | logFile
  | outputDir
  | includePrivate
  | skipFunction
  | noParallel
  | chunkSize
  | noGitignore
  | language
  | config
  | dryRun
  | force
  deriving DecidableEq, Repr

namespace OptionKind

/-- The spellings of an option. -/
def names : OptionKind → List Text
  | help => ["-h".toList, "--help".toList]
  | verbose => ["-v".toList, "--verbose".toList]
  | logFile => ["--log-file".toList]
  | outputDir => ["--output-dir".toList]
  | includePrivate => ["--include-private".toList]
  | skipFunction => ["--skip-function".toList]
  | noParallel => ["--no-parallel".toList]
  | chunkSize => ["--chunk-size".toList]
  | noGitignore => ["--no-gitignore".toList]
  | language => ["--language".toList]
  | config => ["--config".toList]
  | dryRun => ["--dry-run".toList]
  | force => ["--force".toList]

def takesValue : OptionKind → Bool
  | logFile | outputDir | skipFunction | chunkSize | language | config => true
  | _ => false

/-- All spellings, as messages name an option. -/
def label (o : OptionKind) : Text := join ['/'] o.names

end OptionKind

/-- What is wrong with a command line. -/
inductive Problem where
  | ambiguous (given : Text) (candidates : List Text)
  | missingValue (option : OptionKind)
  | ignoredValue (option : OptionKind) (value : Text)
  | invalidInt (option : OptionKind) (value : Text)
  | invalidChoice (label value : Text) (choices : List Text)
  | missingCommand
  | unrecognized (words : List Text)
  deriving DecidableEq, Repr

namespace Problem

def message : Problem → Text
  | ambiguous given candidates =>
    "ambiguous option: ".toList ++ given ++ " could match ".toList ++ join ", ".toList candidates
  | missingValue o => "argument ".toList ++ o.label ++ ": expected one argument".toList
  | ignoredValue o value =>
    "argument ".toList ++ o.label ++ ": ignored explicit argument ".toList ++ quoted value
  | invalidInt o value =>
    "argument ".toList ++ o.label ++ ": invalid int value: ".toList ++ quoted value
  | invalidChoice label value choices =>
    "argument ".toList ++ label ++ ": invalid choice: ".toList ++ quoted value ++
      " (choose from ".toList ++ join ", ".toList (choices.map quoted) ++ [')']
  | missingCommand => "the following arguments are required: command".toList
  | unrecognized words => "unrecognized arguments: ".toList ++ join [' '] words

end Problem

/-- What stands in the word of an option behind its name: behind an equals sign, or joined to it. -/
inductive Attached where
  | equated (value : Text)
  | joined (rest : Text)
  deriving DecidableEq, Repr

/-- What a word is. An option that is not known has no kind. -/
inductive Role where
  | plain
  | dashes
  | option (found : Option (OptionKind × Text)) (attached : Option Attached)
  deriving DecidableEq, Repr

structure Word where
  text : Text
  role : Role
  deriving DecidableEq, Repr

/-- The spellings of options, each with its option. -/
def spellings (options : List OptionKind) : List (OptionKind × Text) :=
  options.flatMap fun o => o.names.map fun name => (o, name)

def findName? (options : List OptionKind) (name : Text) : Option (OptionKind × Text) :=
  (spellings options).find? (·.2 == name)

/-- The name and the value around the first equals sign. -/
def cutValue (t : Text) : Text × Option Attached :=
  match cutAt? (· == '=') t with
  | some (name, value) => (name, some (.equated value))
  | none => (t, none)

def isLong (t : Text) : Bool := startsWith ['-', '-'] t

/-- The options that a word may stand for, with the values attached to it. -/
def candidates (options : List OptionKind) (t : Text) :
    List ((OptionKind × Text) × Option Attached) :=
  if isLong t then
    let (start, value) := cutValue t
    ((spellings options).filter fun (_, name) => startsWith start name).map fun s => (s, value)
  else
    (spellings options).filterMap fun (o, name) =>
      if name == t.take 2 then some ((o, name), some (.joined (t.drop 2)))
      else if startsWith t name then some ((o, name), none)
      else none

/-- Whether a word that begins with a hyphen is a number. -/
def isNegativeNumber (t : Text) : Bool :=
  let isDigits (t : Text) : Bool := t.all fun c => (decimalValue? c).isSome
  match t with
  | '-' :: r => match cutAt? (· == '.') r with
    | some (whole, fraction) => isDigits whole && !fraction.isEmpty && isDigits fraction
    | none => !r.isEmpty && isDigits r
  | _ => false

def role (options : List OptionKind) (t : Text) : Except Problem Role :=
  if t.head? ≠ some '-' then .ok .plain
  else if let some found := findName? options t then .ok (.option (some found) none)
  else if t.length = 1 then .ok .plain
  else
    let (name, value) := cutValue t
    match value.bind fun _ => findName? options name with
    | some found => .ok (.option (some found) value)
    | none => match candidates options t with
      | [(found, value)] => .ok (.option (some found) value)
      | [] => .ok (if isNegativeNumber t || ' ' ∈ t then .plain else .option none none)
      | several => .error (.ambiguous t (several.map (·.1.2)))

/-- Tells options from other words. -/
def classify (options : List OptionKind) : List Text → Except Problem (List Word)
  | [] => .ok []
  | t :: rest =>
    if t = "--".toList then .ok (⟨t, .dashes⟩ :: rest.map fun t => ⟨t, .plain⟩)
    else do
      let r ← role options t
      return ⟨t, r⟩ :: (← classify options rest)

/-- An option with its value. -/
abbrev Given := OptionKind × Option Text

/-- The options of one word: those that are complete, one that takes its value from the next word,
and the end of the word when it names no option. -/
structure WordOptions where
  given : List Given := []
  waiting : Option OptionKind := none
  unknown : Option Text := none
  deriving DecidableEq, Repr

namespace WordOptions

/-- One option without a value in its word. -/
def single (o : OptionKind) : WordOptions :=
  if o.takesValue then { waiting := some o } else { given := [(o, none)] }

/-- One option with a value behind an equals sign. -/
def equated (o : OptionKind) (value : Text) : Except Problem WordOptions :=
  if o.takesValue then .ok { given := [(o, some value)] } else .error (.ignoredValue o value)

/-- The same options behind another one. -/
def behind (o : OptionKind) (w : WordOptions) : WordOptions :=
  { w with given := (o, none) :: w.given }

/-- Options joined into one word behind a single hyphen: an option, and what follows its letter. -/
def joined (options : List OptionKind) (o : OptionKind) : Text → Except Problem WordOptions
  | [] => equated o []
  | c :: r =>
    if o.takesValue then equated o (c :: r)
    else if c == '-' then .error (.ignoredValue o (c :: r))
    else match findName? options ['-', c] with
      | none => .ok { given := [(o, none)], unknown := some ('-' :: c :: r) }
      | some (next, _) => (behind o) <$> match r with
        | [] => .ok (single next)
        | '=' :: value => equated next value
        | d :: rest => joined options next (d :: rest)

/-- The options of a word that starts with an option. -/
def read (options : List OptionKind) (o : OptionKind) : Option Attached → Except Problem WordOptions
  | none => .ok (single o)
  | some (.equated value) => equated o value
  | some (.joined rest) => joined options o rest

end WordOptions

end TestSkeleton.CommandLine
