import TestSkeleton.Extraction.Interning
import TestSkeleton.Failure

/-! Extraction of signatures in either language. -/

namespace TestSkeleton

open Text

namespace Language

/-- The language of a name in any letter case. -/
def ofAnyCase? (name : Text) : Option Language := ofName? (lower name)

/-- The end of the names of source files. -/
def fileSuffix : Language → Text
  | rust => ".rs".toList
  | v => ".v".toList

/-- Whether a file of that name is a source file. Test files of V are none. -/
def acceptsName (l : Language) (name : Text) : Bool :=
  let name := lower name
  match l with
  | rust => endsWith ".rs".toList name
  | v => endsWith ".v".toList name && !endsWith "_test.v".toList name

/-- The signatures of a source that the policy keeps. -/
def extract (l : Language) (policy : Policy) (file source : Text) :
    Except ExtractionError (List Function) :=
  match l with
  | rust => Rust.extract policy file source
  | v => V.extract policy file source

/-- The signatures of a source that the policy keeps, with their types in the table. -/
def keepSource (l : Language) (policy : Policy) (file source : Text) :
    ExceptT ExtractionError Interning (List Function) :=
  match l with
  | rust => Rust.keepSource policy file source
  | v => V.keepSource policy file source

end Language

/-- The language of a name, for extraction. -/
def extractionLanguage (name : Text) : Except Failure Language :=
  match Language.ofAnyCase? name with
  | some l => .ok l
  | none => .error (.language ⟨.extraction, name⟩)

/-- What an extractor is asked for. -/
structure ExtractionCall where
  language : Text
  policy : Policy
  file : Text
  source : Text

namespace ExtractionCall

/-- The answer to a call, with the types of its functions in the table. -/
def answer (c : ExtractionCall) : ExceptT Failure Interning (List Function) := do
  let l ← MonadExcept.ofExcept (extractionLanguage c.language)
  (l.keepSource c.policy c.file c.source).adapt (.extraction c.file)

end ExtractionCall

/-- One extraction of a session: its functions, and the table of the session afterwards. -/
def extractInSession (interner : Interner) (language : Text) (policy : Policy)
    (file source : Text) : Except Failure (List Function × Interner) :=
  let (answer, interner) := (ExtractionCall.answer ⟨language, policy, file, source⟩).run interner
  answer.map fun functions => (functions, interner)

end TestSkeleton
