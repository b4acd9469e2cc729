import TestSkeleton.Extraction.V
import TestSkeleton.Proofs.V.Inert

/-! Declarations of V functions: how they are written, and what is to be read off them.

Each piece of a declaration carries what its place in the source asks of it. -/

namespace TestSkeleton.V

open Text Signature

/-- The name of a parameter or of a receiver, which is not the marker `mut`. -/
structure ValueName where
  text : Text
  filled : text ≠ []
  word : ∀ c ∈ text, isWord c = true
  other : text ≠ "mut".toList

structure FunctionName where
  first : Char
  more : Text
  starts : isAsciiIdentifierStart first = true
  word : ∀ c ∈ more, isWord c = true

def FunctionName.text (n : FunctionName) : Text := n.first :: n.more

/-- A type in normal spelling that takes one place in a list and keeps to the header's line. -/
structure TypeText where
  text : Text
  filled : text ≠ []
  normal : normalize text = text
  inert : Inert text
  plain : ∀ c ∈ text, c ∉ ['\x7b', '<', '>', '\n']
  single : ∀ i < text.length, text[i]? = some ',' → ¬Nested (text.take i)

/-- What stands between square brackets in a header. -/
structure Generics where
  text : Text
  inert : Inert text
  flat : ∀ c ∈ text, c ∉ [']', '\n']

def Generics.written (g : Generics) : Text := '[' :: (g.text ++ [']'])

/-- The name of a receiver's type, possibly with a module in front of it. -/
structure OwnerName where
  text : Text
  filled : text ≠ []
  word : ∀ c ∈ text, isTypeNameChar c = true

inductive ReceiverMode where
  | value
  | mutable
  | reference
  deriving DecidableEq, Repr

structure ReceiverClause where
  mode : ReceiverMode
  name : ValueName
  owner : OwnerName
  generics : Option Generics

namespace ReceiverClause

def type (r : ReceiverClause) : Text :=
  (if r.mode = .reference then ['&'] else []) ++ r.owner.text ++ r.generics.elim [] Generics.written

def written (r : ReceiverClause) : Text :=
  '(' :: ((if r.mode = .mutable then "mut ".toList else []) ++ r.name.text ++ ' ' :: r.type ++ [')'])

/-- The parameter that stands for the receiver. -/
def parameter (r : ReceiverClause) : Parameter :=
  match r.mode with
  | .value => ⟨"self".toList, "Self".toList⟩
  | .mutable => ⟨"self".toList, "&mut Self".toList⟩
  | .reference => ⟨"self".toList, "&Self".toList⟩

end ReceiverClause

structure Binder where
  isMutable : Bool
  name : ValueName

def Binder.written (b : Binder) : Text := withMut b.isMutable b.name.text

/-- Names that share the type behind the last of them. -/
structure ParameterGroup where
  front : List Binder
  last : Binder
  type : TypeText

namespace ParameterGroup

def parts (g : ParameterGroup) : List Text :=
  g.front.map Binder.written ++ [g.last.written ++ ' ' :: g.type.text]

def parameters (g : ParameterGroup) : List Parameter :=
  (g.front ++ [g.last]).map fun b => ⟨b.name.text, withMut b.isMutable g.type.text⟩

end ParameterGroup

structure Declaration where
  isPublic : Bool
  receiver : Option ReceiverClause
  name : FunctionName
  generics : Option Generics
  groups : List ParameterGroup
  returns : Option TypeText
  body : Text
  bodyInert : Inert body

namespace Declaration

def clause (d : Declaration) : Text := d.receiver.elim [] fun r => r.written ++ [' ']

def named (d : Declaration) : Text := d.name.text ++ d.generics.elim [] Generics.written

/-- The header up to the parenthesis that opens the parameters. -/
def lead (d : Declaration) : Text :=
  (if d.isPublic then "pub ".toList else []) ++ "fn ".toList ++ d.clause ++ d.named

def parameterText (d : Declaration) : Text := join ", ".toList (d.groups.flatMap ParameterGroup.parts)

def returnText (d : Declaration) : Text := d.returns.elim [] fun type => ' ' :: type.text

/-- The declaration behind the parenthesis that opens the parameters. -/
def rest (d : Declaration) : Text :=
  d.parameterText ++ ')' :: (d.returnText ++ ' ' :: '\x7b' :: '\n' :: (d.body ++ ['\x7d', '\n']))

def source (d : Declaration) : Text := d.lead ++ '(' :: d.rest

def header (d : Declaration) : Header where
  isPublic := d.isPublic
  receiver := d.receiver.map fun r => ⟨r.mode = .mutable, r.type⟩
  name := d.name.text

/-- The signature that the declaration states. -/
def function (file : Text) (d : Declaration) : Function where
  name := d.name.text
  parameters := (d.receiver.map ReceiverClause.parameter).toList ++
    d.groups.flatMap ParameterGroup.parameters
  returns := d.returns.elim [] TypeText.text
  file
  owner := d.receiver.map (·.owner.text)

end Declaration

/-- Whether a line begins with `fn`, or with `pub` and `fn`, behind blanks. -/
def opensFunction (line : Text) : Bool :=
  let line := trimStart line
  startsWith "fn".toList line || (dropKeyword? "pub".toList line).any (startsWith "fn".toList)

end TestSkeleton.V
