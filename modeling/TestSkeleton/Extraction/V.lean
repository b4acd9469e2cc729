import TestSkeleton.Extraction.V.Blanking
import TestSkeleton.Extraction.V.Bracket
import TestSkeleton.Extraction.V.Header
import TestSkeleton.Signature

/-! Signatures of V functions, read off the headers of a blanked source. -/

namespace TestSkeleton.V

open Text Signature

/-- A parameter as written: its name, its type, and whether `mut` stands before it. A part of one
word may be a name whose type follows later or a type without a name. -/
inductive Piece where
  | word (word : Text) (isMutable : Bool)
  | named (name type : Text) (isMutable : Bool)
  deriving DecidableEq, Repr

def pieceOf (part : Text) : Piece :=
  let (isMutable, part) := match dropPrefix? "mut ".toList part with
    | some r => (true, trim r)
    | none => (false, part)
  let name := part.takeWhile (!isBlank ·)
  match trimStart (part.dropWhile (!isBlank ·)) with
  | [] => .word name isMutable
  | type => .named name type isMutable

def withMut (isMutable : Bool) (type : Text) : Text :=
  if isMutable then "mut ".toList ++ type else type

/-- Names with their types. Words wait for the next type; those that find none are types without a
name, which stands empty. -/
def resolve (waiting : List (Text × Bool)) : List Piece → List (Text × Text)
  | [] => waiting.map fun (type, isMutable) => ([], withMut isMutable type)
  | .word w isMutable :: rest => resolve (waiting ++ [(w, isMutable)]) rest
  | .named name type isMutable :: rest =>
    waiting.map (fun (w, wMutable) => (w, withMut wMutable type)) ++
      (name, withMut isMutable type) :: resolve [] rest

/-- The parameters between the parentheses of a header. One without a name is named by its place. -/
def parameters (t : Text) : List Parameter :=
  let parts := (splitTopLevel t).filter (· ≠ [])
  (resolve [] (parts.map pieceOf)).mapIdx fun i (name, type) =>
    parameter (if name.isEmpty then "arg".toList ++ ofNat i else name) type

/-- What stands between the parameters and the body, or the end of the line. -/
def returnType (t : Text) : Text := trim (t.takeWhile fun c => c != '\x7b' && c != '\n')

def Receiver.owner (r : Receiver) : Text := beforeFirst '[' (r.type.dropWhile (· == '&'))

def Receiver.parameter (r : Receiver) : Parameter :=
  Signature.receiver (startsWith ['&'] r.type) r.isMutable

/-- The function of a header, given what follows its opening parenthesis. -/
def functionOf? (file : Text) (h : Header) (rest : Text) : Option Function :=
  (cutAtClosing? 0 rest).map fun (inside, after) => {
    name := h.name
    parameters := (h.receiver.map Receiver.parameter).toList ++ parameters inside
    returns := normalize (returnType after)
    file
    owner := h.receiver.map Receiver.owner }

/-- The signatures of a source that the policy keeps, in the order of the source. -/
def extract (policy : Policy) (file source : Text) : Except ExtractionError (List Function) :=
  let code := blank source
  match nestingFault? code with
  | some fault => .error fault
  | none => .ok <| (headers code).filterMap fun (h, rest) =>
    if policy.retains h.name h.isPublic then functionOf? file h rest else none

end TestSkeleton.V
