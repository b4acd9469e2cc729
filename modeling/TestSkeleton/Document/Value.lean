import TestSkeleton.Document.Binary64
import TestSkeleton.Document.Moment
import TestSkeleton.Table

/-! Values of configuration documents. -/

namespace TestSkeleton

inductive Scalar where
  | null
  | flag (b : Bool)
  | int (i : Int)
  | float (f : Binary64)
  | text (t : Text)
  | moment (m : Moment)
  deriving DecidableEq, Repr, Inhabited

inductive Value where
  | scalar (s : Scalar)
  | list (items : List Value)
  | table (pairs : List (Scalar × Value))
  deriving Repr, Inhabited

namespace Value

mutual

def decEq : (v w : Value) → Decidable (v = w)
  | scalar s, scalar t => decidable_of_iff (s = t) ⟨congrArg _, scalar.inj⟩
  | list vs, list ws =>
    match decEqItems vs ws with
    | isTrue same => isTrue (congrArg _ same)
    | isFalse other => isFalse fun same => other (list.inj same)
  | table ps, table qs =>
    match decEqPairs ps qs with
    | isTrue same => isTrue (congrArg _ same)
    | isFalse other => isFalse fun same => other (table.inj same)
  | scalar _, list _ | scalar _, table _ | list _, scalar _ | list _, table _ | table _, scalar _
  | table _, list _ => isFalse nofun

def decEqItems : (vs ws : List Value) → Decidable (vs = ws)
  | [], [] => isTrue rfl
  | [], _ :: _ | _ :: _, [] => isFalse nofun
  | v :: vs, w :: ws =>
    match decEq v w, decEqItems vs ws with
    | isTrue same, isTrue rest => isTrue (by rw [same, rest])
    | isFalse other, _ => isFalse fun same => other (List.cons.inj same).1
    | _, isFalse other => isFalse fun same => other (List.cons.inj same).2

def decEqPairs : (ps qs : List (Scalar × Value)) → Decidable (ps = qs)
  | [], [] => isTrue rfl
  | [], _ :: _ | _ :: _, [] => isFalse nofun
  | (k, v) :: ps, (l, w) :: qs =>
    match decEq v w, decEqPairs ps qs with
    | isTrue same, isTrue rest => decidable_of_iff (k = l) (by simp [same, rest])
    | isFalse other, _ => isFalse fun same => other (Prod.mk.inj (List.cons.inj same).1).2
    | _, isFalse other => isFalse fun same => other (List.cons.inj same).2

end

instance : DecidableEq Value := decEq

end Value

/-- Why a text is not the scalar that its tag asks for. -/
inductive ScalarFault where
  | badNumber
  | emptyNumber
  | badFlag
  | badMoment
  | impossibleMoment
  deriving DecidableEq, Repr

namespace ScalarFault

def message : ScalarFault → Text
  | badNumber => "a number in a document cannot be read".toList
  | emptyNumber => "a number in a document has no digits".toList
  | badFlag => "a flag in a document is neither true nor false".toList
  | badMoment => "a time in a document cannot be read".toList
  | impossibleMoment => "a time in a document does not exist".toList

end ScalarFault

namespace Scalar

/-- Numbers of one value are one key, and the flags count as zero and one. -/
def key : Scalar → Scalar
  | flag b => int (if b then 1 else 0)
  | float f => (f.toInt?.map int).getD (float f)
  | s => s

/-- The text of a scalar that has one: of a text itself, a number or a flag. -/
def shown? : Scalar → Option Text
  | flag true => some "True".toList
  | flag false => some "False".toList
  | int i => some (Text.ofInt i)
  | float f => some f.text
  | text t => some t
  | null | moment _ => none

/-- The text of any scalar. -/
def shown : Scalar → Text
  | null => "None".toList
  | moment m => m.text
  | s => s.shown?.getD []

end Scalar

/-- Tables of documents. Keys of one value are one key. -/
abbrev Entries := List (Scalar × Value)

namespace Entries

def put (key : Scalar) (value : Value) : Entries → Entries
  | [] => [(key, value)]
  | (k, v) :: rest =>
    if k.key = key.key then (k, value) :: rest else (k, v) :: put key value rest

def putAll (t pairs : Entries) : Entries := pairs.foldl (fun t (k, v) => put k v t) t

def find? (key : Scalar) (t : Entries) : Option Value :=
  (List.find? (fun (k, _) => k.key = key.key) t).map (·.2)

/-- The value under a text key. -/
def get? (t : Entries) (name : Text) : Option Value := t.find? (.text name)

end Entries

namespace Value

def text (t : Text) : Value := .scalar (.text t)

def texts (ts : List Text) : Value := .list (ts.map text)

def isNull : Value → Bool
  | scalar .null => true
  | _ => false

/-- The entries of a table; any other value has none. -/
def entries : Value → Entries
  | table pairs => pairs
  | _ => []

end Value

end TestSkeleton
