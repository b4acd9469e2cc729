import TestSkeleton.Table
import TestSkeleton.Text.Quoted

/-! Templates for test files, and filling them in.

A template is text with expressions to show, loops and choices. A name that nothing defines shows
as nothing, but has no fields. -/

namespace TestSkeleton.Template

open Text

/-- What names in a template stand for. -/
inductive Datum where
  | undefined
  | null
  | flag (b : Bool)
  | text (t : Text)
  | list (items : List Datum)
  | tuple (items : List Datum)
  | record (fields : List (Text × Datum))
  deriving Repr

inductive Expr where
  | name (n : Text)
  | literal (d : Datum)
  | field (e : Expr) (n : Text)
  | join (e : Expr) (separator : Expr)
  | not (e : Expr)
  | and (a b : Expr)
  | or (a b : Expr)
  | choose (cond yes no : Expr)
  deriving Repr

inductive Node where
  | text (t : Text)
  | output (e : Expr)
  | loop (name : Text) (items : Expr) (body absent : List Node)
  | choice (cond : Expr) (yes no : List Node)
  deriving Repr

/-- Why a template yields no text. -/
inductive Fault where
  | malformed
  | fieldOfUndefined (name : Text)
  | notIterable
  deriving DecidableEq, Repr

abbrev Names := Table Text Datum

namespace Fault

def message : Fault → Text
  | malformed => "not well formed".toList
  | fieldOfUndefined name => "nothing has the field ".toList ++ name
  | notIterable => "a loop over something that holds no items".toList

end Fault

namespace Datum

def texts (ts : List Text) : Datum := list (ts.map text)

def textTuple (ts : List Text) : Datum := tuple (ts.map text)

def optional (t : Option Text) : Datum := (t.map text).getD null

/-- Whether a choice takes a value for true: what is empty or missing counts as false. -/
def holds : Datum → Bool
  | undefined | null => false
  | flag b => b
  | text t => !t.isEmpty
  | list items | tuple items => !items.isEmpty
  | record fields => !fields.isEmpty

/-- Items between brackets. A tuple of one item ends in a comma. -/
def bracketed (isTuple : Bool) (items : List Text) : Text :=
  let inside := Text.join ", ".toList items
  if isTuple then ['('] ++ inside ++ (if items.length = 1 then [','] else []) ++ [')']
  else ['['] ++ inside ++ [']']

mutual

/-- A value as an output shows it. Texts inside others stand between quotes. -/
def shown : Datum → Text
  | undefined => []
  | null => "None".toList
  | flag b => (if b then "True" else "False").toList
  | text t => t
  | list items => bracketed false (itemsShown items)
  | tuple items => bracketed true (itemsShown items)
  | record _ => []

def itemsShown : List Datum → List Text
  | [] => []
  | text t :: rest => quoted t :: itemsShown rest
  | d :: rest => shown d :: itemsShown rest

end

/-- The items that a loop goes through. -/
def items : Datum → Except Fault (List Datum)
  | undefined => .ok []
  | list items | tuple items => .ok items
  | text t => .ok (t.map fun c => text [c])
  | record fields => .ok (fields.map fun (name, _) => text name)
  | null | flag _ => .error .notIterable

def field (d : Datum) (name : Text) : Except Fault Datum :=
  match d with
  | undefined => .error (.fieldOfUndefined name)
  | record fields => .ok ((fields.lookup name).getD undefined)
  | _ => .ok undefined

end Datum

/-- The value of an expression. -/
def Expr.value (names : Names) : Expr → Except Fault Datum
  | name n => .ok ((names.get? n).getD .undefined)
  | literal d => .ok d
  | field e n => do (← e.value names).field n
  | join e separator => do
    let items ← (← e.value names).items
    return .text (Text.join (← separator.value names).shown (items.map Datum.shown))
  | not e => return .flag (!(← e.value names).holds)
  | and a b => do
    let first ← a.value names
    if first.holds then b.value names else return first
  | or a b => do
    let first ← a.value names
    if first.holds then return first else b.value names
  | choose cond yes no => do
    if (← cond.value names).holds then yes.value names else no.value names

mutual

/-- The text of a node, given what names stand for. -/
def Node.fill (names : Names) : Node → Except Fault Text
  | .text t => .ok t
  | .output e => return (← e.value names).shown
  | .loop name items body absent => do
    let items ← (← items.value names).items
    if items.isEmpty then fillAll names absent
    else
      let parts ← items.mapM fun item => fillAll ((name, item) :: names) body
      return parts.flatten
  | .choice cond yes no => do
    if (← cond.value names).holds then fillAll names yes else fillAll names no

def fillAll (names : Names) : List Node → Except Fault Text
  | [] => .ok []
  | node :: rest => return (← node.fill names) ++ (← fillAll names rest)

end

end TestSkeleton.Template
