import TestSkeleton.Document.Toml.Lexeme

/-! TOML documents.

Statements are read one at a time and entered into the document. A table that was declared, or
that dotted keys of an earlier section made, cannot be declared again; inline tables and arrays
cannot be extended. -/

namespace TestSkeleton.Toml

open Text

/-! Values -/

/-- Passes over spaces, line ends and comments. -/
def skipInArrayWithin : Nat → Text → Option Text
  | 0, t => some t
  | steps + 1, t => do
    let rest ← skipComment (t.dropWhile isSpaceOrLineEnd)
    if rest.length < t.length then skipInArrayWithin steps rest else some rest

def skipInArray (t : Text) : Option Text := skipInArrayWithin (t.length + 1) t

/-- Changes the table that a key leads to, making tables where there are none. Where arrays of
tables may be entered, their last table is meant. -/
def changeNest (enterLists : Bool) (change : Entries → Option Entries) :
    List Text → Entries → Option Entries
  | [], t => change t
  | part :: parts, t =>
    let key := Scalar.text part
    match t.get? part with
    | none => (changeNest enterLists change parts []).map fun inner => t.put key (.table inner)
    | some (.table inner) =>
      (changeNest enterLists change parts inner).map fun inner => t.put key (.table inner)
    | some (.list items) =>
      match items.getLast? with
      | some (.table inner) =>
        if enterLists then
          (changeNest enterLists change parts inner).map fun inner =>
            t.put key (.list (items.dropLast ++ [.table inner]))
        else none
      | _ => none
    | some (.scalar _) => none

/-- Enters a value under a name that must be new. -/
def enterNew (name : Text) (value : Value) (t : Entries) : Option Entries :=
  if (t.get? name).isSome then none else some (t.put (.text name) value)

def isContainer : Value → Bool
  | .scalar _ => false
  | _ => true

mutual

def readValueWithin : Nat → Reader Value
  | 0, _ => none
  | steps + 1, t =>
    match t with
    | '[' :: r => do
      let (items, rest) ← readItemsWithin steps (← skipInArray r)
      return (.list items, rest)
    | '\x7b' :: r =>
      match skipSpaces r with
      | '\x7d' :: rest => some (.table [], rest)
      | rest => do
        let (entries, rest) ← readInlineWithin steps [] [] rest
        return (.table entries, rest)
    | '"' :: _ | '\'' :: _ => (readString t).map fun (s, rest) => (Value.text s, rest)
    | _ => match readFlag t with
      | some (b, rest) => some (.scalar (.flag b), rest)
      | none => (readMeasure t).map fun (s, rest) => (.scalar s, rest)

/-- The items of an array up to its closing bracket. -/
def readItemsWithin : Nat → Reader (List Value)
  | 0, _ => none
  | steps + 1, t =>
    match t with
    | ']' :: rest => some ([], rest)
    | _ => do
      let (item, rest) ← readValueWithin steps t
      match ← skipInArray rest with
      | ']' :: rest => return ([item], rest)
      | ',' :: rest =>
        let (items, rest) ← readItemsWithin steps (← skipInArray rest)
        return (item :: items, rest)
      | _ => none

/-- The pairs of an inline table up to its closing brace. Keys that hold a container are closed. -/
def readInlineWithin : Nat → Entries → List (List Text) → Reader Entries
  | 0, _, _, _ => none
  | steps + 1, entries, closed, t => do
    let (key, rest) ← readKey t
    let ((), rest) ← readMark '=' rest
    let (value, rest) ← readValueWithin steps (skipSpaces rest)
    if closed.any (·.isPrefixOf key) then none
    let entries ← changeNest false (enterNew (key.getLast?.getD []) value) key.dropLast entries
    match skipSpaces rest with
    | '\x7d' :: rest => return (entries, rest)
    | ',' :: rest =>
      let closed := if isContainer value then key :: closed else closed
      readInlineWithin steps entries closed (skipSpaces rest)
    | _ => none

end

def readValue : Reader Value := fun t => readValueWithin (2 * t.length + 2) t

/-! Statements -/

/-- A document under construction: its entries, the section that pairs go to, the keys that cannot
be declared, the ones that cannot be declared from the next section on, and the keys at and below
which nothing can be added. -/
structure Draft where
  entries : Entries := []
  current : List Text := []
  declared : List (List Text) := []
  pending : List (List Text) := []
  closed : List (List Text) := []

namespace Draft

def isClosed (d : Draft) (key : List Text) : Bool := d.closed.any (·.isPrefixOf key)

def finishSection (d : Draft) : Draft :=
  { d with declared := d.declared ++ d.pending, pending := [] }

/-- Opens a table. -/
def openTable (d : Draft) (key : List Text) : Option Draft := do
  if d.declared.contains key || d.isClosed key then none
  let entries ← changeNest true some key d.entries
  return { d with entries, current := key, declared := key :: d.declared }

/-- Appends an empty table to an array of tables, which is made if there is none. -/
def appendTable (name : Text) (t : Entries) : Option Entries :=
  match t.get? name with
  | none => some (t.put (.text name) (.list [.table []]))
  | some (.list items) => some (t.put (.text name) (.list (items ++ [.table []])))
  | some _ => none

/-- Opens a new table at the end of an array of tables. What was declared below the last one does
not hold for the new one. -/
def openItem (d : Draft) (key : List Text) : Option Draft := do
  if d.isClosed key then none
  let entries ← changeNest true (appendTable (key.getLast?.getD [])) key.dropLast d.entries
  let keep (keys : List (List Text)) := keys.filter (!key.isPrefixOf ·)
  return { d with
    entries, current := key, declared := key :: keep d.declared, closed := keep d.closed }

/-- Enters a pair into the current section. -/
def enter (d : Draft) (key : List Text) (value : Value) : Option Draft := do
  let inner := (List.range' 1 (key.length - 1)).map fun n => d.current ++ key.take n
  if inner.any d.declared.contains then none
  let nest := d.current ++ key.dropLast
  if d.isClosed nest then none
  let entries ← changeNest true (enterNew (key.getLast?.getD []) value) nest d.entries
  let closed := if isContainer value then (d.current ++ key) :: d.closed else d.closed
  return { d with entries, closed, pending := d.pending ++ inner }

end Draft

/-- One statement, and the text behind it. -/
def readStatement (d : Draft) (t : Text) : Option (Draft × Text) :=
  match t with
  | '[' :: '[' :: r => do
    let (key, rest) ← readKey (skipSpaces r)
    let d ← d.finishSection.openItem key
    let rest ← dropPrefix? [']', ']'] rest
    return (d, rest)
  | '[' :: r => do
    let (key, rest) ← readKey (skipSpaces r)
    let d ← d.finishSection.openTable key
    let rest ← dropPrefix? [']'] rest
    return (d, rest)
  | '#' :: _ => some (d, t)
  | c :: _ =>
    if isBareKeyChar c || c == '"' || c == '\'' then do
      let (key, rest) ← readKey t
      let ((), rest) ← readMark '=' rest
      let (value, rest) ← readValue (skipSpaces rest)
      let d ← d.enter key value
      return (d, rest)
    else none
  | [] => some (d, [])

def readStatementsWithin : Nat → Draft → Text → Option Draft
  | 0, _, _ => none
  | steps + 1, d, t =>
    match skipSpaces t with
    | [] => some d
    | '\n' :: r => readStatementsWithin steps d r
    | t => do
      let (d, rest) ← readStatement d t
      match ← skipComment (skipSpaces rest) with
      | [] => some d
      | '\n' :: r => readStatementsWithin steps d r
      | _ => none

/-- The entries of a document, if it is well formed. -/
def read (t : Text) : Option Entries :=
  (readStatementsWithin (t.length + 1) {} t).map (·.entries)

end TestSkeleton.Toml
