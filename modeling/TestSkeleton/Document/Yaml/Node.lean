import TestSkeleton.Document.Yaml.Scalar
import TestSkeleton.Document.Yaml.Token

/-! Nodes of YAML, read from tokens.

The kind of a node comes from its tag, or else from its shape and spelling. An alias stands for a
node read before it. -/

namespace TestSkeleton.Yaml

open Text

inductive Node where
  | scalar (kind : Kind) (text : Text)
  | list (kind : Kind) (items : List Node)
  | table (kind : Kind) (pairs : List (Node × Node))
  deriving Repr

/-- The beginning of the tags that YAML defines. -/
def standardTags : Text := "tag:yaml.org,2002:".toList

def Kind.names : List (Text × Kind) :=
  [("null".toList, .null), ("bool".toList, .flag), ("int".toList, .int), ("float".toList, .float),
    ("timestamp".toList, .moment), ("str".toList, .text), ("merge".toList, .merge),
    ("value".toList, .standard), ("seq".toList, .list), ("map".toList, .table)]

def Kind.ofTag (tag : Text) : Kind :=
  ((dropPrefix? standardTags tag).bind fun name => Kind.names.lookup name).getD .unknown

/-- A node that is not written. -/
def Node.absent : Node := .scalar .null []

/-- What is left to read, and the nodes that have a name. -/
structure Reading where
  handles : Table Text Text
  tokens : List Token
  anchors : Table Text Node := []

abbrev NodeReader (α : Type) := StateT Reading Option α

/-- What may stand in front of a node. A tag of one exclamation mark leaves the kind open. -/
structure Properties where
  anchor : Option Text := none
  tag : Option Text := none

namespace NodeReader

/-- Whether the next token satisfies `p`. -/
def sees (p : Token → Bool) : NodeReader Bool := return (← get).tokens.head?.any p

/-- Takes the next token if it is the given one. -/
def takes (t : Token) : NodeReader Bool := do
  let r ← get
  match r.tokens with
  | first :: rest =>
    if first = t then
      set { r with tokens := rest }
      return true
    else return false
  | [] => return false

def demand (t : Token) : NodeReader Unit := do
  if ← takes t then return else failure

def takeAnchor : NodeReader (Option Text) := do
  let r ← get
  match r.tokens with
  | .anchor name :: rest =>
    set { r with tokens := rest }
    return some name
  | _ => return none

/-- A tag with its handle replaced. -/
def takeTag : NodeReader (Option Text) := do
  let r ← get
  match r.tokens with
  | .tag none suffix :: rest =>
    set { r with tokens := rest }
    return some suffix
  | .tag (some handle) suffix :: rest =>
    let start ← r.handles.get? handle
    set { r with tokens := rest }
    return some (start ++ suffix)
  | _ => return none

/-- An anchor and a tag in either order. -/
def takeProperties : NodeReader Properties := do
  match ← takeAnchor with
  | some name => return { anchor := some name, tag := ← takeTag }
  | none =>
    let tag ← takeTag
    return { anchor := ← if tag.isSome then takeAnchor else pure none, tag }

/-- Names a node. -/
def name (anchor : Option Text) (node : Node) : NodeReader Unit :=
  match anchor with
  | some a => modify fun r => { r with anchors := r.anchors.put a node }
  | none => return

/-- Reads a node under a name that must be new. While it is read, the name stands for nothing. -/
def named (anchor : Option Text) (read : NodeReader Node) : NodeReader Node := do
  if anchor.any (← get).anchors.has then failure
  name anchor .absent
  let node ← read
  name anchor node
  return node

end NodeReader

namespace Properties

def openTag : Text := ['!']

/-- The kind of a list or table, which is `shape` unless a tag says otherwise. -/
def kind (p : Properties) (shape : Kind) : Kind :=
  match p.tag with
  | none => shape
  | some tag => if tag = openTag then shape else Kind.ofTag tag

/-- The kind of a scalar. -/
def scalarKind (p : Properties) (plain : Bool) (text : Text) : Kind :=
  match p.tag with
  | none => if plain then Kind.ofPlain text else .text
  | some tag => if tag = openTag then Kind.ofPlain text else Kind.ofTag tag

def isEmpty (p : Properties) : Bool := p.anchor.isNone && p.tag.isNone

end Properties

/-- Where a node may stand: whether blocks may begin there, and whether the entries of a list may
do so without deeper indentation. -/
inductive Position where
  | flow
  | block
  | inPair
  deriving DecidableEq, Repr

open NodeReader

def endsPairPart : Token → Bool
  | .key | .value | .blockEnd => true
  | _ => false

def endsEntry : Token → Bool
  | .blockEntry | .blockEnd => true
  | _ => false

def endsLooseEntry (t : Token) : Bool := t = .blockEntry || endsPairPart t

def endsFlowPart (close : Token) (t : Token) : Bool := t = .flowEntry || t = close

mutual

/-- A node, absent if a token that ends its place comes next. -/
def readOptional (ends : Token → Bool) (position : Position) : Nat → NodeReader Node
  | 0 => failure
  | steps + 1 => do
    if ← sees ends then return .absent else readNode position steps

def readNode (position : Position) : Nat → NodeReader Node
  | 0 => failure
  | steps + 1 => do
    match (← get).tokens with
    | .reference target :: rest =>
      let node ← (← get).anchors.get? target
      modify fun r => { r with tokens := rest }
      return node
    | _ =>
      let p ← takeProperties
      named p.anchor (readContent position p steps)

/-- What follows the anchor and the tag of a node. -/
def readContent (position : Position) (p : Properties) : Nat → NodeReader Node
  | 0 => failure
  | steps + 1 => do
    let r ← get
    match r.tokens with
    | .blockEntry :: _ =>
      if position = .inPair then
        return .list (p.kind .list) (← readEntries endsLooseEntry steps)
      else if p.isEmpty then failure
      else return .scalar (p.scalarKind true []) []
    | .scalar text plain :: rest =>
      set { r with tokens := rest }
      return .scalar (p.scalarKind plain text) text
    | .openSequence :: rest =>
      set { r with tokens := rest }
      return .list (p.kind .list) (← readFlowItems true steps)
    | .openMapping :: rest =>
      set { r with tokens := rest }
      return .table (p.kind .table) (← readFlowPairs true steps)
    | first :: rest =>
      if position ≠ .flow ∧ first = .blockSequence then
        set { r with tokens := rest }
        let items ← readEntries endsEntry steps
        demand .blockEnd
        return .list (p.kind .list) items
      else if position ≠ .flow ∧ first = .blockMapping then
        set { r with tokens := rest }
        let pairs ← readPairs steps
        demand .blockEnd
        return .table (p.kind .table) pairs
      else if p.isEmpty then failure
      else return .scalar (p.scalarKind true []) []
    | [] => if p.isEmpty then failure else return .scalar (p.scalarKind true []) []

/-- The items of a list in a block. -/
def readEntries (ends : Token → Bool) : Nat → NodeReader (List Node)
  | 0 => failure
  | steps + 1 => do
    if ← takes .blockEntry then
      let item ← readOptional ends .block steps
      return item :: (← readEntries ends steps)
    else return []

/-- The pairs of a table in a block. -/
def readPairs : Nat → NodeReader (List (Node × Node))
  | 0 => failure
  | steps + 1 => do
    if ← takes .key then
      let key ← readOptional endsPairPart .inPair steps
      let value ← if ← takes .value then readOptional endsPairPart .inPair steps
        else pure .absent
      return (key, value) :: (← readPairs steps)
    else return []

/-- The key and value of a pair between brackets, given that its key mark was taken. -/
def readFlowPair (close : Token) : Nat → NodeReader (Node × Node)
  | 0 => failure
  | steps + 1 => do
    let key ← readOptional (fun t => t = .value || endsFlowPart close t) .flow steps
    let value ← if ← takes .value then readOptional (endsFlowPart close) .flow steps
      else pure .absent
    return (key, value)

/-- The items up to the closing bracket. A pair is a table of its own. -/
def readFlowItems (first : Bool) : Nat → NodeReader (List Node)
  | 0 => failure
  | steps + 1 => do
    if ← takes .closeSequence then return []
    if !first then demand .flowEntry
    if ← takes .key then
      let pair ← readFlowPair .closeSequence steps
      return .table .table [pair] :: (← readFlowItems false steps)
    else if ← takes .closeSequence then return []
    else
      let item ← readNode .flow steps
      return item :: (← readFlowItems false steps)

/-- The pairs up to the closing brace. A key may stand alone. -/
def readFlowPairs (first : Bool) : Nat → NodeReader (List (Node × Node))
  | 0 => failure
  | steps + 1 => do
    if ← takes .closeMapping then return []
    if !first then demand .flowEntry
    if ← takes .key then
      let pair ← readFlowPair .closeMapping steps
      return pair :: (← readFlowPairs false steps)
    else if ← takes .closeMapping then return []
    else
      let key ← readNode .flow steps
      return (key, .absent) :: (← readFlowPairs false steps)

end

/-! Documents -/

/-- The handles that every document has. -/
def standardHandles : Table Text Text :=
  [("!".toList, "!".toList), ("!!".toList, standardTags)]

/-- The directives in front of a document: at most one version, which must be of the first kind,
and handles that differ. -/
def readDirectives (versioned : Bool) (handles : Table Text Text) :
    List Token → Option (Table Text Text × List Token)
  | .directive (.version major) :: rest =>
    if versioned || major != 1 then none else readDirectives true handles rest
  | .directive (.tagHandle handle expansion) :: rest =>
    if handles.has handle then none
    else readDirectives versioned (handles.put handle expansion) rest
  | .directive .other :: rest => readDirectives versioned handles rest
  | rest => some (handles ++ standardHandles.filter fun (h, _) => !handles.has h, rest)

def startsDocument : Token → Bool
  | .directive _ | .documentStart => true
  | _ => false

def endsContent : Token → Bool
  | .directive _ | .documentStart | .documentEnd => true
  | _ => false

/-- The root of the only document; nothing but end marks may follow it. -/
def readRoot (handles : Table Text Text) (tokens : List Token)
    (read : Nat → NodeReader Node) : Option Node := do
  let (node, rest) ← (read (4 * tokens.length + 4)).run { handles, tokens }
  if rest.tokens.all (· = .documentEnd) then some node else none

/-- The root node of a text; `none` inside stands for an empty text. -/
def Node.ofTokens? (tokens : List Token) : Option (Option Node) :=
  match tokens with
  | [] => some none
  | first :: _ =>
    if startsDocument first then do
      let (handles, rest) ← readDirectives false [] tokens
      match rest with
      | .documentStart :: rest =>
        if rest.head?.all endsContent then some <$> readRoot handles rest fun _ => return .absent
        else some <$> readRoot handles rest (readNode .block)
      | _ => none
    else some <$> readRoot standardHandles tokens (readNode .block)

end TestSkeleton.Yaml
