import TestSkeleton.Document.Yaml.Node

/-! YAML documents as values.

The pairs of a table that is merged into another come in front of its own pairs, so that a pair of
its own replaces a merged one. -/

namespace TestSkeleton.Yaml

/-- The pairs of a table: those that are merged into it, and its own. -/
structure Pairs where
  merged : Entries := []
  own : Entries := []

namespace Pairs

def all (p : Pairs) : Entries := p.merged ++ p.own

end Pairs

mutual

/-- The value of a node. A kind that its shape cannot have is refused. -/
def Node.value : Node → Except Fault Value
  | .scalar kind text => .scalar <$> readScalar kind text
  | .list kind items => do
    if kind ≠ .list then throw .malformed
    return .list (← valuesOf items)
  | .table kind pairs => do
    if kind ≠ .table then throw .malformed
    return .table (Entries.putAll [] (← pairsOf pairs).all)

def valuesOf : List Node → Except Fault (List Value)
  | [] => return []
  | node :: rest => return (← node.value) :: (← valuesOf rest)

/-- The pairs in order. A key that merges adds the pairs of a table, or those of a list of tables,
of which the first table has the last word. -/
def pairsOf : List (Node × Node) → Except Fault Pairs
  | [] => return {}
  | (key, node) :: rest => do
    match key with
    | .scalar .merge _ =>
      let here ← mergedPairs node
      let more ← pairsOf rest
      return { more with merged := here ++ more.merged }
    | _ =>
      let k ← keyOf key
      let value ← node.value
      let more ← pairsOf rest
      return { more with own := (k, value) :: more.own }

/-- A key, which must be a scalar. The sign of the standard key is plain text. -/
def keyOf : Node → Except Fault Scalar
  | .scalar .standard text => return .text text
  | .scalar kind text => readScalar kind text
  | _ => throw .malformed

def mergedPairs : Node → Except Fault Entries
  | .table _ pairs => return (← pairsOf pairs).all
  | .list _ items => mergedTables items
  | .scalar _ _ => throw .malformed

def mergedTables : List Node → Except Fault Entries
  | [] => return []
  | .table _ pairs :: rest => do
    let here ← pairsOf pairs
    return (← mergedTables rest) ++ here.all
  | _ :: _ => throw .malformed

end

/-- The value of a text with one document; an empty text is null. -/
def read (t : Text) : Except Fault Value :=
  match (tokens? t).bind Node.ofTokens? with
  | none => .error .malformed
  | some none => .ok (.scalar .null)
  | some (some root) => root.value

end TestSkeleton.Yaml
