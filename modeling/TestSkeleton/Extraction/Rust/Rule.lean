import TestSkeleton.Extraction.Rust.Tree

/-! Rules of a grammar, and how they combine.

A rule reads a forest off a list of tokens. A choice takes the first rule that succeeds. -/

namespace TestSkeleton.Rust

abbrev Rule := List Token → Option (List Tree × List Token)

namespace Rule

/-- One token that satisfies `p`. -/
def token (p : Token → Bool) : Rule
  | t :: rest => if p t then some ([.leaf t], rest) else none
  | [] => none

/-- Reads nothing. -/
def empty : Rule := fun ts => some ([], ts)

def andThen (first second : Rule) : Rule := fun ts =>
  match first ts with
  | some (forest, rest) => (second rest).map fun (more, rest) => (forest ++ more, rest)
  | none => none

def orElse (first second : Rule) : Rule := fun ts =>
  match first ts with
  | some result => some result
  | none => second ts

/-- The rules one after the other. -/
def sequence : List Rule → Rule
  | [] => empty
  | r :: rest => andThen r (sequence rest)

/-- The first rule that succeeds. -/
def choice : List Rule → Rule
  | [] => fun _ => none
  | r :: rest => orElse r (choice rest)

def optional (r : Rule) : Rule := orElse r empty

/-- The rule as often as it succeeds, at most `n` times. -/
def many : Nat → Rule → Rule
  | 0, _ => empty
  | n + 1, r => orElse (andThen r (many n r)) empty

/-- Items with separators between them and perhaps one at the end; there may be no item. -/
def separated (n : Nat) (separator item : Rule) : Rule :=
  optional (sequence [item, many n (andThen separator item), optional separator])

/-- Succeeds without reading where `r` succeeds. -/
def ahead (r : Rule) : Rule := fun ts => if (r ts).isSome then some ([], ts) else none

/-- Succeeds without reading where `r` fails. -/
def notAhead (r : Rule) : Rule := fun ts => if (r ts).isSome then none else some ([], ts)

/-- Puts what the rule reads under one node. -/
def node (kind : Kind) (r : Rule) : Rule := fun ts =>
  (r ts).map fun (forest, rest) => ([.node kind forest], rest)

/-- Puts the comments before the first token in front of what the rule reads. -/
def withComments (r : Rule) : Rule := fun ts =>
  let comments := (ts.head?.map Token.gap).getD [] |>.filterMap fun
    | .comment text => some (Tree.comment text)
    | .blank _ => none
  (r ts).map fun (forest, rest) => (comments ++ forest, rest)

/-- That word. -/
def keyword (word : String) : Rule := token fun t => t.kind == .word && t.text == word.toList

/-- Those signs, with no gap between them. -/
def signs : Text → Rule
  | [] => empty
  | c :: rest =>
    andThen (token fun t => t.kind == .sign && t.text == [c]) fun ts =>
      if rest.isEmpty || ts.head?.any (·.gap.isEmpty) then signs rest ts else none

def sign (text : String) : Rule := signs text.toList

end Rule

end TestSkeleton.Rust
