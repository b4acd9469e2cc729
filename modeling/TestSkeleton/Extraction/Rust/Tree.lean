import TestSkeleton.Extraction.Rust.Token

/-! Syntax trees of Rust sources. The leaves are the tokens, in order; comments between items are
leaves of their own. -/

namespace TestSkeleton.Rust

inductive Kind where
  | attribute
  | innerAttribute
  | visibility
  | modifiers
  | name
  | function
  | parameters
  | parameter
  | selfParameter
  | pattern
  | type
  | returnType
  | block
  | implementation
  | selfType
  | module
  | declarations
  | trait
  | foreignModule
  | macroCall
  | item
  deriving DecidableEq, Repr

inductive Tree where
  | leaf (token : Token)
  | comment (text : Text)
  | node (kind : Kind) (children : List Tree)
  deriving Repr

namespace Tree

mutual

/-- The tokens of a tree, in order. -/
def tokens : Tree → List Token
  | leaf t => [t]
  | comment _ => []
  | node _ children => tokensOfAll children

def tokensOfAll : List Tree → List Token
  | [] => []
  | t :: rest => tokens t ++ tokensOfAll rest

end

def isKind (k : Kind) : Tree → Bool
  | node kind _ => kind == k
  | _ => false

/-- The first child of a kind. -/
def childOf? (k : Kind) : Tree → Option Tree
  | node _ children => children.find? (isKind k)
  | _ => none

def children : Tree → List Tree
  | node _ cs => cs
  | _ => []

end Tree

/-- The text of a run of tokens, without the gap before the first. -/
def textOfTokens : List Token → Text
  | [] => []
  | t :: rest => t.text ++ rest.flatMap fun t => t.gap.flatMap Trivia.text ++ t.text

/-- The text of a tree as written in the source. -/
def Tree.text (t : Tree) : Text := textOfTokens t.tokens

end TestSkeleton.Rust
