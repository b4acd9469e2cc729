import TestSkeleton.Extraction.Basic
import TestSkeleton.Extraction.Rust.Grammar
import TestSkeleton.Signature

/-! Signatures of Rust functions: free functions, methods, and functions of inline modules. -/

namespace TestSkeleton.Rust

open Text Signature

/-- What follows `#[` and blanks, when the text starts with them. -/
def dropAttributeOpening? (t : Text) : Option Text :=
  (dropPrefix? "#[".toList t).map trimStart

/-- Whether the text goes on with a closing square bracket after blanks. -/
def closesAttribute (t : Text) : Bool := (trimStart t).head? == some ']'

/-- Whether a path that ends in `test` and the end of an attribute start the text. `n` bounds the
number of segments. -/
def startsTestPath : Nat → Text → Bool
  | 0, _ => false
  | n + 1, t =>
    let word := t.takeWhile isWord
    let rest := t.dropWhile isWord
    match rest with
    | ':' :: ':' :: r => !word.isEmpty && startsTestPath n r
    | _ => word == "test".toList && closesAttribute rest

/-- Whether some place of the text starts a test attribute: a path whose last segment is `test`. -/
def holdsTestAttribute : Text → Bool
  | [] => false
  | c :: r =>
    (dropAttributeOpening? (c :: r)).any (fun t => startsTestPath t.length t) ||
      holdsTestAttribute r

/-- Whether some place of the text starts a `cfg(test)` attribute. -/
def holdsConfiguredTest : Text → Bool
  | [] => false
  | c :: r =>
    (do
      let t ← dropAttributeOpening? (c :: r)
      let t ← dropPrefix? "cfg".toList t
      let t ← dropPrefix? ['('] (trimStart t)
      let t ← dropPrefix? "test".toList (trimStart t)
      dropPrefix? [')'] (trimStart t)).any closesAttribute || holdsConfiguredTest r

/-- Whether a tree's visibility is exactly `pub`. -/
def isPublic (t : Tree) : Bool :=
  (t.childOf? .visibility).any fun v => v.text.filter (· ≠ ' ') == "pub".toList

def hasModifier (word : Text) (t : Tree) : Bool :=
  (t.childOf? .modifiers).any fun m => m.tokens.any (·.text == word)

/-- The receiver of a method whose text is given: taken by reference if it starts with an ampersand,
and then mutable if it holds `mut`. -/
def receiverOf (text : Text) : Parameter :=
  let compact := text.filter (· ≠ ' ')
  let isReference := startsWith ['&'] compact
  Signature.receiver isReference (isReference && contains "mut".toList compact)

/-- The words that are patterns and bind nothing. -/
def bindingless : List Text := ["_", "true", "false"].map String.toList

/-- The name that a pattern binds when it is a plain name. -/
def plainName? (pattern : Tree) : Option Text :=
  match pattern.tokens with
  | [t] => if t.kind == .word && !bindingless.contains t.text then some t.text else none
  | _ => none

/-- The parameter of a tree at a place. A pattern that is no plain name is named by its place. -/
def parameterOf (place : Nat) (t : Tree) : Parameter :=
  if t.isKind .selfParameter then receiverOf t.text
  else
    let type := ((t.childOf? .type).map Tree.text).getD ['_']
    match (t.childOf? .pattern).bind plainName? with
    | some name => if name == "self".toList then receiverOf type else parameter name type
    | none => parameter ("arg".toList ++ ofNat place) type

def parametersOf (t : Tree) : List Parameter :=
  let children := ((t.childOf? .parameters).map Tree.children).getD []
  (children.filter fun c => c.isKind .parameter || c.isKind .selfParameter).mapIdx parameterOf

/-- The text of the name of a tree. -/
def nameOf (t : Tree) : Text := ((t.childOf? .name).map Tree.text).getD []

/-- The signature of a function's tree. -/
def functionOf (file : Text) (scope : List Text) (owner : Option Text) (t : Tree) : Function := {
  name := nameOf t
  parameters := parametersOf t
  returns := normalize (((t.childOf? .returnType).map Tree.text).getD "()".toList)
  file
  isAsync := hasModifier "async".toList t
  owner
  scope }

mutual

/-- The signatures in a tree that the policy keeps. `attributes` holds the texts of the attributes
directly before the tree. -/
def collect (policy : Policy) (file : Text) (scope : List Text) (owner : Option Text)
    (attributes : List Text) : Tree → List Function
  | .node .function children =>
    let t := Tree.node .function children
    if attributes.any holdsTestAttribute || !policy.retains (nameOf t) (isPublic t) then []
    else [functionOf file scope owner t]
  | .node .implementation children =>
    let selfType := ((Tree.node .implementation children).childOf? .selfType).map Tree.text
    collectBody policy file scope (selfType.map baseName) children
  | .node .module children =>
    let t := Tree.node .module children
    if attributes.any holdsConfiguredTest || !(isPublic t || policy.includePrivate) then []
    else collectBody policy file (scope ++ [nameOf t]) none children
  | _ => []

/-- The signatures in the declarations among the children of a tree. -/
def collectBody (policy : Policy) (file : Text) (scope : List Text) (owner : Option Text) :
    List Tree → List Function
  | [] => []
  | .node .declarations children :: _ => collectAll policy file scope owner [] children
  | _ :: rest => collectBody policy file scope owner rest

/-- The signatures in a run of trees. Comments between attributes and a tree do not part them. -/
def collectAll (policy : Policy) (file : Text) (scope : List Text) (owner : Option Text)
    (attributes : List Text) : List Tree → List Function
  | [] => []
  | .comment _ :: rest => collectAll policy file scope owner attributes rest
  | .leaf _ :: rest => collectAll policy file scope owner [] rest
  | .node kind children :: rest =>
    collect policy file scope owner attributes (.node kind children) ++
      collectAll policy file scope owner
        (if kind == .attribute then (Tree.node kind children).text :: attributes else []) rest

end

/-- A source without a byte order mark and without a first line that names an interpreter. -/
def dropPreamble (source : Text) : Text :=
  let source := match source with
    | '\ufeff' :: r => r
    | _ => source
  match source with
  | '#' :: '!' :: r =>
    if (r.dropWhile fun c => isSourceBlank c && c != '\n').head? == some '[' then source
    else r.dropWhile (· ≠ '\n')
  | _ => source

/-- The syntax trees of a source, or the line near which its syntax breaks. -/
def parse (source : Text) : Except ExtractionError (List Tree) :=
  let text := dropPreamble source
  let lexed := lex text
  let lineBefore (rest : Nat) : Nat :=
    ((source.take (source.length - rest)).filter (· == '\n')).length + 1
  if lexed.rest.isEmpty then
    match readItems lexed.tokens with
    | (trees, []) => .ok trees
    | (_, t :: rest) =>
      let unread := (textOfTokens (t :: rest)).length +
        (lexed.tail.flatMap Trivia.text).length
      .error (.syntaxError (lineBefore unread))
  else .error (.syntaxError (lineBefore lexed.rest.length))

/-- The signatures of a source that the policy keeps, in the order of the source. -/
def extract (policy : Policy) (file source : Text) : Except ExtractionError (List Function) :=
  (parse source).map (collectAll policy file [] none [])

end TestSkeleton.Rust
