import TestSkeleton.Extraction.Rust.Rule

/-! The grammar of Rust sources.

The grammar is a table from forms to rules over the rules of all forms. `Form.rule` ties it to
itself down to a given depth of nesting. -/

namespace TestSkeleton.Rust

open Rule

/-- What the grammar describes. The flag of an expression says whether a struct literal may stand
there without parentheses. -/
inductive Form where
  | items
  | item
  | declarations
  | attribute
  | innerAttribute
  | attributeBody
  | visibility
  | functionHead
  | parameter
  | fields
  | tupleFields
  | useTree
  | genericParameters
  | whereClause
  | bounds
  | bound
  | type
  | typeAtom
  | typePath
  | typeSegment
  | genericArguments
  | pattern
  | patternAtom
  | block
  | statement
  | blockLike
  | ifLike
  | matchArm
  | expression (structs : Bool)
  | operand (structs : Bool)
  | primary (structs : Bool)
  | closure (structs : Bool)
  | expressionPath
  | tokenGroup
  | tokenTree
  deriving DecidableEq, Repr

/-- The words that name nothing. -/
def reservedWords : List Text :=
  ["as", "async", "await", "break", "const", "continue", "crate", "dyn", "else", "enum", "extern",
   "false", "fn", "for", "if", "impl", "in", "let", "loop", "match", "mod", "move", "mut", "pub",
   "ref", "return", "self", "Self", "static", "struct", "super", "trait", "true", "type", "unsafe",
   "use", "where", "while", "_"].map String.toList

def identifier : Rule := token fun t => t.kind == .word && !reservedWords.contains t.text

def lifetime : Rule := token fun t => t.kind == .lifetime

def number : Rule := token fun t => t.kind == .number

def quotedText : Rule := token fun t => t.kind == .quoted

def literalToken : Rule := choice [quotedText, number, keyword "true", keyword "false"]

/-- A number or another literal, with a minus sign or without. -/
def signedLiteral : Rule := sequence [optional (sign "-"), literalToken]

def pathWord : Rule :=
  choice [identifier, keyword "crate", keyword "self", keyword "super", keyword "Self"]

def comma : Rule := sign ","

/-- A path without generic arguments. -/
def plainPath (n : Nat) : Rule :=
  sequence [optional (sign "::"), pathWord, many n (sequence [sign "::", pathWord])]

def rangeSign : Rule := choice [sign "..=", sequence [sign "..", notAhead (sign ".")]]

def binarySign : Rule :=
  choice <| ["<<=", ">>=", "==", "!=", "<=", ">=", "&&", "||", "<<", ">>", "+=", "-=", "*=", "/=",
    "%=", "&=", "|=", "^=", "+", "-", "*", "/", "%", "&", "|", "^", "<", ">", "="].map sign

def isBracket (t : Token) : Bool :=
  t.kind == .sign && ("()[]\x7b\x7d".toList.map fun c => [c]).contains t.text

def modifier : Rule :=
  choice [keyword "async", keyword "const", keyword "unsafe", keyword "default", keyword "safe",
    sequence [keyword "extern", optional quotedText]]

/-- The sign after which a block-like expression goes on. -/
def continuation : Rule := choice [sign ".", sign "?"]

/-- The rule of each form, given the rules of the forms it is made of and a bound on repetition. -/
def grammar (p : Form → Rule) (n : Nat) : Form → Rule
  | .items => many n (withComments (choice [p .attribute, p .innerAttribute, p .item]))
  | .declarations =>
    node .declarations (sequence [sign "\x7b", p .items, sign "\x7d"])
  | .attributeBody =>
    choice
      [sequence [keyword "unsafe", p .tokenGroup],
       sequence [plainPath n,
        optional (choice [p .tokenGroup, sequence [sign "=", p (.expression true)]])]]
  | .attribute => node .attribute (sequence [sign "#", sign "[", p .attributeBody, sign "]"])
  | .innerAttribute =>
    node .innerAttribute (sequence [sign "#", sign "!", sign "[", p .attributeBody, sign "]"])
  | .visibility =>
    node .visibility <| sequence
      [keyword "pub", optional <| sequence
        [sign "(", choice
          [keyword "crate", keyword "self", keyword "super",
           sequence [keyword "in", plainPath n]], sign ")"]]
  | .functionHead =>
    sequence
      [optional (p .visibility),
       optional (node .modifiers (sequence [modifier, many n modifier])),
       keyword "fn", node .name identifier, optional (p .genericParameters),
       node .parameters (sequence [sign "(", separated n comma (p .parameter), sign ")"]),
       optional (sequence [sign "->", node .returnType (p .type)]),
       optional (p .whereClause)]
  | .parameter =>
    sequence
      [many n (p .attribute), choice
        [node .selfParameter <| sequence
          [optional (sequence [sign "&", optional lifetime]), optional (keyword "mut"),
           keyword "self", notAhead (sign ":")],
         node .parameter <| sequence
          [optional (keyword "mut"),
           node .pattern (choice [keyword "self", p .patternAtom]), sign ":",
           node .type (p .type)],
         node .item (sequence [optional (sequence [p .patternAtom, sign ":"]), sign "..."]),
         node .item (p .type)]]
  | .fields =>
    separated n comma <| sequence
      [many n (p .attribute), optional (p .visibility), identifier, sign ":", p .type]
  | .tupleFields =>
    separated n comma <| sequence [many n (p .attribute), optional (p .visibility), p .type]
  | .useTree =>
    let lead := sequence
      [optional (sign "::"), many n (sequence [pathWord, sign "::"])]
    choice
      [sequence [lead, sign "*"],
       sequence [lead, sign "\x7b", separated n comma (p .useTree), sign "\x7d"],
       sequence [plainPath n,
        optional (sequence [keyword "as", choice [identifier, keyword "_"]])]]
  | .item =>
    let shown := optional (p .visibility)
    let generic := optional (p .genericParameters)
    let conditions := optional (p .whereClause)
    choice
      [node .function (sequence [p .functionHead, p .block]),
       node .item (sequence [p .functionHead, sign ";"]),
       node .module (sequence
        [shown, optional (keyword "unsafe"), keyword "mod", node .name identifier,
         choice [p .declarations, sign ";"]]),
       node .implementation (sequence
        [optional (keyword "default"), optional (keyword "unsafe"), keyword "impl", generic,
         choice
          [sequence [optional (sign "!"), p .type, keyword "for", node .selfType (p .type)],
           node .selfType (p .type)],
         conditions, choice [p .declarations, sign ";"]]),
       node .item (sequence
        [shown, keyword "struct", identifier, generic, choice
          [sequence [conditions, sign "\x7b", p .fields, sign "\x7d"],
           sequence [sign "(", p .tupleFields, sign ")", conditions, sign ";"],
           sequence [conditions, sign ";"]]]),
       node .item (sequence
        [shown, keyword "enum", identifier, generic, conditions, sign "\x7b",
         separated n comma (sequence
          [many n (p .attribute), optional (p .visibility), identifier,
           optional (choice
            [sequence [sign "\x7b", p .fields, sign "\x7d"],
             sequence [sign "(", p .tupleFields, sign ")"]]),
           optional (sequence [sign "=", p (.expression true)])]),
         sign "\x7d"]),
       node .item (sequence
        [shown, keyword "union", identifier, generic, conditions, sign "\x7b", p .fields,
         sign "\x7d"]),
       node .trait (sequence
        [shown, optional (keyword "unsafe"), optional (keyword "auto"), keyword "trait",
         identifier, generic, optional (sequence [sign ":", p .bounds]), conditions,
         choice
          [p .declarations, sequence [sign "=", p .bounds, conditions, sign ";"]]]),
       node .item (sequence [shown, keyword "use", p .useTree, sign ";"]),
       node .item (sequence
        [shown, optional (keyword "default"), keyword "const",
         choice [identifier, keyword "_"], generic, sign ":", p .type,
         optional (sequence [sign "=", p (.expression true)]), conditions, sign ";"]),
       node .item (sequence
        [shown, optional (choice [keyword "unsafe", keyword "safe"]), keyword "static",
         optional (keyword "mut"), identifier, sign ":", p .type,
         optional (sequence [sign "=", p (.expression true)]), sign ";"]),
       node .item (sequence
        [shown, optional (keyword "default"), keyword "type", identifier, generic,
         optional (sequence [sign ":", p .bounds]), conditions,
         optional (sequence [sign "=", p .type]), conditions, sign ";"]),
       node .item (sequence
        [shown, keyword "extern", keyword "crate", choice [identifier, keyword "self"],
         optional (sequence [keyword "as", choice [identifier, keyword "_"]]), sign ";"]),
       node .foreignModule (sequence
        [shown, optional (keyword "unsafe"), keyword "extern", optional quotedText,
         p .declarations]),
       node .macroCall (sequence
        [plainPath n, sign "!", optional identifier, p .tokenGroup, optional (sign ";")]),
       node .item (sign ";")]
  | .genericParameters =>
    sequence
      [sign "<", separated n comma (sequence
        [many n (p .attribute), choice
          [sequence [lifetime, optional (sequence [sign ":", p .bounds])],
           sequence
            [keyword "const", identifier, sign ":", p .type,
             optional (sequence [sign "=", choice [signedLiteral, identifier, p .block]])],
           sequence
            [identifier, optional (sequence [sign ":", p .bounds]),
             optional (sequence [sign "=", p .type])]]]),
       sign ">"]
  | .whereClause =>
    sequence
      [keyword "where", separated n comma (choice
        [sequence [lifetime, sign ":", p .bounds],
         sequence
          [optional (sequence [keyword "for", p .genericParameters]), p .type, sign ":",
           p .bounds]])]
  | .bounds => separated n (sign "+") (p .bound)
  | .bound =>
    choice
      [lifetime,
       sequence
        [optional (sign "?"), optional (sequence [sign "~", keyword "const"]),
         optional (sequence [keyword "for", p .genericParameters]), p .typePath],
       sequence [sign "(", p .bound, sign ")"],
       sequence
        [keyword "use", sign "<", separated n comma (choice [lifetime, pathWord]), sign ">"]]
  | .type => sequence [p .typeAtom, many n (sequence [sign "+", p .bound])]
  | .typeAtom =>
    let result := optional (sequence [sign "->", p .typeAtom])
    choice
      [sequence [sign "(", separated n comma (p .type), sign ")"],
       sign "!",
       keyword "_",
       sequence [sign "*", choice [keyword "const", keyword "mut"], p .typeAtom],
       sequence [sign "&", optional lifetime, optional (keyword "mut"), p .typeAtom],
       sequence
        [sign "[", p .type, optional (sequence [sign ";", p (.expression true)]), sign "]"],
       sequence
        [optional (sequence [keyword "for", p .genericParameters]), optional (keyword "unsafe"),
         optional (sequence [keyword "extern", optional quotedText]), keyword "fn", sign "(",
         separated n comma (sequence
          [many n (p .attribute), choice
            [sequence
              [choice [identifier, keyword "_"], sign ":", choice [sign "...", p .type]],
             sign "...",
             p .type]]),
         sign ")", result],
       sequence [choice [keyword "impl", keyword "dyn"], p .bounds],
       sequence [keyword "for", p .genericParameters, p .typeAtom],
       sequence [p .typePath, optional (sequence [sign "!", p .tokenGroup])]]
  | .typePath =>
    choice
      [sequence
        [sign "<", p .type, optional (sequence [keyword "as", p .typePath]), sign ">",
         sign "::", p .typeSegment, many n (sequence [sign "::", p .typeSegment])],
       sequence
        [optional (sign "::"), p .typeSegment, many n (sequence [sign "::", p .typeSegment])]]
  | .typeSegment =>
    sequence
      [pathWord, optional (choice
        [p .genericArguments,
         sequence [sign "::", p .genericArguments],
         sequence
          [sign "(", separated n comma (p .type), sign ")",
           optional (sequence [sign "->", p .typeAtom])]])]
  | .genericArguments =>
    let value := choice [p .type, signedLiteral, p .block]
    sequence
      [sign "<", separated n comma (choice
        [lifetime,
         sequence
          [p .type, optional (choice
            [sequence [sign "=", value], sequence [sign ":", p .bounds]])],
         signedLiteral,
         p .block]),
       sign ">"]
  | .pattern =>
    sequence [optional (sign "|"), p .patternAtom, many n (sequence [sign "|", p .patternAtom])]
  | .patternAtom =>
    let rangeEnd := choice [signedLiteral, p .expressionPath]
    let patternRange := sequence [choice [sign "..=", sign "...", sign ".."], optional rangeEnd]
    choice
      [keyword "_",
       sequence [signedLiteral, optional patternRange],
       sequence [sign "..=", rangeEnd],
       sequence [sign "..", optional rangeEnd],
       sequence [sign "&", optional (keyword "mut"), p .patternAtom],
       sequence [sign "(", separated n comma (p .pattern), sign ")"],
       sequence [sign "[", separated n comma (p .pattern), sign "]"],
       sequence
        [optional (keyword "ref"), optional (keyword "mut"), identifier, sign "@",
         p .patternAtom],
       sequence [keyword "ref", optional (keyword "mut"), identifier],
       sequence [keyword "mut", identifier],
       sequence [keyword "const", p .block],
       sequence [p .expressionPath, optional (choice
        [sequence [sign "(", separated n comma (p .pattern), sign ")"],
         sequence
          [sign "\x7b", separated n comma (sequence
            [many n (p .attribute), choice
              [sign "..",
               sequence [choice [identifier, number], sign ":", p .pattern],
               sequence [optional (keyword "ref"), optional (keyword "mut"), identifier]]]),
           sign "\x7d"],
         sequence [sign "!", p .tokenGroup],
         patternRange])]]
  | .block => node .block (sequence [sign "\x7b", many n (p .statement), sign "\x7d"])
  | .statement =>
    choice
      [sign ";",
       p .attribute,
       p .innerAttribute,
       sequence
        [keyword "let", p .pattern, optional (sequence [sign ":", p .type]),
         optional (sequence
          [sign "=", p (.expression true), optional (sequence [keyword "else", p .block])]),
         sign ";"],
       sequence
        [plainPath n, sign "!", choice
          [sequence [ahead (sign "\x7b"), p .tokenGroup, notAhead continuation],
           sequence [p .tokenGroup, sign ";"]]],
       sequence [p .blockLike, notAhead continuation],
       sequence [notAhead (sequence [plainPath n, sign "!", ahead (token isBracket)]), p .item],
       sequence [p (.expression true), choice [sign ";", ahead (sign "\x7d")]]]
  | .ifLike =>
    sequence
      [keyword "if", p (.expression false), p .block,
       optional (sequence [keyword "else", choice [p .ifLike, p .block]])]
  | .matchArm =>
    sequence
      [many n (p .attribute), p .pattern,
       optional (sequence [keyword "if", p (.expression true)]), sign "=>", choice
        [sequence [p .blockLike, notAhead continuation, optional comma],
         sequence [p (.expression true), choice [comma, ahead (sign "\x7d")]]]]
  | .blockLike =>
    choice
      [p .ifLike,
       sequence
        [keyword "match", p (.expression false), sign "\x7b", many n (p .innerAttribute),
         many n (p .matchArm), sign "\x7d"],
       sequence [keyword "unsafe", p .block],
       sequence [keyword "const", p .block],
       sequence [keyword "async", optional (keyword "move"), p .block],
       sequence
        [optional (sequence [lifetime, sign ":"]), choice
          [sequence [keyword "loop", p .block],
           sequence [keyword "while", p (.expression false), p .block],
           sequence
            [keyword "for", p .pattern, keyword "in", p (.expression false), p .block],
           p .block]]]
  | .expression structs =>
    sequence
      [p (.operand structs), many n (choice
        [sequence [binarySign, p (.operand structs)],
         sequence
          [rangeSign, optional (sequence
            [if structs then empty else notAhead (sign "\x7b"), p (.operand structs)])],
         sequence [keyword "as", p .typeAtom]])]
  | .operand structs =>
    let value := optional (sequence
      [if structs then empty else notAhead (sign "\x7b"), p (.expression structs)])
    choice
      [sequence [keyword "let", p .pattern, sign "=", p (.operand structs)],
       p (.closure structs),
       sequence [keyword "return", value],
       sequence [keyword "break", optional lifetime, value],
       sequence [keyword "continue", optional lifetime],
       sequence [rangeSign, optional (sequence
        [if structs then empty else notAhead (sign "\x7b"), p (.operand structs)])],
       sequence
        [choice
          [sign "-", sign "!", sign "*",
           sequence [sign "&", optional (choice
            [keyword "mut",
             sequence [keyword "raw", choice [keyword "const", keyword "mut"]]])]],
         p (.operand structs)],
       sequence
        [p (.primary structs), many n (choice
          [sign "?",
           sequence [sign ".", choice
            [keyword "await",
             number,
             sequence [identifier, optional (sequence [sign "::", p .genericArguments])]]],
           sequence
            [sign "(", separated n comma (sequence
              [many n (p .attribute), p (.expression true)]), sign ")"],
           sequence [sign "[", p (.expression true), sign "]"]])]]
  | .primary structs =>
    choice
      [literalToken,
       p .blockLike,
       if structs then sequence
        [p .expressionPath, sign "\x7b", separated n comma (sequence
          [many n (p .attribute), choice
            [sequence [sign "..", optional (p (.expression true))],
             sequence [choice [identifier, number], sign ":", p (.expression true)],
             identifier]]),
         sign "\x7d"]
       else fun _ => none,
       sequence [plainPath n, sign "!", p .tokenGroup],
       p .expressionPath,
       sequence
        [sign "(", separated n comma (sequence [many n (p .attribute), p (.expression true)]),
         sign ")"],
       sequence
        [sign "[", optional (sequence
          [many n (p .attribute), p (.expression true), choice
            [sequence [sign ";", p (.expression true)],
             sequence
              [many n (sequence [comma, many n (p .attribute), p (.expression true)]),
               optional comma]]]),
         sign "]"],
       keyword "_"]
  | .closure structs =>
    sequence
      [optional (sequence [keyword "for", p .genericParameters]), optional (keyword "static"),
       optional (keyword "async"), optional (keyword "move"), choice
        [sign "||",
         sequence
          [sign "|", separated n comma (sequence
            [many n (p .attribute), p .patternAtom, optional (sequence [sign ":", p .type])]),
           sign "|"]],
       choice
        [sequence [sign "->", p .typeAtom, p .block],
         p (.expression structs)]]
  | .expressionPath =>
    let tail := many n (sequence [sign "::", choice [pathWord, p .genericArguments]])
    choice
      [sequence
        [sign "<", p .type, optional (sequence [keyword "as", p .typePath]), sign ">",
         sign "::", pathWord, tail],
       sequence [optional (sign "::"), pathWord, tail]]
  | .tokenGroup =>
    choice
      [sequence [sign "(", many n (p .tokenTree), sign ")"],
       sequence [sign "[", many n (p .tokenTree), sign "]"],
       sequence [sign "\x7b", many n (p .tokenTree), sign "\x7d"]]
  | .tokenTree => choice [p .tokenGroup, token (!isBracket ·)]

/-- The rule of a form, for sources nested no deeper than `depth` forms. -/
def Form.rule : (depth : Nat) → Form → List Token → Option (List Tree × List Token)
  | 0, _, _ => none
  | depth + 1, form, ts => grammar (Form.rule depth) depth form ts

/-- How many forms may be nested in a source of that many tokens: no form passes through more than
a few others before it reads a token. -/
def depthFor (tokens : Nat) : Nat := 32 * (tokens + 2)

/-- The items of a source as a forest, and the tokens from the first that starts none. -/
def readItems (ts : List Token) : List Tree × List Token :=
  ((Form.rule (depthFor ts.length) .items) ts).getD ([], ts)

end TestSkeleton.Rust
