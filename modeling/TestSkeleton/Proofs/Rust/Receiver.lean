import TestSkeleton.Case
import TestSkeleton.Proofs.Extraction.Parameter
import TestSkeleton.Proofs.Generation.BuiltCase
import TestSkeleton.Proofs.Rust.Grown
import TestSkeleton.Proofs.Rust.Site
import TestSkeleton.Suite.Rust

/-! How the receiver of a method is taken, as it is written and as it is recorded.

A receiver counts as mutable when its text holds `mut`, wherever that stands. So besides the keyword the
name of a lifetime counts, and so does a comment between two tokens. -/

namespace TestSkeleton

theorem Signature.receiver_type_iff (isReference holds : Bool) :
    ((receiver isReference (isReference && holds)).type = "&mut Self".toList ↔
      isReference = true ∧ holds = true) ∧
    ((receiver isReference (isReference && holds)).type = "&Self".toList ↔
      isReference = true ∧ ¬holds = true) ∧
    ((receiver isReference (isReference && holds)).type = "Self".toList ↔ ¬isReference = true) := by
  cases isReference <;> cases holds <;> decide

namespace Rust

open Text

/-! The text of tokens, as the pieces it is made of. -/

def gapPieces (t : Token) : List Text := t.gap.map Trivia.text

def piecesOfTokens : List Token → List Text
  | [] => []
  | t :: rest => t.text :: rest.flatMap fun t => gapPieces t ++ [t.text]

theorem textOfTokens_eq_flatten (ts : List Token) : textOfTokens ts = (piecesOfTokens ts).flatten := by
  cases ts with
  | nil => rfl
  | cons t rest =>
    have behind : (rest.flatMap fun t => t.gap.flatMap Trivia.text ++ t.text) =
        (rest.flatMap fun t => gapPieces t ++ [t.text]).flatten := by
      induction rest with
      | nil => rfl
      | cons u rest ih =>
        rw [List.flatMap_cons, List.flatMap_cons, List.flatten_append, ih, List.flatten_append,
          gapPieces, List.flatMap_def, List.flatten_singleton]
    rw [textOfTokens, behind]
    rfl

theorem mem_piecesOfTokens {ts : List Token} {piece : Text} :
    piece ∈ piecesOfTokens ts ↔ (∃ t ∈ ts, piece = t.text) ∨ ∃ t ∈ ts.tail, piece ∈ gapPieces t := by
  cases ts with
  | nil => simp [piecesOfTokens]
  | cons t rest =>
    simp only [piecesOfTokens, List.mem_cons, List.mem_flatMap, List.mem_append, List.not_mem_nil,
      or_false, List.tail_cons]
    constructor
    · intro found
      rcases found with first | ⟨u, member, inGap | text⟩
      · exact .inl ⟨t, .inl rfl, first⟩
      · exact .inr ⟨u, member, inGap⟩
      · exact .inl ⟨u, .inr member, text⟩
    · intro found
      rcases found with ⟨u, first | member, text⟩ | ⟨u, member, inGap⟩
      · exact .inl (first ▸ text)
      · exact .inr ⟨u, member, .inr text⟩
      · exact .inr ⟨u, member, .inl inGap⟩

/-- The text of a receiver, as it is searched. -/
def compact (t : Text) : Text := t.filter (· ≠ ' ')

theorem compact_flatten (pieces : List Text) : compact pieces.flatten = (pieces.map compact).flatten := by
  rw [compact, List.filter_flatten]
  rfl

namespace WrittenReceiver

variable {w : WrittenReceiver}

def IsReference (w : WrittenReceiver) : Prop := w.borrow.isSome = true

/-- Whether the keyword `mut` is written. -/
def IsMarked (w : WrittenReceiver) : Prop := w.marker.isSome = true

/-- Whether something other than the keyword passes for it: the name of the lifetime, or a comment once
its spaces are gone. -/
def Misleads (w : WrittenReceiver) : Prop :=
  (∃ b ∈ w.borrow, ∃ t ∈ b.lifetime, contains "mut".toList t.text = true) ∨
    ∃ t ∈ w.tokens.tail, ∃ text, .comment text ∈ t.gap ∧ contains "mut".toList (compact text) = true

theorem mem_tokens {t : Token} (member : t ∈ w.tokens) : t.text = ['&'] ∨
    (∃ b ∈ w.borrow, t ∈ b.lifetime) ∨ t ∈ w.marker ∨ t = w.instanceWord := by
  rcases List.mem_append.mp member with lead | behind
  · cases borrowed : w.borrow with
    | none =>
      rw [borrowed] at lead
      cases lead
    | some b =>
      rw [borrowed] at lead
      rcases List.mem_cons.mp lead with rfl | named
      · exact .inl b.isAmpersand.2
      · exact .inr (.inl ⟨b, rfl, Option.mem_toList.mp named⟩)
  · rcases List.mem_append.mp behind with marked | last
    · exact .inr (.inr (.inl (Option.mem_toList.mp marked)))
    · exact .inr (.inr (.inr (List.mem_singleton.mp last)))

/-- No token of a receiver has a space in it or goes on with `mut` where another piece stops. -/
theorem plain_token (lexical : Lexical w.tokens) {t : Token} (member : t ∈ w.tokens) :
    ' ' ∉ t.text ∧ ∀ c ∈ t.text.head?, c ∉ "ut".toList := by
  have words : ∀ word ∈ ["&", "mut", "self", "Self"].map String.toList,
      ' ' ∉ word ∧ ∀ c ∈ word.head?.toList, c ∉ "ut".toList := by decide
  have plain : t.text ∈ ["&", "mut", "self", "Self"].map String.toList →
      ' ' ∉ t.text ∧ ∀ c ∈ t.text.head?, c ∉ "ut".toList := by
    intro listed
    rcases words t.text listed with ⟨run, head⟩
    exact ⟨run, fun c first => head c (Option.mem_toList.mpr first)⟩
  rcases mem_tokens member with text | ⟨b, borrowed, named⟩ | marked | rfl
  · apply plain
    rw [text]
    exact List.mem_cons_self
  · rcases lexical.of_mem member with ⟨rest, here⟩
    rcases here.lifetime (b.isLifetime t named) with ⟨head, run⟩
    refine ⟨run, fun c first => ?_⟩
    rw [head] at first
    rw [← Option.some.inj first]
    decide
  · apply plain
    rw [w.isMarker t marked]
    decide
  · exact plain (List.mem_cons_of_mem _ (List.mem_cons_of_mem _ w.isInstance))

theorem contains_token_iff : (∃ t ∈ w.tokens, contains "mut".toList t.text = true) ↔
    w.IsMarked ∨ ∃ b ∈ w.borrow, ∃ t ∈ b.lifetime, contains "mut".toList t.text = true := by
  constructor
  · intro found
    rcases found with ⟨t, member, holds⟩
    rcases mem_tokens member with text | ⟨b, borrowed, named⟩ | marked | rfl
    · rw [text] at holds
      exact absurd holds (by decide)
    · exact .inr ⟨b, borrowed, t, named, holds⟩
    · exact .inl (Option.isSome_of_mem marked)
    · have words : ∀ word ∈ ["self", "Self"].map String.toList,
          contains "mut".toList word = false := by decide
      rw [words _ w.isInstance] at holds
      cases holds
  · intro found
    rcases found with marked | ⟨b, borrowed, t, named, holds⟩
    · rcases Option.isSome_iff_exists.mp marked with ⟨t, is⟩
      have word : contains "mut".toList t.text = true := by
        rw [w.isMarker t is]
        decide
      refine ⟨t, ?_, word⟩
      simp [tokens, is]
    · refine ⟨t, ?_, holds⟩
      have named' : b.lifetime = some t := named
      simp [tokens, Borrow.tokens, Option.mem_def.mp borrowed, named']

/-- Of what may stand between two tokens only a comment can hold `mut`, and none goes on with it. -/
theorem plain_trivia {trivia : Trivia} (sound : trivia.Sound) :
    (∀ c ∈ (compact trivia.text).head?, c ∉ "ut".toList) ∧
      (contains "mut".toList (compact trivia.text) = true ↔
        ∃ text, trivia = .comment text ∧ contains "mut".toList (compact text) = true) := by
  cases trivia with
  | blank b =>
    have letters : ∀ c ∈ "mut".toList, c ∉ compact b := by
      have solid : ∀ c ∈ "mut".toList, isBlank c = false := by decide
      intro c letter member
      have blank := sound.2 c (List.mem_filter.mp member).1
      rw [solid c letter] at blank
      cases blank
    have silent : contains "mut".toList (compact b) = false :=
      contains_eq_false_of_not_mem List.mem_cons_self (letters 'm' List.mem_cons_self)
    refine ⟨fun c first letter => ?_, ?_⟩
    · exact letters c (List.mem_cons_of_mem _ letter) (List.mem_of_mem_head? first)
    · have other : ¬∃ text, Trivia.blank b = .comment text ∧
          contains "mut".toList (compact text) = true := by
        intro found
        rcases found with ⟨text, same, -⟩
        cases same
      refine iff_of_false ?_ other
      rw [Trivia.text, silent]
      exact Bool.false_ne_true
  | comment text =>
    refine ⟨fun c first => ?_, by simp [Trivia.text]⟩
    have slash : text.head? = some '/' := sound
    rcases List.head?_eq_some_iff.mp slash with ⟨rest, rfl⟩
    have head : (compact ('/' :: rest)).head? = some '/' := by simp [compact]
    rw [Trivia.text, head] at first
    rw [← Option.some.inj first]
    decide

theorem compact_eq_self {t : Text} (run : ' ' ∉ t) : compact t = t := by
  apply List.filter_eq_self.mpr
  intro c member
  have other : c ≠ ' ' := fun same => run (same ▸ member)
  simpa using other

/-- The text of a receiver holds `mut` where the keyword stands, or where something passes for it. -/
theorem contains_iff (lexical : Lexical w.tokens) :
    contains "mut".toList (compact (textOfTokens w.tokens)) = true ↔ w.IsMarked ∨ w.Misleads := by
  have gaps : ∀ t ∈ w.tokens, ∀ trivia ∈ t.gap, trivia.Sound := by
    intro t member
    rcases lexical.of_mem member with ⟨rest, here⟩
    exact here.sound
  have apart : ∀ piece ∈ (piecesOfTokens w.tokens).map compact, ∀ c ∈ piece.head?, c ∉ "ut".toList := by
    intro piece member
    rcases List.mem_map.mp member with ⟨whole, listed, rfl⟩
    rcases mem_piecesOfTokens.mp listed with ⟨t, inside, rfl⟩ | ⟨t, behind, inGap⟩
    · rcases plain_token lexical inside with ⟨run, head⟩
      rwa [compact_eq_self run]
    · rcases List.mem_map.mp inGap with ⟨trivia, between, rfl⟩
      exact (plain_trivia (gaps t (List.mem_of_mem_tail behind) trivia between)).1
  rw [textOfTokens_eq_flatten, compact_flatten]
  refine (Bool.eq_iff_iff.mp (contains_flatten apart)).trans ?_
  rw [List.any_map, List.any_eq_true, Misleads, ← or_assoc, ← contains_token_iff]
  constructor
  · intro found
    rcases found with ⟨piece, listed, holds⟩
    rcases mem_piecesOfTokens.mp listed with ⟨t, inside, rfl⟩ | ⟨t, behind, inGap⟩
    · refine .inl ⟨t, inside, ?_⟩
      have same := compact_eq_self (plain_token lexical inside).1
      rwa [Function.comp, same] at holds
    · rcases List.mem_map.mp inGap with ⟨trivia, between, rfl⟩
      have sound := gaps t (List.mem_of_mem_tail behind) trivia between
      rcases (plain_trivia sound).2.mp holds with ⟨text, rfl, holds⟩
      exact .inr ⟨t, behind, text, between, holds⟩
  · intro found
    rcases found with ⟨t, inside, holds⟩ | ⟨t, behind, text, between, holds⟩
    · refine ⟨t.text, mem_piecesOfTokens.mpr (.inl ⟨t, inside, rfl⟩), ?_⟩
      rwa [Function.comp, compact_eq_self (plain_token lexical inside).1]
    · exact ⟨text, mem_piecesOfTokens.mpr (.inr ⟨t, behind, List.mem_map.mpr ⟨_, between, rfl⟩⟩), holds⟩

/-- A receiver begins with an ampersand or with a word. -/
theorem exists_text (w : WrittenReceiver) : ∃ c r, textOfTokens w.tokens = c :: r ∧ c ≠ ' ' ∧
    (c = '&' ↔ w.IsReference) := by
  cases borrowed : w.borrow with
  | some b =>
    have text : ∃ r, textOfTokens w.tokens = ['&'] ++ r := by
      rw [tokens, borrowed, Option.map_some, Option.getD_some, Borrow.tokens, List.cons_append,
        textOfTokens, b.isAmpersand.2]
      exact ⟨_, rfl⟩
    rcases text with ⟨r, text⟩
    exact ⟨'&', r, text, by decide, iff_of_true rfl (by simp [IsReference, borrowed])⟩
  | none =>
    have plain : ¬w.IsReference := by simp [IsReference, borrowed]
    have text : ∃ word ∈ ["mut", "self", "Self"].map String.toList, ∃ r,
        textOfTokens w.tokens = word ++ r := by
      cases marked : w.marker with
      | some t =>
        have word : t.text ∈ ["mut", "self", "Self"].map String.toList := by
          rw [w.isMarker t marked]
          decide
        have text : textOfTokens w.tokens = t.text ++
            [w.instanceWord].flatMap fun t => t.gap.flatMap Trivia.text ++ t.text := by
          rw [tokens, borrowed, marked]
          rfl
        exact ⟨t.text, word, _, text⟩
      | none =>
        refine ⟨w.instanceWord.text, List.mem_cons_of_mem _ w.isInstance, [], ?_⟩
        rw [tokens, borrowed, marked]
        rfl
    have words : ∀ word ∈ ["mut", "self", "Self"].map String.toList,
        word.head?.any (· ∈ ['m', 's', 'S']) = true := by decide
    rcases text with ⟨word, listed, r, text⟩
    rcases (Option.any_eq_true _ _).mp (words word listed) with ⟨c, head, letter⟩
    rcases List.head?_eq_some_iff.mp head with ⟨rest, rfl⟩
    have other : ∀ d ∈ ['m', 's', 'S'], d ≠ ' ' ∧ d ≠ '&' := by decide
    have marks := other c (of_decide_eq_true letter)
    exact ⟨c, rest ++ r, text, marks.1, iff_of_false marks.2 plain⟩

theorem startsWith_iff (w : WrittenReceiver) :
    startsWith ['&'] (compact (textOfTokens w.tokens)) = true ↔ w.IsReference := by
  rcases w.exists_text with ⟨c, r, text, visible, ampersand⟩
  have kept : compact (c :: r) = c :: compact r := List.filter_cons_of_pos (by simpa using visible)
  rw [text, kept, ← ampersand]
  by_cases same : c = '&'
  · simp [startsWith, dropPrefix?, same]
  · simp [startsWith, dropPrefix?, same, Ne.symm same]

/-- What is recorded of a receiver. -/
theorem receiverOf_type (lexical : Lexical w.tokens) :
    ((receiverOf (textOfTokens w.tokens)).type = "&mut Self".toList ↔
      w.IsReference ∧ (w.IsMarked ∨ w.Misleads)) ∧
    ((receiverOf (textOfTokens w.tokens)).type = "&Self".toList ↔
      w.IsReference ∧ ¬(w.IsMarked ∨ w.Misleads)) ∧
    ((receiverOf (textOfTokens w.tokens)).type = "Self".toList ↔ ¬w.IsReference) := by
  rw [← w.startsWith_iff, ← contains_iff lexical]
  exact Signature.receiver_type_iff _ _

end WrittenReceiver

/-- The tree of the parameter that takes the instance, if one does. -/
def receiverTree? (t : Tree) : Option Tree := (parameterTrees t).find? takesSelf

/-- The tokens by which a parameter says how it takes the instance: all of it, or its type. -/
def receiverTokens (c : Tree) : List Token :=
  if c.isKind .selfParameter then c.tokens else ((c.childOf? .type).map Tree.tokens).getD []

/-- The text that the receiver of a parameter's tree is read off. -/
def receiverText (c : Tree) : Text :=
  if c.isKind .selfParameter then c.text else ((c.childOf? .type).map Tree.text).getD ['_']

theorem parameterOf_receiver {c : Tree} (takes : takesSelf c = true) (place : Nat) :
    parameterOf place c = receiverOf (receiverText c) := by
  unfold takesSelf at takes
  unfold parameterOf receiverText
  cases isSelf : c.isKind .selfParameter with
  | true => rfl
  | false =>
    rw [isSelf, Bool.false_or, beq_iff_eq] at takes
    simp only [Bool.false_eq_true, if_false, takes, beq_self_eq_true, if_true]

theorem find?_zipIdx {α : Type} (p : α → Bool) (l : List α) (start : Nat) :
    ((l.zipIdx start).find? fun entry => p entry.1).map Prod.fst = l.find? p := by
  rw [← Function.comp_def, ← List.find?_map, List.zipIdx_map_fst]

/-- The receiver of a function is that of its first parameter that takes the instance. -/
theorem receiver?_eq {t : Tree} {f : Function} (parameters : f.parameters = parametersOf t) :
    f.receiver? = (receiverTree? t).map fun c => receiverOf (receiverText c) := by
  have takes : Parameter.isReceiver ∘ (fun c : Tree × Nat => parameterOf c.2 c.1) =
      fun c => takesSelf c.1 := funext fun c => isReceiver_parameterOf c.2 c.1
  have same : ∀ c ∈ (parameterTrees t).zipIdx.find? fun c => takesSelf c.1,
      parameterOf c.2 c.1 = receiverOf (receiverText c.1) := fun c found =>
    parameterOf_receiver (List.find?_some (p := fun c : Tree × Nat => takesSelf c.1) found) c.2
  calc
    f.receiver? = ((parameterTrees t).zipIdx.find? fun c => takesSelf c.1).map
        fun c => parameterOf c.2 c.1 := by
      rw [Function.receiver?, parameters, parametersOf_eq, List.find?_map, takes]
    _ = ((parameterTrees t).zipIdx.find? fun c => takesSelf c.1).map
        fun c => receiverOf (receiverText c.1) := Option.map_congr same
    _ = (((parameterTrees t).zipIdx.find? fun c => takesSelf c.1).map Prod.fst).map
        fun c => receiverOf (receiverText c) := by
      rw [Option.map_map]
      rfl
    _ = (receiverTree? t).map fun c => receiverOf (receiverText c) := by
      rw [find?_zipIdx, receiverTree?]

theorem Tree.Inside.grown {t : Tree} {l : List Tree} (inside : t.Inside l) (grown : ∀ u ∈ l, u.Grown) :
    t.Grown := by
  induction inside with
  | here listed => exact grown t listed
  | deeper listed _ ih => exact ih (grown _ listed).inside

theorem grown_parameterTree {t c : Tree} (grown : t.Grown) (listed : c ∈ parameterTrees t) :
    c.Grown := by
  have member := (List.mem_filter.mp listed).1
  cases found : t.childOf? .parameters with
  | none =>
    rw [found] at member
    cases member
  | some list =>
    rw [found] at member
    cases t with
    | leaf _ => cases found
    | comment _ => cases found
    | node kind children =>
      rcases grown.childOf? found with ⟨inner, rfl, listGrown⟩
      exact listGrown.inside c member

/-- A parameter that takes the instance is a node. -/
theorem exists_node_of_takesSelf {c : Tree} (takes : takesSelf c = true) :
    ∃ kind children, c = .node kind children := by
  cases c with
  | leaf _ => cases takes
  | comment _ => cases takes
  | node kind children => exact ⟨kind, children, rfl⟩

theorem lexical_receiverTokens {c : Tree} (grown : c.Grown) (takes : takesSelf c = true) :
    Lexical (receiverTokens c) := by
  rcases exists_node_of_takesSelf takes with ⟨kind, children, rfl⟩
  unfold receiverTokens
  split
  · exact grown.lexical
  · cases found : (Tree.node kind children).childOf? .type with
    | none => exact ⟨[], trivial⟩
    | some type =>
      rcases grown.childOf? found with ⟨inner, rfl, typeGrown⟩
      exact typeGrown.lexical

/-- A parameter without a type of its own is written as a receiver. -/
theorem exists_written {c : Tree} (grown : c.Grown) (isSelf : c.isKind .selfParameter = true) :
    ∃ w : WrittenReceiver, w.tokens = c.tokens := by
  obtain ⟨children, rfl⟩ := Tree.exists_of_isKind isSelf
  rcases grown.content with ⟨w, same⟩
  exact ⟨w, same.symm⟩

/-- A receiver that is written somewhere is read off its tokens. -/
theorem receiverText_of_tokens {c : Tree} {w : WrittenReceiver} (tokens : w.tokens = receiverTokens c) :
    receiverText c = textOfTokens w.tokens := by
  rw [tokens]
  unfold receiverTokens at tokens ⊢
  unfold receiverText
  split
  · rfl
  · rename_i typed
    rw [if_neg typed] at tokens
    cases found : c.childOf? .type with
    | some type => rfl
    | none =>
      rw [found] at tokens
      have filled : w.tokens ≠ [] := by simp [WrittenReceiver.tokens]
      exact absurd tokens filled

section Binding

variable {run : Workspace} {target : Target} {crate : Crate} {f : Function} {test : Case}

/-- A local is bound with `let mut` when it is mutable. -/
theorem startsWith_localLine {b : Binding} (named : b.name = Case.instanceName) :
    startsWith (indent ++ "let mut ".toList) (localLine b) = b.isMutable := by
  unfold localLine
  rw [named]
  cases b.isMutable <;> rfl

/-- A case has an instance when the function has a receiver and an owner, and it is mutable when the
receiver is. -/
theorem bindReceiver_eq_ok {policy : Policy} {literal : Text → Except LiteralError Text}
    {bound : Option Binding} (made : Case.bindReceiver policy f literal = .ok bound) :
    bound.isSome = (f.receiver?.isSome && f.namedOwner?.isSome) ∧
      ∀ b ∈ bound, b.name = Case.instanceName ∧
        ∃ p ∈ f.receiver?, b.isMutable = Case.takesMutably p := by
  unfold Case.bindReceiver at made
  split at made
  · rename_i p owner taken owned
    have instance' : ∃ value, bound = some ⟨Case.instanceName, value, Case.takesMutably p⟩ := by
      dsimp only at made
      split at made
      · cases made
        exact ⟨_, rfl⟩
      · rcases bind_eq_ok.mp made with ⟨value, -, made⟩
        cases made
        exact ⟨value, rfl⟩
    rcases instance' with ⟨value, rfl⟩
    refine ⟨by rw [taken, owned]; rfl, fun b same => ?_⟩
    rw [← Option.some.inj same]
    exact ⟨rfl, p, taken, rfl⟩
  · rename_i absent
    cases made
    refine ⟨?_, nofun⟩
    cases taken : f.receiver? with
    | none => rfl
    | some p =>
      cases owned : f.namedOwner? with
      | none => rfl
      | some owner => exact absurd owned (absent p owner taken)

end Binding

theorem takesMutably_iff {text : Text} : Case.takesMutably (receiverOf text) = true ↔
    (receiverOf text).type = "&mut Self".toList := by
  have each : ∀ isReference holds, Case.takesMutably (Signature.receiver isReference holds) = true ↔
      (Signature.receiver isReference holds).type = "&mut Self".toList := by
    intro isReference holds
    cases isReference <;> cases holds <;> decide
  exact each _ _

/-- The receiver of an extracted function is recorded as it is written, but that a shared reference is
recorded as a mutable one when the name of its lifetime or a comment in it holds `mut`. The instance of
its test is bound with `let mut` accordingly. -/
theorem receiver_recorded {policy : Policy} {file source : Text} {functions : List Function}
    {f : Function} (extracted : extract policy file source = .ok functions) (member : f ∈ functions) :
    ∃ trees t scope owner, parse source = .ok trees ∧ t.isKind .function = true ∧ t.Inside trees ∧
      f = functionOf file scope owner t ∧ f.receiver?.isSome = (receiverTree? t).isSome ∧
      ∀ c ∈ receiverTree? t,
        (c.isKind .selfParameter = true → ∃ w : WrittenReceiver, w.tokens = receiverTokens c) ∧
        ∀ w : WrittenReceiver, w.tokens = receiverTokens c → ∃ p, f.receiver? = some p ∧
          (p.type = "&mut Self".toList ↔ w.IsReference ∧ (w.IsMarked ∨ w.Misleads)) ∧
          (p.type = "&Self".toList ↔ w.IsReference ∧ ¬(w.IsMarked ∨ w.Misleads)) ∧
          (p.type = "Self".toList ↔ ¬w.IsReference) ∧
          ∀ (run : Workspace) (target : Target) (crate : Crate) (test : Case),
            target.dialect = .rust crate → target.buildCase run f = .ok test →
              test.receiver.isSome = f.namedOwner?.isSome ∧
              ∀ b ∈ test.receiver, b.name = Case.instanceName ∧
                (startsWith (indent ++ "let mut ".toList) (localLine b) = true ↔
                  w.IsReference ∧ (w.IsMarked ∨ w.Misleads)) := by
  rcases map_eq_ok.mp extracted with ⟨trees, parsed, rfl⟩
  rcases exists_tree_collectAll policy file [] none [] trees f member with
    ⟨t, scope, owner, isFunction, inside, rfl⟩
  have receiver := receiver?_eq (t := t) (f := functionOf file scope owner t) rfl
  have grown : t.Grown := inside.grown fun u listed => (grown_parse parsed u listed).1
  refine ⟨trees, t, scope, owner, parsed, isFunction, inside, rfl, ?_, ?_⟩
  · rw [receiver, Option.isSome_map]
  intro c found
  have takes : takesSelf c = true := List.find?_some (Option.mem_def.mp found)
  have grownHere := grown_parameterTree grown (List.mem_of_find?_eq_some (Option.mem_def.mp found))
  constructor
  · intro isSelf
    rcases exists_written grownHere isSelf with ⟨w, tokens⟩
    exact ⟨w, tokens.trans (if_pos isSelf).symm⟩
  intro w tokens
  have lexical : Lexical w.tokens := tokens ▸ lexical_receiverTokens grownHere takes
  rw [Option.mem_def.mp found, Option.map_some, receiverText_of_tokens tokens] at receiver
  rcases WrittenReceiver.receiverOf_type lexical with ⟨mutable, shared, plain⟩
  refine ⟨_, receiver, mutable, shared, plain, ?_⟩
  intro run target crate test dialect built
  rcases (Target.builds_of_buildCase built).receiver with ⟨literal, bound⟩
  rcases bindReceiver_eq_ok bound with ⟨counted, bindings⟩
  refine ⟨?_, fun b here => ?_⟩
  · rw [counted, receiver, Option.isSome_some, Bool.true_and]
  · rcases bindings b here with ⟨named, p, taken, marked⟩
    obtain rfl : p = receiverOf (textOfTokens w.tokens) :=
      Option.some.inj ((Option.mem_def.mp taken).symm.trans receiver)
    refine ⟨named, ?_⟩
    rw [startsWith_localLine named, marked, takesMutably_iff]
    exact mutable

def mutexSource : Text :=
  "pub struct A; impl A \x7b pub fn f<'mutex>(&'mutex self) \x7b\x7d \x7d".toList

def mutexReceiver : WrittenReceiver where
  borrow := some
    { ampersand := ⟨.sign, ['&'], []⟩
      lifetime := some ⟨.lifetime, "'mutex".toList, []⟩
      isAmpersand := ⟨rfl, rfl⟩
      isLifetime := fun _ same => Option.some.inj same ▸ rfl }
  marker := none
  instanceWord := ⟨.word, "self".toList, [.blank [' ']]⟩
  isMarker := nofun
  isInstance := List.mem_cons_self

/-- A shared reference whose lifetime holds `mut` is recorded as a mutable one. -/
theorem mutex_recorded :
    (textOfTokens mutexReceiver.tokens = "&'mutex self".toList ∧ mutexReceiver.IsReference ∧
      ¬mutexReceiver.IsMarked ∧ mutexReceiver.Misleads) ∧
    ∃ functions f, extract Policy.default [] mutexSource = .ok functions ∧ f ∈ functions ∧
      f.receiver? = some ⟨"self".toList, "&mut Self".toList⟩ ∧
      ∃ t c, f.parameters = parametersOf t ∧ receiverTree? t = some c ∧
        ∀ w : WrittenReceiver, w.tokens = receiverTokens c →
          w.IsReference ∧ (w.IsMarked ∨ w.Misleads) := by
  constructor
  · refine ⟨by decide, rfl, nofun, .inl ⟨_, rfl, _, rfl, by decide⟩⟩
  rcases exists_of_parse mutexSource
    (fun trees => (collectAll Policy.default [] [] none [] trees).map (·.receiver?) =
      [some ⟨"self".toList, "&mut Self".toList⟩]) (by decide +kernel) with ⟨trees, parsed, receivers⟩
  rcases List.map_eq_singleton_iff.mp receivers with ⟨f, functions, receiver⟩
  have extracted : extract Policy.default [] mutexSource = .ok [f] := by
    rw [extract, parsed, ← functions]
    rfl
  refine ⟨[f], f, extracted, List.mem_cons_self, receiver, ?_⟩
  rcases receiver_recorded extracted List.mem_cons_self with
    ⟨_, t, _, _, -, -, -, same, counted, recorded⟩
  rw [receiver] at counted
  rcases Option.isSome_iff_exists.mp counted.symm with ⟨c, found⟩
  refine ⟨t, c, by rw [same]; rfl, found, fun w tokens => ?_⟩
  rcases (recorded c found).2 w tokens with ⟨p, taken, mutable, -⟩
  rw [receiver] at taken
  exact mutable.mp (by rw [← Option.some.inj taken])

end Rust

end TestSkeleton
