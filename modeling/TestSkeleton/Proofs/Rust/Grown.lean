import TestSkeleton.Extraction.Rust
import TestSkeleton.Proofs.Rust.Reading

/-! The trees of a source are as the grammar grows them. Functions, modules and implementations stand
nowhere but among declarations and in blocks, and an attribute is a path between its brackets, perhaps
with something behind it. -/

namespace TestSkeleton.Rust

open Text

/-- The kinds of the nodes that can hold or be a function that is looked for. -/
def Kind.isOuter : Kind → Bool
  | function | implementation | module | declarations => true
  | _ => false

def Kind.isAny (_ : Kind) : Bool := true

/-- The kinds that may stand in a block, or among declarations. -/
def Kind.isInner (k : Kind) : Bool := k != declarations

/-- The kinds that may stand anywhere else. -/
def Kind.isPart (k : Kind) : Bool := !k.isOuter

namespace Tree

/-- If the tree is a node, it is of a kind that is allowed. -/
def Shown (allowed : Kind → Bool) : Tree → Prop
  | node kind _ => allowed kind = true
  | _ => True

theorem Shown.mono {allowed wider : Kind → Bool} {t : Tree} (shown : t.Shown allowed)
    (more : ∀ k, allowed k = true → wider k = true) : t.Shown wider := by
  cases t with
  | node kind children => exact more kind shown
  | leaf _ => trivial
  | comment _ => trivial

end Tree

/-- Parts, and behind them at most one body. -/
def Bodied (children : List Tree) : Prop :=
  ∃ front body, children = front ++ body ∧ (∀ t ∈ front, t.Shown Kind.isPart) ∧
    (body = [] ∨ ∃ inside, body = [.node .declarations inside])

/-- What the grammar says of the children of a node. -/
def Kind.Content (kind : Kind) (children : List Tree) : Prop :=
  match kind with
  | .name => ∃ t, children = [.leaf t] ∧ t.IsWord
  | .visibility => VisibilityTokens (Tree.tokensOfAll children)
  | .attribute => AttributeTokens (Tree.tokensOfAll children)
  | .module | .implementation => Bodied children
  | .declarations => ∀ t ∈ children, t.Shown Kind.isInner
  | .selfParameter => ∃ w : WrittenReceiver, Tree.tokensOfAll children = w.tokens
  | _ => True

namespace Tree

mutual

/-- All nodes of the tree have children as the grammar says. -/
def Grown : Tree → Prop
  | leaf _ => True
  | comment _ => True
  | node kind children =>
    Lexical (tokensOfAll children) ∧ kind.Content children ∧ AllGrown children

def AllGrown : List Tree → Prop
  | [] => True
  | t :: rest => Grown t ∧ AllGrown rest

end

theorem allGrown_iff {l : List Tree} : AllGrown l ↔ ∀ t ∈ l, t.Grown := by
  induction l with
  | nil => simp [AllGrown]
  | cons t rest ih => simp [AllGrown, ih]

variable {kind : Kind} {children : List Tree}

theorem Grown.lexical (grown : (node kind children).Grown) : Lexical (tokensOfAll children) := grown.1

theorem Grown.content (grown : (node kind children).Grown) : kind.Content children := grown.2.1

theorem Grown.inside (grown : (node kind children).Grown) : ∀ t ∈ children, t.Grown :=
  allGrown_iff.mp grown.2.2

theorem Grown.childOf? {k : Kind} {t : Tree} (grown : (node kind children).Grown)
    (found : (node kind children).childOf? k = some t) : ∃ inner, t = node k inner ∧ t.Grown := by
  rw [Tree.childOf?] at found
  have isKind := List.find?_some found
  have member := List.mem_of_find?_eq_some found
  obtain ⟨inner, rfl⟩ := exists_of_isKind isKind
  exact ⟨inner, rfl, grown.inside _ member⟩

end Tree

namespace Rule

/-- What a rule reads are the tokens up to where it ends, under nodes as the grammar says. The topmost
of them are of the kinds that are allowed. -/
def Reads (allowed : Kind → Bool) (r : Rule) : Prop :=
  ∀ ts forest rest, Lexical ts → r ts = some (forest, rest) →
    Tree.tokensOfAll forest ++ rest = ts ∧ ∀ tree ∈ forest, tree.Grown ∧ tree.Shown allowed

/-- What a rule reads has the property. -/
def Gives (C : List Tree → Prop) (r : Rule) : Prop :=
  ∀ ts forest rest, Lexical ts → r ts = some (forest, rest) → C forest

variable {allowed wider : Kind → Bool} {r : Rule} {rules : List Rule}

theorem Reads.mono (reads : Reads allowed r) (more : ∀ k, allowed k = true → wider k = true) :
    Reads wider r := by
  intro ts forest rest lexical read
  obtain ⟨same, trees⟩ := reads ts forest rest lexical read
  exact ⟨same, fun tree member => (trees tree member).imp_right (·.mono more)⟩

theorem reads_none : Reads allowed fun _ => none := nofun

theorem reads_empty : Reads allowed empty := by
  intro ts forest rest _ read
  cases read
  exact ⟨rfl, fun _ member => absurd member List.not_mem_nil⟩

theorem reads_token (p : Token → Bool) : Reads allowed (token p) := by
  intro ts forest rest _ read
  obtain ⟨t, -, rfl, rfl⟩ := token_eq_some.mp read
  refine ⟨rfl, fun tree member => ?_⟩
  rw [List.mem_singleton.mp member]
  exact ⟨trivial, trivial⟩

theorem Reads.behind {ts rest : List Token} {forest : List Tree} (reads : Reads allowed r)
    (lexical : Lexical ts) (read : r ts = some (forest, rest)) : Lexical rest := by
  rw [← (reads ts forest rest lexical read).1] at lexical
  exact lexical.behind

theorem Reads.andThen {first second : Rule} (one : Reads allowed first) (two : Reads allowed second) :
    Reads allowed (andThen first second) := by
  intro ts forest rest lexical read
  obtain ⟨front, mid, back, began, ended, rfl⟩ := andThen_eq_some.mp read
  obtain ⟨start, trees⟩ := one ts front mid lexical began
  obtain ⟨finish, more⟩ := two mid back rest (one.behind lexical began) ended
  refine ⟨?_, fun tree member => (List.mem_append.mp member).elim (trees tree) (more tree)⟩
  rw [Tree.tokensOfAll_append, List.append_assoc, finish, start]

theorem Reads.orElse {first second : Rule} (one : Reads allowed first) (two : Reads allowed second) :
    Reads allowed (orElse first second) := fun ts forest rest lexical read =>
  (orElse_eq_some read).elim (one ts forest rest lexical) (two ts forest rest lexical)

theorem reads_sequence (all : ∀ r ∈ rules, Reads allowed r) : Reads allowed (sequence rules) := by
  induction rules with
  | nil => exact reads_empty
  | cons r rules ih =>
    exact (all r List.mem_cons_self).andThen (ih fun r member => all r (List.mem_cons_of_mem _ member))

theorem reads_choice (all : ∀ r ∈ rules, Reads allowed r) : Reads allowed (choice rules) := by
  intro ts forest rest lexical read
  obtain ⟨r, member, found⟩ := choice_eq_some read
  exact all r member ts forest rest lexical found

theorem Reads.optional (reads : Reads allowed r) : Reads allowed (optional r) := reads.orElse reads_empty

theorem Reads.many (reads : Reads allowed r) (n : Nat) : Reads allowed (many n r) := by
  induction n with
  | zero => exact reads_empty
  | succ n ih => exact (reads.andThen ih).orElse reads_empty

theorem Reads.separated {separator item : Rule} (between : Reads allowed separator)
    (reads : Reads allowed item) (n : Nat) : Reads allowed (separated n separator item) := by
  refine (reads_sequence ?_).optional
  simp only [List.forall_mem_cons, List.not_mem_nil, false_implies, implies_true, and_true]
  exact ⟨reads, (between.andThen reads).many n, between.optional⟩

theorem reads_ahead (r : Rule) : Reads allowed (ahead r) := by
  intro ts forest rest lexical read
  rw [ahead] at read
  split at read
  · exact reads_empty ts forest rest lexical read
  · cases read

theorem reads_notAhead (r : Rule) : Reads allowed (notAhead r) := by
  intro ts forest rest lexical read
  rw [notAhead] at read
  split at read
  · cases read
  · exact reads_empty ts forest rest lexical read

theorem reads_keyword (word : String) : Reads allowed (keyword word) := reads_token _

theorem reads_signs (text : Text) : Reads allowed (signs text) := by
  induction text with
  | nil => exact reads_empty
  | cons c rest ih =>
    refine (reads_token _).andThen fun ts forest behind lexical read => ?_
    split at read
    · exact ih ts forest behind lexical read
    · cases read

theorem reads_sign (text : String) : Reads allowed (sign text) := reads_signs _

theorem reads_ite (c : Bool) {yes no : Rule} (one : Reads allowed yes) (two : Reads allowed no) :
    Reads allowed (if c then yes else no) := by
  split
  · exact one
  · exact two

theorem forall_reads_cons {r : Rule} {rules : List Rule} (one : Reads allowed r)
    (others : ∀ q ∈ rules, Reads allowed q) : ∀ q ∈ r :: rules, Reads allowed q :=
  List.forall_mem_cons.mpr ⟨one, others⟩

theorem Reads.withComments (reads : Reads allowed r) : Reads allowed (withComments r) := by
  intro ts forest rest lexical read
  obtain ⟨comments, front, silent, found, rfl⟩ := withComments_eq_some read
  obtain ⟨start, trees⟩ := reads ts front rest lexical found
  refine ⟨?_, fun tree member => ?_⟩
  · rw [Tree.tokensOfAll_append, Tree.tokensOfAll_comments silent, List.nil_append, start]
  · rcases List.mem_append.mp member with before | inside
    · obtain ⟨text, rfl⟩ := silent tree before
      exact ⟨trivial, trivial⟩
    · exact trees tree inside

theorem Reads.node {kind : Kind} (here : allowed kind = true) (inside : Reads Kind.isAny r)
    (content : Gives kind.Content r) : Reads allowed (node kind r) := by
  intro ts forest rest lexical read
  obtain ⟨children, found, rfl⟩ := node_eq_some.mp read
  obtain ⟨start, trees⟩ := inside ts children rest lexical found
  refine ⟨by rw [Tree.tokensOfAll, Tree.tokens, Tree.tokensOfAll, List.append_nil, start],
    fun tree member => ?_⟩
  rw [List.mem_singleton.mp member]
  refine ⟨⟨?_, content ts children rest lexical found, ?_⟩, here⟩
  · rw [← start] at lexical
    exact lexical.front
  · exact Tree.allGrown_iff.mpr fun tree member => (trees tree member).1

theorem Spells.gives {L : List Token → Prop} (spells : Spells L r) :
    Gives (fun children => L (Tree.tokensOfAll children)) r :=
  fun ts forest rest _ read => spells ts forest rest read

theorem gives_free {kind : Kind} (free : ∀ children, kind.Content children) : Gives kind.Content r :=
  fun _ forest _ _ _ => free forest

theorem gives_name : Gives Kind.name.Content identifier := by
  intro ts forest rest _ read
  obtain ⟨t, taken, -, rfl⟩ := token_eq_some.mp read
  rw [Bool.and_eq_true, beq_iff_eq] at taken
  exact ⟨t, rfl, taken.1⟩

theorem Gives.cons (part : Reads Kind.isPart r) (parts : Gives Bodied (sequence rules)) :
    Gives Bodied (sequence (r :: rules)) := by
  intro ts forest rest lexical read
  obtain ⟨front, mid, back, one, others, rfl⟩ := sequence_cons_eq_some.mp read
  obtain ⟨more, body, rfl, shown, last⟩ := parts mid back rest (part.behind lexical one) others
  refine ⟨front ++ more, body, (List.append_assoc _ _ _).symm, fun t member => ?_, last⟩
  rcases List.mem_append.mp member with before | between
  · exact ((part ts front mid lexical one).2 t before).2
  · exact shown t between

theorem gives_body (depth : Nat) :
    Gives Bodied (sequence [choice [Form.rule depth .declarations, sign ";"]]) := by
  intro ts forest rest lexical read
  obtain ⟨front, mid, back, one, others, rfl⟩ := sequence_cons_eq_some.mp read
  rw [(sequence_nil_eq_some.mp others).1, List.append_nil]
  obtain ⟨r, member, found⟩ := choice_eq_some one
  simp only [List.mem_cons, List.not_mem_nil, or_false] at member
  rcases member with rfl | rfl
  · cases depth with
    | zero => cases found
    | succ depth =>
      obtain ⟨inside, -, rfl⟩ := node_eq_some.mp found
      exact ⟨[], _, rfl, fun _ none => absurd none List.not_mem_nil, Or.inr ⟨inside, rfl⟩⟩
  · have part : Reads Kind.isPart (sign ";") := reads_sign _
    refine ⟨front, [], (List.append_nil _).symm, fun t member => ?_, Or.inl rfl⟩
    exact ((part ts front mid lexical found).2 t member).2

end Rule

open Rule

/-- The kinds of the nodes that a form reads outside other nodes. -/
def Form.shown : Form → Kind → Bool
  | declarations => fun _ => true
  | items | item | statement => Kind.isInner
  | _ => Kind.isPart

theorem Kind.isInner_of_isPart (k : Kind) (part : k.isPart = true) : k.isInner = true := by
  cases k <;> first | rfl | cases part

theorem reads_binarySign : Reads Kind.isPart binarySign := by
  refine reads_choice fun r member => ?_
  obtain ⟨text, -, rfl⟩ := List.mem_map.mp member
  exact reads_sign text

theorem reads_identifier {allowed : Kind → Bool} : Reads allowed identifier := reads_token _

theorem gives_declarations {r : Rule} (reads : Reads Kind.isInner r) :
    Gives Kind.declarations.Content r :=
  fun ts forest rest lexical read t member => ((reads ts forest rest lexical read).2 t member).2

theorem gives_module {r : Rule} (bodied : Gives Bodied r) : Gives Kind.module.Content r := bodied

theorem gives_implementation {r : Rule} (bodied : Gives Bodied r) :
    Gives Kind.implementation.Content r := bodied

/-- Every form is read as the grammar says when the forms one level further down are. -/
theorem reads_grammar {depth : Nat} (inner : ∀ form, Reads form.shown (Form.rule depth form))
    (form : Form) : Reads form.shown (grammar (Form.rule depth) depth form) := by
  have any (form : Form) : Reads Kind.isAny (Form.rule depth form) := (inner form).mono fun _ _ => rfl
  have part (form : Form) (only : form.shown = Kind.isPart) :
      Reads Kind.isPart (Form.rule depth form) := only ▸ inner form
  have item : Reads Kind.isInner (Form.rule depth .item) := inner .item
  have block (form : Form) (only : form.shown = Kind.isPart) :
      Reads Kind.isInner (Form.rule depth form) := (part form only).mono Kind.isInner_of_isPart
  have items : Reads Kind.isInner (Form.rule depth .items) := inner .items
  cases form
  all_goals
    simp only [grammar, modifier, plainPath, pathWord, lifetime, number, quotedText, literalToken,
      signedLiteral, comma, rangeSign, continuation, Form.shown]
    repeat' first
      | with_reducible first
        | exact any _
        | exact item
        | exact items
        | exact reads_keyword _
        | exact reads_sign _
        | exact List.forall_mem_nil _
        | refine forall_reads_cons ?_ ?_
        | apply reads_sequence
        | apply reads_choice
        | apply Reads.optional
        | apply Reads.many
        | apply Reads.separated
        | exact reads_token _
        | exact reads_binarySign
        | exact reads_ahead _
        | exact reads_notAhead _
        | exact reads_empty
        | exact reads_none
        | apply Reads.withComments
        | apply reads_ite
        | exact reads_identifier
        | exact gives_name
        | exact gives_body _
        | refine Gives.cons ?_ ?_
        | refine gives_module ?_
        | refine gives_implementation ?_
        | refine gives_declarations ?_
      | exact part _ rfl
      | exact block _ rfl
      | refine Reads.node rfl ?_ ?_
      | exact gives_free fun _ => trivial
      | exact (spells_visibility _).gives
      | exact (spells_attribute _).gives
      | exact spells_receiver.gives

theorem reads_rule (depth : Nat) (form : Form) : Reads form.shown (Form.rule depth form) := by
  induction depth generalizing form with
  | zero => exact reads_none
  | succ depth ih => exact reads_grammar ih form

theorem grown_readItems {ts : List Token} (lexical : Lexical ts) :
    ∀ t ∈ (readItems ts).1, t.Grown ∧ t.Shown Kind.isInner := by
  rw [readItems]
  cases found : (Form.rule (depthFor ts.length) .items) ts with
  | none => exact fun _ member => absurd member List.not_mem_nil
  | some result => exact (reads_rule _ .items ts result.1 result.2 lexical found).2

/-- The trees of a source are as the grammar says. -/
theorem grown_parse {source : Text} {trees : List Tree} (parsed : parse source = .ok trees) :
    ∀ t ∈ trees, t.Grown ∧ t.Shown Kind.isInner := by
  have grown := grown_readItems (lexical_lex (dropPreamble source))
  simp only [parse] at parsed
  split at parsed
  · split at parsed
    · rename_i found
      cases parsed
      rwa [found] at grown
    · cases parsed
  · cases parsed

end TestSkeleton.Rust
