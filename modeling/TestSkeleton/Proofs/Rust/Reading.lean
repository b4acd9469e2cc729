import TestSkeleton.Extraction.Rust.Grammar
import TestSkeleton.Proofs.Rust.Lexical

/-! What the rules of the grammar read: the tokens one after the other, and nodes whose children are as
the grammar says. -/

namespace TestSkeleton.Rust

open Text

/-- A tree of a kind is a node of that kind. -/
theorem Tree.exists_of_isKind {k : Kind} {t : Tree} (isKind : t.isKind k = true) :
    ∃ children, t = node k children := by
  cases t with
  | leaf token => cases isKind
  | comment text => cases isKind
  | node kind children =>
    obtain rfl : kind = k := beq_iff_eq.mp isKind
    exact ⟨children, rfl⟩

theorem Tree.tokensOfAll_append (a b : List Tree) :
    tokensOfAll (a ++ b) = tokensOfAll a ++ tokensOfAll b := by
  induction a with
  | nil => rfl
  | cons t a ih => simp only [List.cons_append, tokensOfAll, ih, List.append_assoc]

theorem Tree.tokensOfAll_comments {l : List Tree} (comments : ∀ t ∈ l, ∃ text, t = .comment text) :
    tokensOfAll l = [] := by
  induction l with
  | nil => rfl
  | cons t l ih =>
    obtain ⟨text, rfl⟩ := comments t List.mem_cons_self
    exact ih fun t member => comments t (List.mem_cons_of_mem _ member)

namespace Rule

variable {r s : Rule} {rules : List Rule} {ts rest : List Token} {forest : List Tree}

theorem andThen_eq_some : andThen r s ts = some (forest, rest) ↔
    ∃ front mid back, r ts = some (front, mid) ∧ s mid = some (back, rest) ∧ forest = front ++ back := by
  rw [andThen]
  cases r ts with
  | none => simp
  | some read =>
    obtain ⟨front, mid⟩ := read
    simp only [Option.map_eq_some_iff, Option.some.injEq, Prod.mk.injEq, Prod.exists]
    constructor
    · rintro ⟨back, last, ended, same, rfl⟩
      exact ⟨front, mid, back, ⟨rfl, rfl⟩, ended, same.symm⟩
    · rintro ⟨_, _, back, ⟨rfl, rfl⟩, ended, same⟩
      exact ⟨back, rest, ended, same.symm, rfl⟩

theorem sequence_cons_eq_some : sequence (r :: rules) ts = some (forest, rest) ↔
    ∃ front mid back, r ts = some (front, mid) ∧ sequence rules mid = some (back, rest) ∧
      forest = front ++ back :=
  andThen_eq_some

theorem sequence_nil_eq_some : sequence [] ts = some (forest, rest) ↔ forest = [] ∧ rest = ts := by
  rw [sequence, empty, Option.some.injEq, Prod.mk.injEq, eq_comm, eq_comm (a := ts)]

theorem orElse_eq_some (read : orElse r s ts = some (forest, rest)) :
    r ts = some (forest, rest) ∨ s ts = some (forest, rest) := by
  rw [orElse] at read
  split at read
  · rename_i result found
    exact Or.inl (found.trans read)
  · exact Or.inr read

theorem choice_eq_some (read : choice rules ts = some (forest, rest)) :
    ∃ r ∈ rules, r ts = some (forest, rest) := by
  induction rules with
  | nil => cases read
  | cons r rules ih =>
    rcases orElse_eq_some read with first | later
    · exact ⟨r, List.mem_cons_self, first⟩
    · obtain ⟨s, member, found⟩ := ih later
      exact ⟨s, List.mem_cons_of_mem r member, found⟩

theorem optional_eq_some (read : optional r ts = some (forest, rest)) :
    r ts = some (forest, rest) ∨ forest = [] ∧ rest = ts :=
  (orElse_eq_some read).imp_right sequence_nil_eq_some.mp

theorem token_eq_some {p : Token → Bool} : token p ts = some (forest, rest) ↔
    ∃ t, p t = true ∧ ts = t :: rest ∧ forest = [.leaf t] := by
  cases ts with
  | nil => simp [token]
  | cons t ts =>
    rw [token]
    split
    · rename_i taken
      simp only [Option.some.injEq, Prod.mk.injEq, List.cons.injEq]
      constructor
      · rintro ⟨same, rfl⟩
        exact ⟨t, taken, ⟨rfl, rfl⟩, same.symm⟩
      · rintro ⟨_, _, ⟨rfl, rfl⟩, same⟩
        exact ⟨same.symm, rfl⟩
    · rename_i refused
      refine iff_of_false nofun ?_
      rintro ⟨u, taken, same, -⟩
      cases same
      exact refused taken

theorem node_eq_some {kind : Kind} : node kind r ts = some (forest, rest) ↔
    ∃ inside, r ts = some (inside, rest) ∧ forest = [.node kind inside] := by
  rw [node, Option.map_eq_some_iff]
  constructor
  · rintro ⟨⟨inside, last⟩, read, same⟩
    cases same
    exact ⟨inside, read, rfl⟩
  · rintro ⟨inside, read, rfl⟩
    exact ⟨⟨inside, rest⟩, read, rfl⟩

theorem signs_cons_eq_some {c : Char} {text : Text} (read : signs (c :: text) ts = some (forest, rest)) :
    ∃ t mid back, t.kind = .sign ∧ t.text = [c] ∧ ts = t :: mid ∧
      signs text mid = some (back, rest) ∧ forest = .leaf t :: back := by
  obtain ⟨front, mid, back, first, later, rfl⟩ := andThen_eq_some.mp read
  obtain ⟨t, taken, rfl, rfl⟩ := token_eq_some.mp first
  rw [Bool.and_eq_true, beq_iff_eq, beq_iff_eq] at taken
  split at later
  · exact ⟨t, mid, back, taken.1, taken.2, rfl, later, rfl⟩
  · cases later

/-- In front of what the rule reads stand comments. -/
theorem withComments_eq (r : Rule) (ts : List Token) :
    ∃ comments, (∀ tree ∈ comments, ∃ text, tree = Tree.comment text) ∧
      withComments r ts = (r ts).map fun (forest, rest) => (comments ++ forest, rest) := by
  refine ⟨_, fun tree member => ?_, rfl⟩
  obtain ⟨trivia, -, shown⟩ := List.mem_filterMap.mp member
  cases trivia with
  | blank text => cases shown
  | comment text => exact ⟨text, (Option.some.inj shown).symm⟩

theorem withComments_eq_some (read : withComments r ts = some (forest, rest)) :
    ∃ comments front, (∀ tree ∈ comments, ∃ text, tree = Tree.comment text) ∧
      r ts = some (front, rest) ∧ forest = comments ++ front := by
  obtain ⟨comments, silent, whole⟩ := withComments_eq r ts
  rw [whole] at read
  obtain ⟨⟨front, behind⟩, found, same⟩ := Option.map_eq_some_iff.mp read
  cases same
  exact ⟨comments, front, silent, found, rfl⟩

/-- Every list of tokens that the rule reads is in the language. -/
def Spells (L : List Token → Prop) (r : Rule) : Prop :=
  ∀ ts forest rest, r ts = some (forest, rest) → L (Tree.tokensOfAll forest)

variable {L M : List Token → Prop}

theorem Spells.mono (spells : Spells L r) (wider : ∀ ts, L ts → M ts) : Spells M r :=
  fun ts forest rest read => wider _ (spells ts forest rest read)

theorem Spells.cons (first : Spells L r) (later : Spells M (sequence rules)) :
    Spells (fun ts => ∃ a b, ts = a ++ b ∧ L a ∧ M b) (sequence (r :: rules)) := by
  intro ts forest rest read
  obtain ⟨front, mid, back, one, others, rfl⟩ := sequence_cons_eq_some.mp read
  exact ⟨_, _, Tree.tokensOfAll_append front back, first _ _ _ one, later _ _ _ others⟩

theorem spells_nil : Spells (· = []) (sequence []) := by
  intro ts forest rest read
  rw [(sequence_nil_eq_some.mp read).1, Tree.tokensOfAll]

theorem spells_choice (all : ∀ r ∈ rules, Spells L r) : Spells L (choice rules) := by
  intro ts forest rest read
  obtain ⟨r, member, found⟩ := choice_eq_some read
  exact all r member ts forest rest found

theorem Spells.optional (spells : Spells L r) : Spells (fun ts => ts = [] ∨ L ts) (optional r) := by
  intro ts forest rest read
  rcases optional_eq_some read with found | ⟨rfl, -⟩
  · exact Or.inr (spells _ _ _ found)
  · exact Or.inl rfl

/-- What can be repeated is repeated. -/
theorem Spells.many (none : L []) (spells : Spells M r) (again : ∀ a b, M a → L b → L (a ++ b)) (n : Nat) :
    Spells L (many n r) := by
  induction n with
  | zero => exact (spells_nil).mono fun ts same => same ▸ none
  | succ n ih =>
    intro ts forest rest read
    rcases orElse_eq_some read with found | ended
    · obtain ⟨front, mid, back, one, others, rfl⟩ := andThen_eq_some.mp found
      rw [Tree.tokensOfAll_append]
      exact again _ _ (spells _ _ _ one) (ih _ _ _ others)
    · rw [(sequence_nil_eq_some.mp ended).1]
      exact none

theorem spells_token (p : Token → Bool) : Spells (fun ts => ∃ t, ts = [t] ∧ p t = true) (token p) := by
  intro ts forest rest read
  obtain ⟨t, taken, -, rfl⟩ := token_eq_some.mp read
  exact ⟨t, rfl, taken⟩

end Rule

/-- The token is that sign. -/
def Token.IsSign (c : Char) (t : Token) : Prop := t.kind = .sign ∧ t.text = [c]

def Token.IsWord (t : Token) : Prop := t.kind = .word

namespace Rule

theorem spells_keyword (word : String) :
    Spells (fun ts => ∃ t, ts = [t] ∧ t.IsWord ∧ t.text = word.toList) (keyword word) := by
  refine (spells_token _).mono fun ts ⟨t, same, taken⟩ => ⟨t, same, ?_⟩
  simpa [Token.IsWord] using taken

theorem spells_identifier : Spells (fun ts => ∃ t, ts = [t] ∧ t.IsWord) identifier := by
  refine (spells_token _).mono fun ts ⟨t, same, taken⟩ => ⟨t, same, ?_⟩
  rw [Bool.and_eq_true, beq_iff_eq] at taken
  exact taken.1

theorem spells_sign (c : Char) : Spells (fun ts => ∃ t, ts = [t] ∧ t.IsSign c) (signs [c]) := by
  intro ts forest rest read
  obtain ⟨t, mid, back, kind, text, -, ended, rfl⟩ := signs_cons_eq_some read
  rw [(sequence_nil_eq_some.mp ended).1]
  exact ⟨t, rfl, kind, text⟩

theorem spells_signs (c d : Char) :
    Spells (fun ts => ∃ t u, ts = [t, u] ∧ t.IsSign c ∧ u.IsSign d) (signs [c, d]) := by
  intro ts forest rest read
  obtain ⟨t, mid, back, kind, text, -, later, rfl⟩ := signs_cons_eq_some read
  obtain ⟨u, same, last⟩ := spells_sign d _ _ _ later
  exact ⟨t, u, congrArg (t :: ·) same, ⟨kind, text⟩, last⟩

theorem spells_pathWord : Spells (fun ts => ∃ t, ts = [t] ∧ t.IsWord) pathWord := by
  refine spells_choice ?_
  have word (w : String) : Spells (fun ts => ∃ t, ts = [t] ∧ t.IsWord) (keyword w) :=
    (spells_keyword w).mono fun ts ⟨t, same, isWord, _⟩ => ⟨t, same, isWord⟩
  simp only [List.forall_mem_cons, List.not_mem_nil, false_implies, implies_true, and_true]
  exact ⟨spells_identifier, word _, word _, word _, word _⟩

end Rule

/-- Words with double colons between them. -/
inductive PathTokens : List Token → Prop where
  | word {t : Token} : t.IsWord → PathTokens [t]
  | step {t c d : Token} {rest : List Token} : t.IsWord → c.IsSign ':' → d.IsSign ':' →
      PathTokens rest → PathTokens (t :: c :: d :: rest)

/-- Two tokens that are an opening bracket and the closing one that belongs to it. -/
def Encloses (opening closing : Token) : Prop :=
  ∃ pair ∈ [('(', ')'), ('[', ']'), ('\x7b', '\x7d')], opening.IsSign pair.1 ∧ closing.IsSign pair.2

/-- Tokens in which every bracket has its partner. -/
inductive TokenTrees : List Token → Prop where
  | nil : TokenTrees []
  | token {t : Token} {ts : List Token} : isBracket t = false → TokenTrees ts → TokenTrees (t :: ts)
  | group {opening closing : Token} {ts us : List Token} : Encloses opening closing → TokenTrees ts →
      TokenTrees us → TokenTrees (opening :: ts ++ closing :: us)

/-- Tokens between a bracket and its partner, with both. -/
def TokenGroup (ts : List Token) : Prop :=
  ∃ opening inside closing, ts = opening :: (inside ++ [closing]) ∧ Encloses opening closing ∧
    TokenTrees inside

theorem TokenTrees.append {ts us : List Token} (front : TokenTrees ts) (back : TokenTrees us) :
    TokenTrees (ts ++ us) := by
  induction front with
  | nil => exact back
  | token plain _ ih => exact ih.token plain
  | group encloses inside _ _ ih =>
    rw [List.append_assoc, List.cons_append]
    exact .group encloses inside ih

/-- Token trees do not begin with a bracket that closes. -/
theorem TokenTrees.not_closing {t : Token} {ts : List Token} (balanced : TokenTrees (t :: ts)) :
    ¬t.IsSign ')' := by
  intro closes
  cases balanced with
  | token plain _ =>
    simp [isBracket, closes.1, closes.2] at plain
  | group encloses _ _ =>
    obtain ⟨pair, member, opens, -⟩ := encloses
    have same : pair.1 = ')' := by simpa [closes.2] using opens.2.symm
    revert same
    have apart : ∀ pair ∈ [('(', ')'), ('[', ']'), ('\x7b', '\x7d')], pair.1 ≠ ')' := by decide
    exact apart pair member

/-- A word is a token tree of its own. -/
theorem TokenTrees.behind_word {t : Token} {ts : List Token} (balanced : TokenTrees (t :: ts))
    (word : t.IsWord) : TokenTrees ts := by
  cases balanced with
  | token _ later => exact later
  | group encloses _ _ =>
    obtain ⟨pair, -, opens, -⟩ := encloses
    cases opens.1.symm.trans word

theorem TokenGroup.tokenTrees {ts : List Token} (group : TokenGroup ts) : TokenTrees ts := by
  obtain ⟨opening, inside, closing, rfl, encloses, balanced⟩ := group
  exact .group encloses balanced .nil

open Rule

theorem spells_group {p : Rule} {n : Nat} (opening closing : Char)
    (pair : (opening, closing) ∈ [('(', ')'), ('[', ']'), ('\x7b', '\x7d')])
    (inner : Spells TokenTrees p) :
    Spells TokenGroup (sequence [signs [opening], many n p, signs [closing]]) := by
  have inside : Spells TokenTrees (many n p) :=
    inner.many .nil (fun a b front back => front.append back) n
  refine ((spells_sign opening).cons (inside.cons ((spells_sign closing).cons spells_nil))).mono ?_
  rintro ts ⟨_, _, rfl, ⟨t, rfl, first⟩, ts, _, rfl, balanced, _, _, rfl, ⟨u, rfl, last⟩, rfl⟩
  exact ⟨t, ts, u, by simp, ⟨_, pair, first, last⟩, balanced⟩

theorem spells_tokens (depth : Nat) :
    Spells TokenGroup (Form.rule depth .tokenGroup) ∧ Spells TokenTrees (Form.rule depth .tokenTree) := by
  induction depth with
  | zero => exact ⟨nofun, nofun⟩
  | succ depth ih =>
    constructor
    · refine spells_choice (L := TokenGroup) ?_
      simp only [List.forall_mem_cons, List.not_mem_nil, false_implies, implies_true, and_true]
      exact ⟨spells_group '(' ')' (by decide) ih.2, spells_group '[' ']' (by decide) ih.2,
        spells_group '\x7b' '\x7d' (by decide) ih.2⟩
    · refine spells_choice (L := TokenTrees) ?_
      simp only [List.forall_mem_cons, List.not_mem_nil, false_implies, implies_true, and_true]
      refine ⟨ih.1.mono fun ts group => group.tokenTrees, (spells_token _).mono ?_⟩
      rintro ts ⟨t, rfl, plain⟩
      exact .token (by simpa using plain) .nil

def DoubleColon (ts : List Token) : Prop := ∃ c d, ts = [c, d] ∧ c.IsSign ':' ∧ d.IsSign ':'

/-- A path from its first word on, behind a double colon or not. -/
def LedPath (ts : List Token) : Prop :=
  ∃ lead path, ts = lead ++ path ∧ (lead = [] ∨ DoubleColon lead) ∧ PathTokens path

theorem spells_plainPath (n : Nat) : Spells LedPath (plainPath n) := by
  have colons : Spells DoubleColon (sign "::") := spells_signs ':' ':'
  have step := colons.cons (spells_pathWord.cons spells_nil)
  have more : Spells (fun ts => ∀ t : Token, t.IsWord → PathTokens (t :: ts))
      (many n (sequence [sign "::", pathWord])) := by
    refine step.many (fun t word => .word word) ?_ n
    rintro _ ts ⟨_, _, rfl, ⟨c, d, rfl, first, second⟩, _, _, rfl, ⟨u, rfl, next⟩, rfl⟩ later t word
    exact .step word first second (later u next)
  refine (colons.optional.cons (spells_pathWord.cons (more.cons spells_nil))).mono ?_
  rintro ts ⟨lead, _, rfl, led, _, _, rfl, ⟨t, rfl, word⟩, rest, _, rfl, path, rfl⟩
  exact ⟨lead, t :: rest, by simp, led, path t word⟩

/-- What may stand behind the path of an attribute: nothing, a group of tokens, or a value. -/
def PathTail (ts : List Token) : Prop :=
  ts = [] ∨ TokenGroup ts ∨ ∃ t rest, ts = t :: rest ∧ t.IsSign '='

def AttributeTokens (ts : List Token) : Prop :=
  ∃ hash opening path tail closing, ts = hash :: opening :: (path ++ tail ++ [closing]) ∧
    hash.IsSign '#' ∧ opening.IsSign '[' ∧ LedPath path ∧ PathTail tail ∧ closing.IsSign ']'

theorem spells_attributeBody (depth : Nat) :
    Spells (fun ts => ∃ path tail, ts = path ++ tail ∧ LedPath path ∧ PathTail tail)
      (Form.rule depth .attributeBody) := by
  cases depth with
  | zero => exact nofun
  | succ depth =>
    have group := (spells_tokens depth).1
    refine spells_choice ?_
    simp only [List.forall_mem_cons, List.not_mem_nil, false_implies, implies_true, and_true]
    constructor
    · refine ((spells_keyword _).cons (group.cons spells_nil)).mono ?_
      rintro _ ⟨_, _, rfl, ⟨t, rfl, word, -⟩, tail, _, rfl, inside, rfl⟩
      exact ⟨[t], tail, by simp, ⟨[], [t], rfl, Or.inl rfl, .word word⟩, Or.inr (Or.inl inside)⟩
    · have value : Spells (fun ts => TokenGroup ts ∨ ∃ t rest, ts = t :: rest ∧ t.IsSign '=')
          (choice [Form.rule depth .tokenGroup,
            sequence [sign "=", Form.rule depth (.expression true)]]) := by
        refine spells_choice ?_
        simp only [List.forall_mem_cons, List.not_mem_nil, false_implies, implies_true, and_true]
        refine ⟨group.mono fun ts => Or.inl, fun ts forest rest read => Or.inr ?_⟩
        obtain ⟨front, mid, back, first, -, rfl⟩ := sequence_cons_eq_some.mp read
        obtain ⟨t, same, equals⟩ := spells_sign '=' _ _ _ first
        exact ⟨t, _, by rw [Tree.tokensOfAll_append, same]; rfl, equals⟩
      refine ((spells_plainPath depth).cons (value.optional.cons spells_nil)).mono ?_
      rintro _ ⟨path, _, rfl, led, tail, _, rfl, follows, rfl⟩
      exact ⟨path, tail, by simp, led, follows⟩

theorem spells_attribute (depth : Nat) : Spells AttributeTokens
    (sequence [sign "#", sign "[", Form.rule depth .attributeBody, sign "]"]) := by
  refine ((spells_sign '#').cons ((spells_sign '[').cons
    ((spells_attributeBody depth).cons ((spells_sign ']').cons spells_nil)))).mono ?_
  rintro _ ⟨_, _, rfl, ⟨hash, rfl, first⟩, _, _, rfl, ⟨opening, rfl, second⟩, _, _, rfl,
    ⟨path, tail, rfl, led, follows⟩, _, _, rfl, ⟨closing, rfl, last⟩, rfl⟩
  exact ⟨hash, opening, path, tail, closing, by simp, first, second, led, follows, last⟩

/-- The word for what is public, perhaps with a restriction in parentheses. -/
def VisibilityTokens (ts : List Token) : Prop :=
  ∃ shown rest, ts = shown :: rest ∧ shown.text = "pub".toList ∧
    (rest = [] ∨ ∃ opening more, rest = opening :: more ∧ opening.IsSign '(')

theorem spells_visibility (restriction : List Rule) : Spells VisibilityTokens
    (sequence [keyword "pub", optional (sequence (sign "(" :: restriction))]) := by
  have restricted : Spells (fun ts => ∃ opening more, ts = opening :: more ∧ opening.IsSign '(')
      (sequence (sign "(" :: restriction)) := by
    intro ts forest rest read
    obtain ⟨front, mid, back, first, -, rfl⟩ := sequence_cons_eq_some.mp read
    obtain ⟨t, same, opens⟩ := spells_sign '(' _ _ _ first
    exact ⟨t, _, by rw [Tree.tokensOfAll_append, same]; rfl, opens⟩
  refine ((spells_keyword "pub").cons (restricted.optional.cons spells_nil)).mono ?_
  rintro _ ⟨_, _, rfl, ⟨shown, rfl, -, text⟩, rest, _, rfl, follows, rfl⟩
  exact ⟨shown, rest, by simp, text, follows⟩

/-- The ampersand that a receiver is taken by, perhaps with a lifetime. -/
structure Borrow where
  ampersand : Token
  lifetime : Option Token
  isAmpersand : ampersand.IsSign '&'
  isLifetime : ∀ t ∈ lifetime, t.kind = .lifetime

def Borrow.tokens (b : Borrow) : List Token := b.ampersand :: b.lifetime.toList

/-- A receiver as it is written: perhaps an ampersand, perhaps `mut`, and a word for the instance. -/
structure WrittenReceiver where
  borrow : Option Borrow
  marker : Option Token
  instanceWord : Token
  isMarker : ∀ t ∈ marker, t.text = "mut".toList
  isInstance : instanceWord.text ∈ ["self", "Self"].map String.toList

def WrittenReceiver.tokens (w : WrittenReceiver) : List Token :=
  (w.borrow.map Borrow.tokens).getD [] ++ (w.marker.toList ++ [w.instanceWord])

theorem spells_lifetime : Spells (fun ts => ∃ t, ts = [t] ∧ t.kind = .lifetime) lifetime := by
  refine (spells_token _).mono fun ts ⟨t, same, taken⟩ => ⟨t, same, ?_⟩
  simpa using taken

theorem spells_borrow : Spells (fun ts => ∃ b : Borrow, ts = b.tokens)
    (sequence [sign "&", optional lifetime]) := by
  refine ((spells_sign '&').cons (spells_lifetime.optional.cons spells_nil)).mono ?_
  rintro _ ⟨_, _, rfl, ⟨ampersand, rfl, sign⟩, named, _, rfl, rfl | ⟨t, rfl, kind⟩, rfl⟩
  · exact ⟨⟨ampersand, none, sign, nofun⟩, rfl⟩
  · exact ⟨⟨ampersand, some t, sign, fun u same => Option.some.inj same ▸ kind⟩, rfl⟩

theorem spells_receiver : Spells (fun ts => ∃ w : WrittenReceiver, ts = w.tokens)
    (sequence [optional (sequence [sign "&", optional lifetime]), optional (keyword "mut"),
      keyword "self", notAhead (sign ":")]) := by
  have silent : Spells (· = []) (notAhead (sign ":")) := by
    intro ts forest rest read
    rw [notAhead] at read
    split at read <;> cases read
    rfl
  refine (spells_borrow.optional.cons ((spells_keyword "mut").optional.cons
    ((spells_keyword "self").cons (silent.cons spells_nil)))).mono ?_
  rintro _ ⟨lead, _, rfl, borrowed, mark, _, rfl, marked, _, _, rfl, ⟨self, rfl, -, word⟩, _, _, rfl,
    rfl, rfl⟩
  have isSelf : self.text ∈ ["self", "Self"].map String.toList := by
    rw [word]
    exact List.mem_cons_self
  have marker : ∃ marker : Option Token, mark = marker.toList ∧ ∀ t ∈ marker, t.text = "mut".toList := by
    rcases marked with rfl | ⟨t, rfl, -, text⟩
    · exact ⟨none, rfl, nofun⟩
    · exact ⟨some t, rfl, fun u same => Option.some.inj same ▸ text⟩
  rcases marker with ⟨marker, rfl, isMarker⟩
  rcases borrowed with rfl | ⟨b, rfl⟩
  · exact ⟨⟨none, marker, self, isMarker, isSelf⟩, rfl⟩
  · exact ⟨⟨some b, marker, self, isMarker, isSelf⟩, rfl⟩

end TestSkeleton.Rust
