import TestSkeleton.Proofs.Rust.Quiet

/-! Sources that differ in the gap before one token.

A rule looks at a gap in two places only: signs of several characters have none inside, and comments
become trees of their own. So where the gap does not part two signs that could be one, the same trees are
read, with the token replaced. -/

namespace TestSkeleton.Rust

open Text

/-- The pairs of characters that follow each other in a sign of several characters. -/
def signPairs : List Text :=
  ["..", ".=", "<<", "<=", ">>", ">=", "==", "!=", "&&", "||", "+=", "-=", "*=", "/=", "%=", "&=", "|=",
    "^=", "::", "->", "=>"].map String.toList

/-- Without a gap between them the tokens are, or begin, a sign of several characters. -/
def Token.Joins (u t : Token) : Prop :=
  u.kind = .sign ∧ t.kind = .sign ∧ u.text ++ t.text ∈ signPairs

instance (u t : Token) : Decidable (u.Joins t) := inferInstanceAs (Decidable (_ ∧ _ ∧ _))

/-- Another gap before the token behind the front parts no two characters of a sign, and joins none. -/
def Unparted (front : List Token) (t t' : Token) : Prop :=
  t'.gap.isEmpty = t.gap.isEmpty ∨ ∀ u ∈ front.getLast?, ¬u.Joins t

instance (front : List Token) (t t' : Token) : Decidable (Unparted front t t') :=
  inferInstanceAs (Decidable (_ ∨ _))

theorem Unparted.behind {front rest : List Token} {t t' : Token} (unparted : Unparted (front ++ rest) t t') :
    Unparted rest t t' := by
  refine unparted.imp_right fun apart u last => apart u ?_
  have last : rest.getLast? = some u := last
  rw [Option.mem_def, List.getLast?_append, last, Option.some_or]

namespace Rule

/-- What a rule reads in front of a token and behind it, with the token and with another one in its
place. -/
inductive Carries (t t' : Token) (front back : List Token) :
    Option (List Tree × List Token) → Option (List Tree × List Token) → Prop
  | refused : Carries t t' front back none none
  | before {forest forest' : List Tree} {rest : List Token} (tokens : front = Tree.tokensOfAll forest ++ rest)
      (same : Tree.quietAll forest' = Tree.quietAll forest) :
      Carries t t' front back (some (forest, rest ++ t :: back)) (some (forest', rest ++ t' :: back))
  | behind {forest forest' : List Tree} (more : List Token) {rest : List Token}
      (tokens : Tree.tokensOfAll forest = front ++ t :: more)
      (replaced : Tree.quietAll forest' = Tree.replaceAll t' front.length (Tree.quietAll forest)) :
      Carries t t' front back (some (forest, rest)) (some (forest', rest))

/-- The rule reads the same with another token in the place of one, unless the gap before it parts or
joins signs. -/
def Keeps (t t' : Token) (r : Rule) : Prop :=
  ∀ front back, Unparted front t t' →
    Carries t t' front back (r (front ++ t :: back)) (r (front ++ t' :: back))

section

variable {t t' : Token} {r s : Rule} {rules : List Rule}

theorem keeps_none : Keeps t t' fun _ => none := fun _ _ _ => .refused

theorem keeps_empty : Keeps t t' empty := fun _ _ _ => .before rfl rfl

theorem keeps_token {p : Token → Bool} (same : p t' = p t) : Keeps t t' (token p) := by
  intro front back _
  cases front with
  | nil =>
    rw [List.nil_append, List.nil_append, token, token, same]
    split
    · exact .behind [] rfl rfl
    · exact .refused
  | cons u front =>
    rw [List.cons_append, List.cons_append, token, token]
    split
    · exact .before rfl rfl
    · exact .refused

theorem length_lt_tokens {front more : List Token} {forest : List Tree}
    (tokens : Tree.tokensOfAll forest = front ++ t :: more) :
    front.length < (Tree.tokensOfAll (Tree.quietAll forest)).length := by
  rw [Tree.tokensOfAll_quietAll, tokens, List.length_append, List.length_cons]
  omega

theorem Keeps.andThen (first : Keeps t t' r) (second : Keeps t t' s) : Keeps t t' (andThen r s) := by
  intro front back unparted
  have one := first front back unparted
  rw [Rule.andThen, Rule.andThen]
  generalize r (front ++ t :: back) = x at one ⊢
  generalize r (front ++ t' :: back) = y at one ⊢
  cases one with
  | refused => exact .refused
  | @before forest forest' rest tokens same =>
    subst tokens
    dsimp only
    have two := second rest back unparted.behind
    generalize s (rest ++ t :: back) = x at two ⊢
    generalize s (rest ++ t' :: back) = y at two ⊢
    cases two with
    | refused => exact .refused
    | @before more more' later tokens' same' =>
      subst tokens'
      refine .before ?_ ?_
      · rw [Tree.tokensOfAll_append, List.append_assoc]
      · rw [Tree.quietAll_append, Tree.quietAll_append, same, same']
    | @behind more more' later _ tokens' replaced =>
      refine .behind later ?_ ?_
      · rw [Tree.tokensOfAll_append, tokens', List.append_assoc]
      · rw [Tree.quietAll_append, Tree.quietAll_append, same, replaced, List.length_append,
          ← Tree.tokensOfAll_quietAll forest, Tree.replaceAll_right]
  | @behind forest forest' more rest tokens replaced =>
    dsimp only
    cases s rest with
    | none => exact .refused
    | some read =>
      obtain ⟨later, behind⟩ := read
      refine .behind (more ++ Tree.tokensOfAll later) ?_ ?_
      · rw [Tree.tokensOfAll_append, tokens, List.append_assoc, List.cons_append]
      · rw [Tree.quietAll_append, Tree.quietAll_append, replaced,
          Tree.replaceAll_left (length_lt_tokens tokens)]

theorem Keeps.orElse (first : Keeps t t' r) (second : Keeps t t' s) : Keeps t t' (orElse r s) := by
  intro front back unparted
  have one := first front back unparted
  rw [Rule.orElse, Rule.orElse]
  generalize r (front ++ t :: back) = x at one ⊢
  generalize r (front ++ t' :: back) = y at one ⊢
  cases one with
  | refused => exact second front back unparted
  | before tokens same => exact .before tokens same
  | behind more tokens replaced => exact .behind more tokens replaced

theorem keeps_sequence (all : ∀ r ∈ rules, Keeps t t' r) : Keeps t t' (sequence rules) := by
  induction rules with
  | nil => exact keeps_empty
  | cons r rules ih =>
    exact (all r List.mem_cons_self).andThen (ih fun r member => all r (List.mem_cons_of_mem _ member))

theorem keeps_choice (all : ∀ r ∈ rules, Keeps t t' r) : Keeps t t' (choice rules) := by
  induction rules with
  | nil => exact keeps_none
  | cons r rules ih =>
    exact (all r List.mem_cons_self).orElse (ih fun r member => all r (List.mem_cons_of_mem _ member))

theorem Keeps.optional (keeps : Keeps t t' r) : Keeps t t' (optional r) := keeps.orElse keeps_empty

theorem Keeps.many (keeps : Keeps t t' r) (n : Nat) : Keeps t t' (many n r) := by
  induction n with
  | zero => exact keeps_empty
  | succ n ih => exact (keeps.andThen ih).orElse keeps_empty

theorem forall_keeps_cons (one : Keeps t t' r) (others : ∀ q ∈ rules, Keeps t t' q) :
    ∀ q ∈ r :: rules, Keeps t t' q :=
  List.forall_mem_cons.mpr ⟨one, others⟩

theorem Keeps.separated {separator item : Rule} (between : Keeps t t' separator) (keeps : Keeps t t' item)
    (n : Nat) : Keeps t t' (separated n separator item) := by
  refine (keeps_sequence ?_).optional
  exact forall_keeps_cons keeps (forall_keeps_cons ((between.andThen keeps).many n)
    (forall_keeps_cons between.optional (List.forall_mem_nil _)))

theorem Keeps.isSome_eq {front back : List Token} (keeps : Keeps t t' r) (unparted : Unparted front t t') :
    (r (front ++ t' :: back)).isSome = (r (front ++ t :: back)).isSome := by
  have read := keeps front back unparted
  generalize r (front ++ t :: back) = x at read ⊢
  generalize r (front ++ t' :: back) = y at read ⊢
  cases read <;> rfl

theorem Keeps.ahead (keeps : Keeps t t' r) : Keeps t t' (ahead r) := by
  intro front back unparted
  rw [Rule.ahead, Rule.ahead, keeps.isSome_eq unparted]
  split
  · exact keeps_empty front back unparted
  · exact .refused

theorem Keeps.notAhead (keeps : Keeps t t' r) : Keeps t t' (notAhead r) := by
  intro front back unparted
  rw [Rule.notAhead, Rule.notAhead, keeps.isSome_eq unparted]
  split
  · exact .refused
  · exact keeps_empty front back unparted

theorem Keeps.node (keeps : Keeps t t' r) (kind : Kind) : Keeps t t' (node kind r) := by
  intro front back unparted
  have read := keeps front back unparted
  rw [Rule.node, Rule.node]
  generalize r (front ++ t :: back) = x at read ⊢
  generalize r (front ++ t' :: back) = y at read ⊢
  have whole (forest : List Tree) : Tree.tokensOfAll [.node kind forest] = Tree.tokensOfAll forest :=
    List.append_nil _
  cases read with
  | refused => exact .refused
  | @before forest forest' rest tokens same =>
    refine .before ?_ ?_
    · rw [whole, tokens]
    · exact congrArg (fun inside => [Tree.node kind inside]) same
  | @behind forest forest' more rest tokens replaced =>
    refine .behind more ?_ ?_
    · rw [whole, tokens]
    · have inside := Tree.replaceAll_node (u := t') kind (length_lt_tokens tokens) []
      exact (congrArg (fun inside => [Tree.node kind inside]) replaced).trans inside.symm

theorem Keeps.withComments (keeps : Keeps t t' r) : Keeps t t' (withComments r) := by
  intro front back unparted
  have read := keeps front back unparted
  obtain ⟨comments, silent, whole⟩ := withComments_eq r (front ++ t :: back)
  obtain ⟨comments', silent', whole'⟩ := withComments_eq r (front ++ t' :: back)
  rw [whole, whole']
  have tokens (forest : List Tree) : Tree.tokensOfAll (comments ++ forest) = Tree.tokensOfAll forest := by
    rw [Tree.tokensOfAll_append, Tree.tokensOfAll_comments silent, List.nil_append]
  have quiet (forest : List Tree) : Tree.quietAll (comments ++ forest) = Tree.quietAll forest := by
    rw [Tree.quietAll_append, Tree.quietAll_comments silent, List.nil_append]
  have quiet' (forest : List Tree) : Tree.quietAll (comments' ++ forest) = Tree.quietAll forest := by
    rw [Tree.quietAll_append, Tree.quietAll_comments silent', List.nil_append]
  generalize r (front ++ t :: back) = x at read ⊢
  generalize r (front ++ t' :: back) = y at read ⊢
  cases read with
  | refused => exact .refused
  | before whole same => exact .before (whole.trans (by rw [tokens])) (by rw [quiet, quiet', same])
  | behind more whole replaced => exact .behind more ((tokens _).trans whole) (by rw [quiet, quiet', replaced])

theorem keeps_ite (c : Bool) {yes no : Rule} (one : Keeps t t' yes) (two : Keeps t t' no) :
    Keeps t t' (if c then yes else no) := by
  split
  · exact one
  · exact two

/-- All neighbours in the text may follow each other in a sign. -/
def isChained : Text → Bool
  | c :: d :: rest => signPairs.contains [c, d] && isChained (d :: rest)
  | _ => true

theorem signs_cons_eq_none {c : Char} {rest : Text} {ts : List Token} {u : Token}
    (other : ¬(u.kind = .sign ∧ u.text = [c])) : signs (c :: rest) (u :: ts) = none := by
  have refused : ¬(u.kind == .sign && u.text == [c]) = true := by simpa using other
  rw [signs, Rule.andThen, token, if_neg refused]

theorem signs_cons_eq {c : Char} {rest : Text} {ts : List Token} {u : Token}
    (sign : u.kind = .sign ∧ u.text = [c]) : signs (c :: rest) (u :: ts) =
      (if rest.isEmpty || ts.head?.any (·.gap.isEmpty) then signs rest ts else none).map
        fun (forest, rest) => (.leaf u :: forest, rest) := by
  have taken : (u.kind == .sign && u.text == [c]) = true := by simpa using sign
  rw [signs, Rule.andThen, token, if_pos taken]
  rfl

/-- One more token is read in front. -/
theorem Carries.cons {front back : List Token} {x y : Option (List Tree × List Token)}
    (carries : Carries t t' front back x y) (u : Token) : Carries t t' (u :: front) back
      (x.map fun (forest, rest) => (.leaf u :: forest, rest))
      (y.map fun (forest, rest) => (.leaf u :: forest, rest)) := by
  cases carries with
  | refused => exact .refused
  | before tokens same => exact .before (congrArg (u :: ·) tokens) (congrArg (Tree.leaf u :: ·) same)
  | behind more tokens replaced =>
    exact .behind more (congrArg (u :: ·) tokens) (congrArg (Tree.leaf u :: ·) replaced)

/-- Behind a sign's first character the others are read the same. -/
theorem keeps_further (kind : t'.kind = t.kind) (text : t'.text = t.text) {c : Char} {rest : Text}
    (chained : isChained (c :: rest) = true) {u : Token} (sign : u.kind = .sign ∧ u.text = [c])
    (keeps : Keeps t t' (signs rest)) {front back : List Token} (unparted : Unparted (u :: front) t t') :
    Carries t t' front back
      (if rest.isEmpty || (front ++ t :: back).head?.any (·.gap.isEmpty) then signs rest (front ++ t :: back)
        else none)
      (if rest.isEmpty || (front ++ t' :: back).head?.any (·.gap.isEmpty) then signs rest (front ++ t' :: back)
        else none) := by
  have beyond : Unparted front t t' := Unparted.behind (show Unparted ([u] ++ front) t t' from unparted)
  have further := keeps front back beyond
  cases front with
  | cons v front =>
    rw [List.cons_append, List.cons_append, List.head?_cons, List.head?_cons]
    split
    · exact further
    · exact .refused
  | nil =>
    rw [List.nil_append, List.nil_append, List.head?_cons, List.head?_cons, Option.any_some, Option.any_some]
    rcases unparted with same | apart
    · rw [same]
      split
      · exact further
      · exact .refused
    · cases rest with
      | nil => exact further
      | cons d rest =>
        -- the pair stands in a sign, so the token is not its second character
        have other : ¬(t.kind = .sign ∧ t.text = [d]) := by
          rintro ⟨isSign, second⟩
          refine apart u rfl ⟨sign.1, isSign, ?_⟩
          rw [sign.2, second]
          exact List.contains_iff_mem.mp (Bool.and_eq_true_iff.mp chained).1
        rw [signs_cons_eq_none other, signs_cons_eq_none (by rwa [kind, text]), ite_self, ite_self]
        exact .refused

theorem keeps_signs (kind : t'.kind = t.kind) (text : t'.text = t.text) {word : Text}
    (chained : isChained word = true) : Keeps t t' (signs word) := by
  induction word with
  | nil => exact keeps_empty
  | cons c rest ih =>
    intro front back unparted
    have later : isChained rest = true := by
      cases rest with
      | nil => rfl
      | cons d rest => exact (Bool.and_eq_true_iff.mp chained).2
    cases front with
    | nil =>
      by_cases sign : t.kind = .sign ∧ t.text = [c]
      · rw [List.nil_append, List.nil_append, signs_cons_eq sign, signs_cons_eq (by rwa [kind, text])]
        split
        · cases signs rest back with
          | none => exact .refused
          | some read => exact .behind (Tree.tokensOfAll read.1) rfl rfl
        · exact .refused
      · rw [List.nil_append, List.nil_append, signs_cons_eq_none sign,
          signs_cons_eq_none (by rwa [kind, text])]
        exact .refused
    | cons u front =>
      by_cases sign : u.kind = .sign ∧ u.text = [c]
      · rw [List.cons_append, List.cons_append, signs_cons_eq sign, signs_cons_eq sign]
        exact (keeps_further kind text chained sign (ih later) unparted).cons u
      · rw [List.cons_append, List.cons_append, signs_cons_eq_none sign, signs_cons_eq_none sign]
        exact .refused

theorem keeps_sign (kind : t'.kind = t.kind) (text : t'.text = t.text) (word : String)
    (chained : isChained word.toList = true) : Keeps t t' (sign word) :=
  keeps_signs kind text chained

theorem keeps_keyword (kind : t'.kind = t.kind) (text : t'.text = t.text) (word : String) :
    Keeps t t' (keyword word) :=
  keeps_token (by rw [kind, text])

theorem keeps_identifier (kind : t'.kind = t.kind) (text : t'.text = t.text) : Keeps t t' identifier :=
  keeps_token (by rw [kind, text])

theorem keeps_binarySign (kind : t'.kind = t.kind) (text : t'.text = t.text) : Keeps t t' binarySign := by
  refine keeps_choice fun r member => ?_
  obtain ⟨word, listed, rfl⟩ := List.mem_map.mp member
  have chained : ∀ word ∈ ["<<=", ">>=", "==", "!=", "<=", ">=", "&&", "||", "<<", ">>", "+=", "-=", "*=",
      "/=", "%=", "&=", "|=", "^=", "+", "-", "*", "/", "%", "&", "|", "^", "<", ">", "="],
      isChained word.toList = true := by decide
  exact keeps_sign kind text word (chained word listed)

end

end Rule

open Rule

variable {t t' : Token}

/-- Every form is read the same when the forms one level further down are. -/
theorem keeps_grammar (kind : t'.kind = t.kind) (text : t'.text = t.text) {depth : Nat}
    (inner : ∀ form, Keeps t t' (Form.rule depth form)) (form : Form) :
    Keeps t t' (grammar (Form.rule depth) depth form) := by
  -- a form is put together from the combinators, so the lemma of the outermost one applies at every step
  cases form
  all_goals
    simp only [grammar, modifier, plainPath, pathWord, lifetime, number, quotedText, literalToken,
      signedLiteral, comma, rangeSign, continuation]
    repeat' first
      | with_reducible first
        | exact inner _
        | exact keeps_keyword kind text _
        | exact List.forall_mem_nil _
        | refine forall_keeps_cons ?_ ?_
        | apply keeps_sequence
        | apply keeps_choice
        | apply Keeps.optional
        | apply Keeps.many
        | apply Keeps.separated
        | apply Keeps.node
        | exact keeps_binarySign kind text
        | exact keeps_identifier kind text
        | apply Keeps.ahead
        | apply Keeps.notAhead
        | exact keeps_empty
        | exact keeps_none
        | apply Keeps.withComments
        | apply keeps_ite
      | exact keeps_sign kind text _ (by decide)
      | exact keeps_token (by simp only [isBracket, kind, text])

theorem keeps_rule (kind : t'.kind = t.kind) (text : t'.text = t.text) (depth : Nat) (form : Form) :
    Keeps t t' (Form.rule depth form) := by
  induction depth generalizing form with
  | zero => exact keeps_none
  | succ depth ih => exact keeps_grammar kind text ih form

/-- A source is read to the same trees when another gap stands before a token, unless the gap parts or
joins signs. -/
theorem parse_regapped (kind : t'.kind = t.kind) (text : t'.text = t.text) {source source' : Text}
    {front back : List Token} (lexed : (lex (dropPreamble source)).tokens = front ++ t :: back)
    (lexed' : (lex (dropPreamble source')).tokens = front ++ t' :: back)
    (whole : (lex (dropPreamble source')).rest = []) (unparted : Unparted front t t') {trees : List Tree}
    (parsed : parse source = .ok trees) : ∃ trees', parse source' = .ok trees' ∧
      Tree.quietAll trees' = Tree.replaceAll t' front.length (Tree.quietAll trees) := by
  have read := keeps_rule kind text (depthFor (front ++ t :: back).length) .items front back unparted
  have found : readItems (front ++ t :: back) = (trees, []) := by
    simp only [parse, lexed] at parsed
    split at parsed
    · split at parsed
      · rename_i same
        cases parsed
        exact same
      · cases parsed
    · cases parsed
  have same : (front ++ t' :: back).length = (front ++ t :: back).length := by
    rw [List.length_append, List.length_append, List.length_cons, List.length_cons]
  have found' : ∃ trees', readItems (front ++ t' :: back) = (trees', []) ∧
      Tree.quietAll trees' = Tree.replaceAll t' front.length (Tree.quietAll trees) := by
    rw [readItems] at found ⊢
    rw [same]
    generalize Form.rule (depthFor (front ++ t :: back).length) .items (front ++ t :: back) = x
      at read found
    generalize Form.rule (depthFor (front ++ t :: back).length) .items (front ++ t' :: back) = y at read ⊢
    cases read with
    | refused => simp at found
    | before tokens same => simp at found
    | behind more tokens replaced =>
      cases found
      exact ⟨_, rfl, replaced⟩
  obtain ⟨trees', found', replaced⟩ := found'
  refine ⟨trees', ?_, replaced⟩
  simp only [parse, lexed', whole, List.isEmpty_nil, if_true, found']

end TestSkeleton.Rust
