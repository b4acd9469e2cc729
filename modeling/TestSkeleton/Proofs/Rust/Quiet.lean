import TestSkeleton.Proofs.Rust.Enclosure
import TestSkeleton.Proofs.Rust.Reading
import TestSkeleton.Proofs.Rust.Bare

/-! Trees without their comments, and a token replaced in them. -/

namespace TestSkeleton.Rust

open Text

namespace Tree

mutual

def quiet : Tree → Tree
  | leaf t => leaf t
  | comment text => comment text
  | node kind children => node kind (quietAll children)

/-- The trees without the comments among them and inside them. -/
def quietAll : List Tree → List Tree
  | [] => []
  | comment _ :: rest => quietAll rest
  | leaf t :: rest => leaf t :: quietAll rest
  | node kind children :: rest => quiet (node kind children) :: quietAll rest

end

mutual

theorem tokens_quiet : ∀ t : Tree, t.quiet.tokens = t.tokens
  | leaf _ => rfl
  | comment _ => rfl
  | node _ children => tokensOfAll_quietAll children

theorem tokensOfAll_quietAll : ∀ l : List Tree, tokensOfAll (quietAll l) = tokensOfAll l
  | [] => rfl
  | comment _ :: rest => tokensOfAll_quietAll rest
  | leaf t :: rest => congrArg (t :: ·) (tokensOfAll_quietAll rest)
  | node _ children :: rest =>
    congrArg₂ (· ++ ·) (tokensOfAll_quietAll children) (tokensOfAll_quietAll rest)

end

theorem quietAll_append (l m : List Tree) : quietAll (l ++ m) = quietAll l ++ quietAll m := by
  induction l with
  | nil => rfl
  | cons t l ih =>
    cases t with
    | comment text => exact ih
    | leaf token => exact congrArg (leaf token :: ·) ih
    | node kind children => exact congrArg (quiet (node kind children) :: ·) ih

theorem quietAll_comments {l : List Tree} (comments : ∀ t ∈ l, ∃ text, t = comment text) :
    quietAll l = [] := by
  induction l with
  | nil => rfl
  | cons t l ih =>
    obtain ⟨text, rfl⟩ := comments t List.mem_cons_self
    exact ih fun t member => comments t (List.mem_cons_of_mem _ member)

theorem find?_quietAll (k : Kind) (l : List Tree) :
    (quietAll l).find? (isKind k) = (l.find? (isKind k)).map quiet := by
  induction l with
  | nil => rfl
  | cons t l ih =>
    cases t with
    | comment text => exact ih
    | leaf token => exact ih
    | node kind children =>
      have same : (quiet (node kind children)).isKind k = (node kind children).isKind k := rfl
      rw [quietAll]
      cases found : (node kind children).isKind k with
      | true => rw [List.find?_cons_of_pos (same.trans found), List.find?_cons_of_pos found]; rfl
      | false =>
        rw [List.find?_cons_of_neg (by simp [same, found]), List.find?_cons_of_neg (by simp [found]), ih]

theorem isKind_quiet (k : Kind) (t : Tree) : t.quiet.isKind k = t.isKind k := by
  cases t <;> rfl

theorem mapIdx_filter_quietAll {α : Type} {p : Tree → Bool} {f : Nat → Tree → α}
    (chosen : ∀ t : Tree, p t.quiet = p t) (silent : ∀ text, p (comment text) = false)
    (same : ∀ i (t : Tree), f i t.quiet = f i t) (l : List Tree) :
    ((quietAll l).filter p).mapIdx f = (l.filter p).mapIdx f := by
  have step (t : Tree) (m rest : List Tree) (later : ∀ f : Nat → Tree → α,
      (∀ i (t : Tree), f i t.quiet = f i t) → (m.filter p).mapIdx f = (rest.filter p).mapIdx f)
      (f : Nat → Tree → α) (same : ∀ i (t : Tree), f i t.quiet = f i t) :
      ((t.quiet :: m).filter p).mapIdx f = ((t :: rest).filter p).mapIdx f := by
    rw [List.filter_cons, List.filter_cons, chosen]
    split
    · rw [List.mapIdx_cons, List.mapIdx_cons, same, later _ fun i => same (i + 1)]
    · exact later f same
  induction l generalizing f with
  | nil => rfl
  | cons t rest ih =>
    cases t with
    | comment text =>
      rw [quietAll, List.filter_cons_of_neg (by simp [silent])]
      exact ih same
    | leaf token => exact step (leaf token) _ rest (fun f same => ih same) f same
    | node kind children => exact step (node kind children) _ rest (fun f same => ih same) f same

theorem unseen_quiet : Unseen quiet where
  isKind := isKind_quiet
  text t := by rw [text, text, tokens_quiet]
  spelling t := by rw [tokens_quiet]
  child read same k t := by
    cases t with
    | leaf token => rfl
    | comment text => rfl
    | node kind children =>
      change read ((quietAll children).find? (isKind k)) = read (children.find? (isKind k))
      rw [find?_quietAll]
      cases children.find? (isKind k) with
      | none => rfl
      | some u => exact same u
  parameters read same t := by
    cases t with
    | leaf token => rfl
    | comment text => rfl
    | node kind children =>
      refine mapIdx_filter_quietAll (fun c => ?_) (fun text => rfl) same children
      rw [isKind_quiet, isKind_quiet]

end Tree

section Walk

variable (policy : Policy) (file : Text)

mutual

/-- What is collected from a tree does not depend on its comments. -/
theorem collect_quiet (scope : List Text) (owner : Option Text) (attributes : List Text) :
    ∀ t : Tree, collect policy file scope owner attributes t.quiet = collect policy file scope owner attributes t
  | .leaf _ => rfl
  | .comment _ => rfl
  | .node kind children => by
    have name := Tree.unseen_quiet.nameOf (.node kind children)
    have shown := Tree.unseen_quiet.isPublic (.node kind children)
    have body := fun scope owner => collectBody_quietAll scope owner children
    rw [Tree.quiet] at name shown ⊢
    cases kind
    case function =>
      have found := Tree.unseen_quiet.functionOf file scope owner (.node .function children)
      rw [Tree.quiet] at found
      rw [collect, collect, name, shown, found]
    case implementation =>
      have type := Tree.unseen_quiet.childText .selfType (.node .implementation children)
      rw [Tree.quiet] at type
      rw [collect, collect, type, body]
    case module => rw [collect, collect, name, shown, body]
    all_goals rfl

theorem collectBody_quietAll (scope : List Text) (owner : Option Text) : ∀ l : List Tree,
    collectBody policy file scope owner (Tree.quietAll l) = collectBody policy file scope owner l
  | [] => rfl
  | .comment _ :: rest => collectBody_quietAll scope owner rest
  | .leaf _ :: rest => collectBody_quietAll scope owner rest
  | .node kind children :: rest => by
    have inside := collectAll_quietAll scope owner [] children
    have later := collectBody_quietAll scope owner rest
    cases kind <;> first | exact inside | exact later

theorem collectAll_quietAll (scope : List Text) (owner : Option Text) (attributes : List Text) :
    ∀ l : List Tree, collectAll policy file scope owner attributes (Tree.quietAll l) =
      collectAll policy file scope owner attributes l
  | [] => rfl
  | .comment _ :: rest => collectAll_quietAll scope owner attributes rest
  | .leaf _ :: rest => collectAll_quietAll scope owner [] rest
  | .node kind children :: rest => by
    have here := collect_quiet scope owner attributes (.node kind children)
    have text := Tree.unseen_quiet.text (.node kind children)
    rw [Tree.quietAll]
    rw [Tree.quiet] at here text ⊢
    rw [collectAll, collectAll, here, text, collectAll_quietAll scope owner _ rest]

end

end Walk

namespace Tree

mutual

/-- The tree with another token in the place of the one with that number. -/
def replace (u : Token) : Nat → Tree → Tree
  | 0, leaf _ => leaf u
  | _ + 1, leaf t => leaf t
  | _, comment text => comment text
  | n, node kind children => node kind (replaceAll u n children)

def replaceAll (u : Token) : Nat → List Tree → List Tree
  | _, [] => []
  | n, t :: rest =>
    if n < t.tokens.length then t.replace u n :: rest else t :: replaceAll u (n - t.tokens.length) rest

end

variable {u : Token}

theorem replaceAll_left {n : Nat} {l : List Tree} (inside : n < (tokensOfAll l).length) (m : List Tree) :
    replaceAll u n (l ++ m) = replaceAll u n l ++ m := by
  induction l generalizing n with
  | nil => cases inside
  | cons t l ih =>
    rw [List.cons_append, replaceAll, replaceAll]
    split
    · rfl
    · rename_i behind
      rw [tokensOfAll, List.length_append] at inside
      rw [ih (by omega), List.cons_append]

theorem replaceAll_right (l : List Tree) (n : Nat) (m : List Tree) :
    replaceAll u ((tokensOfAll l).length + n) (l ++ m) = l ++ replaceAll u n m := by
  induction l with
  | nil => rw [tokensOfAll, List.length_nil, Nat.zero_add, List.nil_append, List.nil_append]
  | cons t l ih =>
    rw [List.cons_append, replaceAll, tokensOfAll, List.length_append, if_neg (by omega),
      show t.tokens.length + (tokensOfAll l).length + n - t.tokens.length = (tokensOfAll l).length + n by omega,
      ih, List.cons_append]

theorem replaceAll_node {n : Nat} (kind : Kind) {children : List Tree}
    (inside : n < (tokensOfAll children).length) (rest : List Tree) :
    replaceAll u n (node kind children :: rest) = node kind (replaceAll u n children) :: rest := by
  rw [replaceAll, if_pos (show n < (node kind children).tokens.length from inside)]
  cases n <;> rfl

mutual

theorem tokens_replace (n : Nat) : ∀ t : Tree, (t.replace u n).tokens = t.tokens.set n u
  | leaf t => by cases n <;> rfl
  | comment _ => by cases n <;> rfl
  | node kind children => by
    have inside := tokensOfAll_replaceAll n children
    cases n <;> exact inside

theorem tokensOfAll_replaceAll (n : Nat) :
    ∀ l : List Tree, tokensOfAll (replaceAll u n l) = (tokensOfAll l).set n u
  | [] => by cases n <;> rfl
  | t :: rest => by
    rw [replaceAll]
    split
    · rename_i inside
      rw [tokensOfAll, tokensOfAll, tokens_replace n t, List.set_append_left _ _ inside]
    · rename_i behind
      rw [tokensOfAll, tokensOfAll, tokensOfAll_replaceAll _ rest,
        List.set_append_right _ _ (Nat.le_of_not_lt behind)]

end

end Tree

/-- The tokens before the trees that are inside nodes. -/
def tokensBefore : List Enclosure → List Token
  | [] => []
  | e :: around => Tree.tokensOfAll e.before ++ tokensBefore around

/-- A token is replaced inside nodes where it stands. -/
theorem replaceAll_enclose {u : Token} {n : Nat} (around : List Enclosure) {inner : List Tree}
    (inside : n < (Tree.tokensOfAll inner).length) :
    Tree.replaceAll u ((tokensBefore around).length + n) (enclose around inner) =
      enclose around (Tree.replaceAll u n inner) := by
  have longer (around : List Enclosure) :
      (tokensBefore around).length + n < (Tree.tokensOfAll (enclose around inner)).length := by
    induction around with
    | nil => simpa [tokensBefore, enclose] using inside
    | cons e around ih =>
      rw [enclose, Tree.tokensOfAll_append, List.length_append, Tree.tokensOfAll, List.length_append,
        Tree.tokens, tokensBefore, List.length_append]
      omega
  induction around with
  | nil => rw [tokensBefore, List.length_nil, Nat.zero_add]; rfl
  | cons e around ih =>
    rw [tokensBefore, List.length_append, Nat.add_assoc, enclose, Tree.replaceAll_right,
      Tree.replaceAll_node _ (longer around), ih]
    rfl

end TestSkeleton.Rust
