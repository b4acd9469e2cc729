import TestSkeleton.Proofs.Rust.Site

/-! Trees that are told apart by nothing that is read.

The gap in front of a tree belongs to what stands before it: nothing that is collected from the tree depends
on it. -/

namespace TestSkeleton.Rust

open Text

/-! Changes of a tree that are not seen by what is read off it. -/

/-- What is read off a tree and its children does not see the change. -/
structure Unseen (change : Tree → Tree) : Prop where
  isKind : ∀ k t, (change t).isKind k = t.isKind k
  text : ∀ t, (change t).text = t.text
  spelling : ∀ t, (change t).tokens.map (fun u => (u.kind, u.text)) = t.tokens.map fun u => (u.kind, u.text)
  child : ∀ {α : Type} (read : Option Tree → α), (∀ t, read (some (change t)) = read (some t)) →
    ∀ k t, read ((change t).childOf? k) = read (t.childOf? k)
  parameters : ∀ {α : Type} (read : Nat → Tree → α), (∀ i t, read i (change t) = read i t) → ∀ t,
    ((change t).children.filter fun c => c.isKind .parameter || c.isKind .selfParameter).mapIdx read =
      (t.children.filter fun c => c.isKind .parameter || c.isKind .selfParameter).mapIdx read

namespace Unseen

variable {change : Tree → Tree} (unseen : Unseen change)

include unseen

theorem childText (k : Kind) (t : Tree) :
    ((change t).childOf? k).map Tree.text = (t.childOf? k).map Tree.text :=
  unseen.child (Option.map Tree.text) (fun u => congrArg some (unseen.text u)) k t

theorem nameOf (t : Tree) : nameOf (change t) = nameOf t := by
  rw [Rust.nameOf, Rust.nameOf, unseen.childText]

theorem isPublic (t : Tree) : isPublic (change t) = isPublic t := by
  refine unseen.child (Option.any _) (fun u => ?_) .visibility t
  rw [Option.any_some, Option.any_some, unseen.text]

theorem hasModifier (word : Text) (t : Tree) : hasModifier word (change t) = hasModifier word t := by
  refine unseen.child (Option.any _) (fun u => ?_) .modifiers t
  have spelled := congrArg (List.any · fun entry => entry.2 == word) (unseen.spelling u)
  rw [List.any_map, List.any_map] at spelled
  exact spelled

theorem plainName? (t : Tree) : plainName? (change t) = plainName? t := by
  have spelled := unseen.spelling t
  rw [Rust.plainName?, Rust.plainName?]
  generalize (change t).tokens = us at spelled ⊢
  generalize t.tokens = ts at spelled ⊢
  rcases us with _ | ⟨u, _ | ⟨v, us⟩⟩ <;> rcases ts with _ | ⟨w, _ | ⟨x, ts⟩⟩
  case cons.nil.cons.nil =>
    simp only [List.map_cons, List.map_nil, List.cons.injEq, Prod.mk.injEq, and_true] at spelled
    simp only [spelled]
  all_goals first | rfl | simp at spelled

theorem parameterOf (place : Nat) (t : Tree) : parameterOf place (change t) = parameterOf place t := by
  have pattern : ((change t).childOf? .pattern).bind Rust.plainName? =
      (t.childOf? .pattern).bind Rust.plainName? :=
    unseen.child (Option.bind · Rust.plainName?) unseen.plainName? .pattern t
  rw [Rust.parameterOf, Rust.parameterOf, unseen.isKind, unseen.text, unseen.childText, pattern]

theorem parametersOf (t : Tree) : parametersOf (change t) = parametersOf t := by
  refine unseen.child (fun parameters => (((parameters.map Tree.children).getD []).filter fun c =>
    c.isKind .parameter || c.isKind .selfParameter).mapIdx Rust.parameterOf) (fun u => ?_) .parameters t
  exact unseen.parameters Rust.parameterOf unseen.parameterOf u

theorem functionOf (file : Text) (scope : List Text) (owner : Option Text) (t : Tree) :
    functionOf file scope owner (change t) = functionOf file scope owner t := by
  rw [Rust.functionOf, Rust.functionOf, unseen.nameOf, unseen.parametersOf, unseen.childText,
    unseen.hasModifier]

end Unseen

/-! A tree without the gap in front of it.

The gap belongs to what stands before the tree: nothing that is collected from the tree depends on it. -/

def ungapped : List Token → List Token
  | [] => []
  | t :: rest => { t with gap := [] } :: rest

theorem textOfTokens_ungapped (ts : List Token) : textOfTokens (ungapped ts) = textOfTokens ts := by
  cases ts <;> rfl

namespace Tree

mutual

def decideEq : (t u : Tree) → Decidable (t = u)
  | leaf a, leaf b => decidable_of_iff (a = b) (by rw [leaf.injEq])
  | comment a, comment b => decidable_of_iff (a = b) (by rw [comment.injEq])
  | node k l, node k' m =>
    have := decideEqAll l m
    decidable_of_iff (k = k' ∧ l = m) (by rw [node.injEq])
  | leaf _, comment _ | leaf _, node _ _ | comment _, leaf _ | comment _, node _ _ | node _ _, leaf _
  | node _ _, comment _ => isFalse nofun

def decideEqAll : (l m : List Tree) → Decidable (l = m)
  | [], [] => isTrue rfl
  | t :: l, u :: m =>
    have := decideEq t u
    have := decideEqAll l m
    decidable_of_iff (t = u ∧ l = m) (by rw [List.cons.injEq])
  | [], _ :: _ | _ :: _, [] => isFalse nofun

end

instance : DecidableEq Tree := decideEq

mutual

def bare : Tree → Tree
  | leaf t => leaf { t with gap := [] }
  | comment text => comment text
  | node kind children => node kind (bareAll children)

/-- The trees without the gap in front of their first token. -/
def bareAll : List Tree → List Tree
  | [] => []
  | t :: rest => if t.tokens.isEmpty then t :: bareAll rest else t.bare :: rest

end

mutual

theorem tokens_bare : ∀ t : Tree, t.bare.tokens = ungapped t.tokens
  | leaf _ => rfl
  | comment _ => rfl
  | node _ children => tokensOfAll_bareAll children

theorem tokensOfAll_bareAll : ∀ l : List Tree, tokensOfAll (bareAll l) = ungapped (tokensOfAll l)
  | [] => rfl
  | t :: rest => by
    rw [bareAll]
    cases whole : t.tokens with
    | nil => rw [List.isEmpty_nil, if_pos rfl, tokensOfAll, tokensOfAll, whole, tokensOfAll_bareAll rest]; rfl
    | cons u us => rw [List.isEmpty_cons, if_neg nofun, tokensOfAll, tokensOfAll, tokens_bare t, whole]; rfl

end

theorem text_bare (t : Tree) : t.bare.text = t.text := by
  rw [text, text, tokens_bare, textOfTokens_ungapped]

theorem isKind_bare (k : Kind) (t : Tree) : t.bare.isKind k = t.isKind k := by
  cases t <;> rfl

theorem find?_bareAll (k : Kind) (l : List Tree) : (bareAll l).find? (isKind k) = l.find? (isKind k) ∨
    (bareAll l).find? (isKind k) = (l.find? (isKind k)).map bare := by
  induction l with
  | nil => exact Or.inl rfl
  | cons t rest ih =>
    rw [bareAll]
    cases found : t.isKind k with
    | true =>
      split
      · exact Or.inl (by rw [List.find?_cons_of_pos found, List.find?_cons_of_pos found])
      · refine Or.inr ?_
        rw [List.find?_cons_of_pos (by rw [isKind_bare, found]), List.find?_cons_of_pos found, Option.map_some]
    | false =>
      split
      · rwa [List.find?_cons_of_neg (by simp [found]), List.find?_cons_of_neg (by simp [found])]
      · refine Or.inl ?_
        rw [List.find?_cons_of_neg (by simp [isKind_bare, found]), List.find?_cons_of_neg (by simp [found])]

theorem mapIdx_filter_bareAll {α : Type} {p : Tree → Bool} {f : Nat → Tree → α}
    (chosen : ∀ t : Tree, p t.bare = p t) (same : ∀ i (t : Tree), f i t.bare = f i t) (l : List Tree) :
    ((bareAll l).filter p).mapIdx f = (l.filter p).mapIdx f := by
  induction l generalizing f with
  | nil => rfl
  | cons t rest ih =>
    rw [bareAll]
    split
    · rw [List.filter_cons, List.filter_cons]
      split
      · rw [List.mapIdx_cons, List.mapIdx_cons, ih fun i => same (i + 1)]
      · exact ih same
    · rw [List.filter_cons, List.filter_cons, chosen]
      split
      · rw [List.mapIdx_cons, List.mapIdx_cons, same]
      · rfl

theorem unseen_bare : Unseen bare where
  isKind := isKind_bare
  text := text_bare
  spelling t := by
    rw [tokens_bare]
    cases t.tokens <;> rfl
  child read same k t := by
    cases t with
    | leaf token => rfl
    | comment text => rfl
    | node kind children =>
      change read ((bareAll children).find? (isKind k)) = read (children.find? (isKind k))
      rcases find?_bareAll k children with found | found
      · rw [found]
      · rw [found]
        cases children.find? (isKind k) with
        | none => rfl
        | some u => exact same u
  parameters read same t := by
    cases t with
    | leaf token => rfl
    | comment text => rfl
    | node kind children =>
      refine mapIdx_filter_bareAll (fun c => ?_) same children
      rw [isKind_bare, isKind_bare]

end Tree

section Walk

variable (policy : Policy) (file : Text)

mutual

/-- What is collected from a tree does not depend on the gap in front of it. -/
theorem collect_bare (scope : List Text) (owner : Option Text) (attributes : List Text) :
    ∀ t : Tree, collect policy file scope owner attributes t.bare = collect policy file scope owner attributes t
  | .leaf _ => rfl
  | .comment _ => rfl
  | .node kind children => by
    have name := Tree.unseen_bare.nameOf (.node kind children)
    have shown := Tree.unseen_bare.isPublic (.node kind children)
    have body := fun scope owner => collectBody_bareAll scope owner children
    rw [Tree.bare] at name shown ⊢
    cases kind
    case function =>
      have found := Tree.unseen_bare.functionOf file scope owner (.node .function children)
      rw [Tree.bare] at found
      rw [collect, collect, name, shown, found]
    case implementation =>
      have type := Tree.unseen_bare.childText .selfType (.node .implementation children)
      rw [Tree.bare] at type
      rw [collect, collect, type, body]
    case module => rw [collect, collect, name, shown, body]
    all_goals rfl

theorem collectBody_bareAll (scope : List Text) (owner : Option Text) :
    ∀ l : List Tree, collectBody policy file scope owner (Tree.bareAll l) = collectBody policy file scope owner l
  | [] => rfl
  | t :: rest => by
    have later := collectBody_bareAll scope owner rest
    rw [Tree.bareAll]
    cases t with
    | leaf token => rfl
    | comment text => exact later
    | node kind children =>
      have inside := collectAll_bareAll scope owner [] children
      split
      · cases kind <;> first | rfl | exact later
      · cases kind <;> first | rfl | exact inside

theorem collectAll_bareAll (scope : List Text) (owner : Option Text) (attributes : List Text) :
    ∀ l : List Tree, collectAll policy file scope owner attributes (Tree.bareAll l) =
      collectAll policy file scope owner attributes l
  | [] => rfl
  | t :: rest => by
    have later := fun attributes => collectAll_bareAll scope owner attributes rest
    rw [Tree.bareAll]
    split
    · cases t with
      | leaf token => exact later []
      | comment text => exact later attributes
      | node kind children => rw [collectAll, collectAll, later]
    · cases t with
      | leaf token => rfl
      | comment text => rfl
      | node kind children =>
        have here := collect_bare scope owner attributes (.node kind children)
        have text := Tree.text_bare (.node kind children)
        rw [Tree.bare] at here text ⊢
        rw [collectAll, collectAll, here, text]

end

end Walk

end TestSkeleton.Rust
