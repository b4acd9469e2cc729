import TestSkeleton.Extraction
import TestSkeleton.Proofs.Outcome
import TestSkeleton.Proofs.V.Slots

/-! The parameters that a function declares, apart from the instance of a method, and what an extracted
function keeps of them.

A receiver is told by its name and its type alone. In Rust that finds the instance and nothing else; a
parameter of a V function can be declared so that it passes for one. -/

namespace TestSkeleton

open Text

/-- A parameter that a call has to pass: what it is read as, its type as written, and whether it is
declared `mut`. -/
structure Explicit where
  parameter : Parameter
  type : Text
  isMutable : Bool := false

theorem Signature.isReceiver_receiver (isReference isMutable : Bool) :
    (receiver isReference isMutable).isReceiver = true := by
  cases isReference <;> cases isMutable <;> decide

namespace Rust

/-- Whether a tree lies in a run of trees, at any depth. -/
inductive Tree.Inside (t : Tree) : List Tree → Prop where
  | here {l : List Tree} (listed : t ∈ l) : Tree.Inside t l
  | deeper {l children : List Tree} {kind : Kind} (listed : .node kind children ∈ l)
      (inside : Tree.Inside t children) : Tree.Inside t l

theorem Tree.Inside.mono {t : Tree} {l m : List Tree} (inside : t.Inside l) (subset : l ⊆ m) :
    t.Inside m := by
  cases inside with
  | here listed => exact .here (subset listed)
  | deeper listed inside => exact .deeper (subset listed) inside

/-- The trees of the parameters of a function, in order. -/
def parameterTrees (t : Tree) : List Tree :=
  (((t.childOf? .parameters).map Tree.children).getD []).filter fun c =>
    c.isKind .parameter || c.isKind .selfParameter

/-- Whether the tree of a parameter takes the instance of a method. -/
def takesSelf (t : Tree) : Bool :=
  t.isKind .selfParameter || (t.childOf? .pattern).bind plainName? == some "self".toList

/-- The parameters of a function's tree but for the instance. -/
def explicit (t : Tree) : List Explicit :=
  ((parameterTrees t).zipIdx.filter fun c => !takesSelf c.1).map fun c =>
    { parameter := parameterOf c.2 c.1
      type := ((c.1.childOf? .type).map Tree.text).getD ['_'] }

/-- A parameter counts as the receiver exactly when it takes the instance. -/
theorem isReceiver_parameterOf (place : Nat) (t : Tree) :
    (parameterOf place t).isReceiver = takesSelf t := by
  have receiver : ∀ text, (receiverOf text).isReceiver = true := fun text =>
    Signature.isReceiver_receiver _ _
  unfold parameterOf takesSelf
  cases t.isKind .selfParameter with
  | true => exact receiver _
  | false =>
    simp only [Bool.false_eq_true, if_false, Bool.false_or]
    cases named : (t.childOf? .pattern).bind plainName? with
    | none =>
      have apart : ("arg".toList ++ ofNat place == "self".toList) = false := rfl
      have none : ((none : Option Text) == some "self".toList) = false := rfl
      rw [Parameter.isReceiver, Signature.parameter, apart, Bool.false_and, none]
    | some name =>
      have found : (some name == some "self".toList) = (name == "self".toList) := rfl
      cases same : name == "self".toList with
      | true =>
        simp only [found, same, if_true]
        exact receiver _
      | false =>
        simp only [found, same, Bool.false_eq_true, if_false]
        rw [Parameter.isReceiver, Signature.parameter, same, Bool.false_and]

theorem parametersOf_eq (t : Tree) :
    parametersOf t = (parameterTrees t).zipIdx.map fun c => parameterOf c.2 c.1 := by
  rw [parametersOf, parameterTrees, List.mapIdx_eq_zipIdx_map]

theorem explicit_parameters (t : Tree) :
    (explicit t).map (·.parameter) = (parametersOf t).filter fun p => !p.isReceiver := by
  rw [parametersOf_eq, List.filter_map, explicit, List.map_map]
  congr 1
  apply List.filter_congr
  intro c _
  simp [isReceiver_parameterOf]

theorem isReceiver_explicit {t : Tree} {e : Explicit} (member : e ∈ explicit t) :
    e.parameter.isReceiver = false := by
  have kept := List.mem_map_of_mem (f := fun e : Explicit => e.parameter) member
  rw [explicit_parameters] at kept
  simpa using (List.mem_filter.mp kept).2

section Collect

variable (policy : Policy) (file : Text)

mutual

/-- What is collected is read off the tree of a function. -/
theorem exists_tree_collect (scope : List Text) (owner : Option Text) (attributes : List Text) :
    ∀ t : Tree, ∀ f ∈ collect policy file scope owner attributes t,
      ∃ u scope owner, u.isKind .function = true ∧ u.Inside [t] ∧ f = functionOf file scope owner u
  | .leaf _, f, member => absurd member List.not_mem_nil
  | .comment _, f, member => absurd member List.not_mem_nil
  | .node kind children, f, member => by
    have body := fun scope owner => exists_tree_collectBody scope owner children f
    unfold collect at member
    split at member
    · rename_i same
      cases same
      dsimp only at member
      split at member
      · cases member
      · exact ⟨_, scope, owner, rfl, .here List.mem_cons_self, List.mem_singleton.mp member⟩
    · rename_i same
      cases same
      obtain ⟨u, scope, owner, function, inside, found⟩ := body _ _ member
      exact ⟨u, scope, owner, function, .deeper List.mem_cons_self inside, found⟩
    · rename_i same
      cases same
      dsimp only at member
      split at member
      · cases member
      · obtain ⟨u, scope, owner, function, inside, found⟩ := body _ _ member
        exact ⟨u, scope, owner, function, .deeper List.mem_cons_self inside, found⟩
    · cases member

theorem exists_tree_collectBody (scope : List Text) (owner : Option Text) :
    ∀ l : List Tree, ∀ f ∈ collectBody policy file scope owner l,
      ∃ u scope owner, u.isKind .function = true ∧ u.Inside l ∧ f = functionOf file scope owner u
  | [], f, member => absurd member List.not_mem_nil
  | t :: rest, f, member => by
    have later : f ∈ collectBody policy file scope owner rest → ∃ u scope owner,
        u.isKind .function = true ∧ u.Inside (t :: rest) ∧ f = functionOf file scope owner u := by
      intro behind
      obtain ⟨u, scope, owner, function, inside, found⟩ :=
        exists_tree_collectBody scope owner rest f behind
      exact ⟨u, scope, owner, function, inside.mono (List.subset_cons_self t rest), found⟩
    cases t with
    | comment text => exact later member
    | leaf token => exact later member
    | node kind children =>
      have here := exists_tree_collectAll scope owner [] children f
      unfold collectBody at member
      split at member
      · cases ‹_ = []›
      · rename_i same
        cases same
        obtain ⟨u, scope, owner, function, inside, found⟩ := here member
        exact ⟨u, scope, owner, function, .deeper List.mem_cons_self inside, found⟩
      · rename_i same
        cases same
        exact later member

theorem exists_tree_collectAll (scope : List Text) (owner : Option Text) (attributes : List Text) :
    ∀ l : List Tree, ∀ f ∈ collectAll policy file scope owner attributes l,
      ∃ u scope owner, u.isKind .function = true ∧ u.Inside l ∧ f = functionOf file scope owner u
  | [], f, member => absurd member List.not_mem_nil
  | t :: rest, f, member => by
    have later : ∀ attributes, f ∈ collectAll policy file scope owner attributes rest →
        ∃ u scope owner, u.isKind .function = true ∧ u.Inside (t :: rest) ∧
          f = functionOf file scope owner u := by
      intro attributes behind
      obtain ⟨u, scope, owner, function, inside, found⟩ :=
        exists_tree_collectAll scope owner attributes rest f behind
      exact ⟨u, scope, owner, function, inside.mono (List.subset_cons_self t rest), found⟩
    have here := exists_tree_collect scope owner attributes t f
    cases t with
    | comment text => exact later _ member
    | leaf token => exact later _ member
    | node kind children =>
      rw [collectAll] at member
      rcases List.mem_append.mp member with first | behind
      · obtain ⟨u, scope, owner, function, inside, found⟩ := here first
        exact ⟨u, scope, owner, function, inside.mono (by simp), found⟩
      · exact later _ behind

end

end Collect

end Rust

namespace V

/-- The parameters between the parentheses of a header, as a call has to pass them. -/
def explicit (inside : Text) : List Explicit :=
  (slots ((partsOf inside).map pieceOf)).mapIdx fun i s =>
    { parameter := s.parameter i, type := s.type, isMutable := s.isMutable }

theorem explicit_parameters (inside : Text) : (explicit inside).map (·.parameter) = parameters inside := by
  rw [parameters_eq_slots, explicit]
  apply List.ext_getElem
  · simp
  · intro i _ _
    simp

end V

end TestSkeleton
