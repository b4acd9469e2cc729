import TestSkeleton.Extraction.Rust
import TestSkeleton.Proofs.Rust.Reading

/-! Trees inside other trees, and what is collected there.

Either nothing of what is collected depends on the trees inside, or what is collected from them stands
between what is collected before them and behind them. -/

namespace TestSkeleton.Rust

open Text Signature

/-- The kinds of the nodes that are read for what is written in them. -/
def Kind.isHeader : Kind → Bool
  | visibility | modifiers | name | parameters | returnType | selfType => true
  | _ => false

/-- The kinds of the nodes that a node is searched for. -/
def Kind.isSought (k : Kind) : Bool := k.isHeader || k == .declarations

/-- The kinds of the nodes whose text is not read. -/
def Kind.isPlain (k : Kind) : Bool := !k.isHeader && k != .attribute

def Tree.isHeader : Tree → Bool
  | node kind _ => kind.isHeader
  | _ => false

def Tree.isSought : Tree → Bool
  | node kind _ => kind.isSought
  | _ => false

theorem Tree.isHeader_of_isKind {k : Kind} {t : Tree} (isKind : t.isKind k = true)
    (header : k.isHeader = true) : t.isHeader = true := by
  obtain ⟨children, rfl⟩ := Tree.exists_of_isKind isKind
  exact header

theorem Tree.isSought_of_isHeader {t : Tree} (header : t.isHeader = true) : t.isSought = true := by
  cases t with
  | node kind children => exact Bool.or_eq_true_iff.mpr (Or.inl header)
  | leaf token => cases header
  | comment text => cases header

/-- The children of a node that are read for what is written in them. -/
def headers (children : List Tree) : List Tree := children.filter Tree.isHeader

/-- The children of a node that it is searched for. -/
def sought (children : List Tree) : List Tree := children.filter Tree.isSought

theorem headers_sought (children : List Tree) : headers (sought children) = headers children := by
  rw [headers, sought, headers, List.filter_filter]
  refine List.filter_congr fun t _ => ?_
  cases header : t.isHeader with
  | false => rfl
  | true => simp [Tree.isSought_of_isHeader header]

theorem headers_congr {l m : List Tree} (same : sought l = sought m) : headers l = headers m := by
  rw [← headers_sought, same, headers_sought]

theorem childOf?_headers {k : Kind} (header : k.isHeader = true) (kind kind' : Kind)
    (children : List Tree) : (Tree.node kind children).childOf? k =
      (Tree.node kind' (headers children)).childOf? k := by
  rw [Tree.childOf?, Tree.childOf?, headers, List.find?_filter]
  congr 1
  funext t
  cases isKind : t.isKind k with
  | false => simp
  | true => simp [Tree.isHeader_of_isKind isKind header]

section Node

variable {kind : Kind} {children children' : List Tree}

theorem childOf?_congr {k : Kind} (header : k.isHeader = true) (same : headers children = headers children') :
    (Tree.node kind children).childOf? k = (Tree.node kind children').childOf? k := by
  rw [childOf?_headers header kind kind, same, ← childOf?_headers header kind kind]

theorem nameOf_congr (same : headers children = headers children') :
    nameOf (.node kind children) = nameOf (.node kind children') := by
  rw [nameOf, nameOf, childOf?_congr rfl same]

theorem isPublic_congr (same : headers children = headers children') :
    isPublic (.node kind children) = isPublic (.node kind children') := by
  rw [isPublic, isPublic, childOf?_congr rfl same]

/-- The signature of a function is read off its headers. -/
theorem functionOf_congr (file : Text) (scope : List Text) (owner : Option Text)
    (same : headers children = headers children') :
    functionOf file scope owner (.node kind children) = functionOf file scope owner (.node kind children') := by
  rw [functionOf, functionOf, nameOf_congr same, parametersOf, parametersOf, hasModifier, hasModifier,
    childOf?_congr (k := .parameters) rfl same, childOf?_congr (k := .returnType) rfl same,
    childOf?_congr (k := .modifiers) rfl same]

end Node

/-- A node around trees, with the trees before it and behind it. -/
structure Enclosure where
  before : List Tree
  kind : Kind
  behind : List Tree

/-- The trees inside nodes, of which the first is the outermost. -/
def enclose : List Enclosure → List Tree → List Tree
  | [], inner => inner
  | e :: around, inner => e.before ++ .node e.kind (enclose around inner) :: e.behind

theorem mem_enclose {around : List Enclosure} {inner : List Tree} {P : Tree → Prop}
    (inside : ∀ kind children, P (.node kind children) → ∀ t ∈ children, P t)
    (all : ∀ t ∈ enclose around inner, P t) : ∀ t ∈ inner, P t := by
  induction around with
  | nil => exact all
  | cons e around ih =>
    have here := all (.node e.kind (enclose around inner))
      (List.mem_append_right _ List.mem_cons_self)
    exact ih (inside _ _ here)

section Walk

variable (policy : Policy) (file : Text)

/-- The attributes in front of what stands behind the trees, the last first. -/
def attributesBehind (attributes : List Text) : List Tree → List Text
  | [] => attributes
  | .comment _ :: rest => attributesBehind attributes rest
  | .leaf _ :: rest => attributesBehind [] rest
  | .node kind children :: rest =>
    attributesBehind (if kind == .attribute then (Tree.node kind children).text :: attributes else []) rest

theorem collectAll_append (scope : List Text) (owner : Option Text) (attributes : List Text)
    (l m : List Tree) : collectAll policy file scope owner attributes (l ++ m) =
      collectAll policy file scope owner attributes l ++
        collectAll policy file scope owner (attributesBehind attributes l) m := by
  induction l generalizing attributes with
  | nil => rfl
  | cons t l ih =>
    cases t with
    | leaf token => exact ih []
    | comment text => exact ih attributes
    | node kind children =>
      rw [List.cons_append, collectAll, collectAll, attributesBehind, ih, List.append_assoc]

theorem collectAll_node {kind : Kind} (other : kind ≠ .attribute) (scope : List Text) (owner : Option Text)
    (attributes : List Text) (children rest : List Tree) :
    collectAll policy file scope owner attributes (.node kind children :: rest) =
      collect policy file scope owner attributes (.node kind children) ++
        collectAll policy file scope owner [] rest := by
  rw [collectAll, if_neg (by simpa using other)]

theorem collectBody_eq (scope : List Text) (owner : Option Text) (children : List Tree) :
    collectBody policy file scope owner children =
      (((children.find? (Tree.isKind .declarations)).map fun t =>
        collectAll policy file scope owner [] t.children).getD []) := by
  induction children with
  | nil => rfl
  | cons t rest ih =>
    cases t with
    | leaf token => exact ih
    | comment text => exact ih
    | node kind inside =>
      by_cases same : kind = .declarations
      · subst same
        rfl
      · have apart : (Tree.node kind inside).isKind .declarations = false := beq_eq_false_iff_ne.mpr same
        rw [List.find?_cons_of_neg (by simp [apart]), ← ih]
        cases kind <;> first | rfl | exact absurd rfl same

theorem collectBody_congr (scope : List Text) (owner : Option Text) {l m : List Tree}
    (same : sought l = sought m) :
    collectBody policy file scope owner l = collectBody policy file scope owner m := by
  have narrowed (l : List Tree) :
      l.find? (Tree.isKind .declarations) = (sought l).find? (Tree.isKind .declarations) := by
    rw [sought, List.find?_filter]
    congr 1
    funext t
    cases t with
    | leaf token => rfl
    | comment text => rfl
    | node kind children => cases kind <;> rfl
  rw [collectBody_eq, collectBody_eq, narrowed l, narrowed m, same]

theorem collect_function_congr (scope : List Text) (owner : Option Text) (attributes : List Text)
    {l m : List Tree} (same : headers l = headers m) :
    collect policy file scope owner attributes (.node .function l) =
      collect policy file scope owner attributes (.node .function m) := by
  rw [collect, collect, nameOf_congr same, isPublic_congr same, functionOf_congr file scope owner same]

/-- What is collected from a node depends on its headers and its body. -/
theorem collect_congr (scope : List Text) (owner : Option Text) (attributes : List Text) (kind : Kind)
    {l m : List Tree} (same : sought l = sought m) :
    collect policy file scope owner attributes (.node kind l) =
      collect policy file scope owner attributes (.node kind m) := by
  have header := headers_congr same
  cases kind
  case function => exact collect_function_congr policy file scope owner attributes header
  case implementation =>
    rw [collect, collect, childOf?_congr rfl header, collectBody_congr policy file _ _ same]
  case module =>
    rw [collect, collect, nameOf_congr header, isPublic_congr header, collectBody_congr policy file _ _ same]
  all_goals rfl

/-- What is collected does not depend on some trees beyond what they are searched for, or it is what is
collected from them with something before it and behind it. -/
def Passes (F : List Tree → List Function) : Prop :=
  (∀ l m, sought l = sought m → F l = F m) ∨
    ∃ front scope owner attributes back, ∀ inner,
      F inner = front ++ collectAll policy file scope owner attributes inner ++ back

variable {policy file} {F : List Tree → List Function}

theorem passes_const (found : List Function) : Passes policy file fun _ => found := Or.inl fun _ _ _ => rfl

theorem Passes.surround (passes : Passes policy file F) (front back : List Function) :
    Passes policy file fun inner => front ++ F inner ++ back := by
  rcases passes with closed | ⟨before, scope, owner, attributes, behind, whole⟩
  · exact Or.inl fun l m same => congrArg (front ++ · ++ back) (closed l m same)
  · refine Or.inr ⟨front ++ before, scope, owner, attributes, behind ++ back, fun inner => ?_⟩
    simp only [whole, List.append_assoc]

theorem Passes.of_eq {G : List Tree → List Function} (passes : Passes policy file F) (same : ∀ l, G l = F l) :
    Passes policy file G := (funext same : G = F) ▸ passes

theorem headers_enclose {e : Enclosure} (plain : e.kind.isPlain = true) (around : List Enclosure)
    (inner : List Tree) : headers (enclose (e :: around) inner) = headers e.before ++ headers e.behind := by
  have skipped : (Tree.node e.kind (enclose around inner)).isHeader = false := by
    simp only [Kind.isPlain, Bool.and_eq_true, Bool.not_eq_true'] at plain
    exact plain.1
  rw [enclose, headers, List.filter_append, List.filter_cons_of_neg (by simp [skipped])]
  rfl

/-- What is collected from a node passes on what its body does. -/
theorem passes_collect (kind : Kind) {around : List Enclosure} (plain : ∀ e ∈ around, e.kind.isPlain = true)
    (body : ∀ scope owner, Passes policy file fun inner =>
      collectBody policy file scope owner (enclose around inner))
    (scope : List Text) (owner : Option Text) (attributes : List Text) :
    Passes policy file fun inner =>
      collect policy file scope owner attributes (.node kind (enclose around inner)) := by
  cases around with
  | nil => exact Or.inl fun l m same => collect_congr policy file scope owner attributes kind same
  | cons e around =>
    -- the headers are those that stand before the next node and behind it
    have header (inner : List Tree) : headers (enclose (e :: around) inner) =
        headers (enclose (e :: around) []) := by
      rw [headers_enclose (plain e List.mem_cons_self), headers_enclose (plain e List.mem_cons_self)]
    cases kind
    case function =>
      exact Or.inl fun l m _ =>
        collect_function_congr policy file scope owner attributes ((header l).trans (header m).symm)
    case implementation =>
      let selfType := (Tree.node .implementation (enclose (e :: around) [])).childOf? .selfType
      refine (body scope ((selfType.map Tree.text).map baseName)).of_eq fun inner => ?_
      rw [collect, childOf?_congr rfl (header inner)]
    case module =>
      cases closed : attributes.any holdsConfiguredTest ||
        !(isPublic (.node .module (enclose (e :: around) [])) || policy.includePrivate) with
      | true =>
        refine (passes_const []).of_eq fun inner => ?_
        rw [collect, isPublic_congr (header inner), if_pos closed]
      | false =>
        refine (body (scope ++ [nameOf (.node .module (enclose (e :: around) []))]) none).of_eq fun inner => ?_
        rw [collect, isPublic_congr (header inner), if_neg (by rw [closed]; exact Bool.false_ne_true),
          nameOf_congr (header inner)]
    all_goals exact passes_const []

variable (policy file) in
/-- What is collected from trees inside nodes whose text is not read. -/
theorem passes_enclose (around : List Enclosure) (plain : ∀ e ∈ around, e.kind.isPlain = true) :
    (∀ scope owner attributes, Passes policy file fun inner =>
      collectAll policy file scope owner attributes (enclose around inner)) ∧
    ∀ scope owner, Passes policy file fun inner =>
      collectBody policy file scope owner (enclose around inner) := by
  induction around with
  | nil =>
    refine ⟨fun scope owner attributes => Or.inr ⟨[], scope, owner, attributes, [], fun inner => ?_⟩,
      fun scope owner => Or.inl fun l m same => collectBody_congr policy file scope owner same⟩
    rw [List.nil_append, List.append_nil]
    rfl
  | cons e around ih =>
    obtain ⟨all, body⟩ := ih fun f member => plain f (List.mem_cons_of_mem e member)
    have other : e.kind ≠ .attribute := by
      have here := plain e List.mem_cons_self
      simp only [Kind.isPlain, Bool.and_eq_true, bne_iff_ne] at here
      exact here.2
    refine ⟨fun scope owner attributes => ?_, fun scope owner => ?_⟩
    · have here := passes_collect e.kind (fun f member => plain f (List.mem_cons_of_mem e member))
        body scope owner (attributesBehind attributes e.before)
      refine (here.surround (collectAll policy file scope owner attributes e.before)
        (collectAll policy file scope owner [] e.behind)).of_eq fun inner => ?_
      rw [enclose, collectAll_append, collectAll_node policy file other, List.append_assoc]
    · cases found : e.before.find? (Tree.isKind .declarations) with
      | some t =>
        refine (passes_const (collectAll policy file scope owner [] t.children)).of_eq fun inner => ?_
        rw [collectBody_eq, enclose, List.find?_append, found]
        rfl
      | none =>
        by_cases same : e.kind = .declarations
        · refine (all scope owner []).of_eq fun inner => ?_
          rw [collectBody_eq, enclose, List.find?_append, found, Option.none_or, List.find?_cons_of_pos
            (by rw [same]; rfl)]
          rfl
        · refine (passes_const (collectBody policy file scope owner e.behind)).of_eq fun inner => ?_
          have apart : (Tree.node e.kind (enclose around inner)).isKind .declarations = false :=
            beq_eq_false_iff_ne.mpr same
          rw [collectBody_eq, collectBody_eq, enclose, List.find?_append, found, Option.none_or,
            List.find?_cons_of_neg (by simp [apart])]

end Walk

end TestSkeleton.Rust
