import Mathlib.Data.List.Basic
import TestSkeleton.Proofs.Rust.Bare
import TestSkeleton.Proofs.Rust.Enclosure

/-! Attributes and comments in front of an item.

Their order does not count, nor does an attribute that says nothing of tests. But the text of an attribute
is searched at all its places, and one that only quotes a test attribute leaves the item out too. -/

namespace TestSkeleton.Rust

open Text

/-- The attributes that leave out an item of the kind behind them, by their text. -/
def Kind.leavesOut : Kind → Text → Bool
  | function => holdsTestAttribute
  | module => holdsConfiguredTest
  | _ => fun _ => false

/-- Whether the tree is an attribute that leaves out an item of the kind behind it. -/
def Kind.isBarredBy (k : Kind) (t : Tree) : Bool := t.isKind .attribute && k.leavesOut t.text

/-- The kinds of items: nothing that a node is searched for, and no attribute. -/
def Kind.isItem (k : Kind) : Bool := !k.isSought && k != .attribute

theorem Kind.isBarredBy_bare (k : Kind) (t : Tree) : k.isBarredBy t.bare = k.isBarredBy t := by
  rw [isBarredBy, isBarredBy, Tree.isKind_bare, Tree.text_bare]

section Walk

variable (policy : Policy) (file : Text) (scope : List Text) (owner : Option Text)

/-- Attributes count only by whether one of them leaves the item out. -/
theorem collect_eq (attributes : List Text) (kind : Kind) (children : List Tree) :
    collect policy file scope owner attributes (.node kind children) =
      if attributes.any kind.leavesOut then []
      else collect policy file scope owner [] (.node kind children) := by
  cases kind
  case function =>
    simp only [collect, List.any_nil, Bool.false_or, Kind.leavesOut]
    cases attributes.any holdsTestAttribute <;> rfl
  case module =>
    simp only [collect, List.any_nil, Bool.false_or, Kind.leavesOut]
    cases attributes.any holdsConfiguredTest <;> rfl
  all_goals simp [collect, Kind.leavesOut]

/-- Nothing is collected from attributes and comments, and the attributes among them are kept for what
stands behind them. -/
theorem asides_eq {run : List Tree} (asides : ∀ t ∈ run, t.isAside = true) (attributes : List Text)
    (kind : Kind) : collectAll policy file scope owner attributes run = [] ∧
      (attributesBehind attributes run).any kind.leavesOut =
        (attributes.any kind.leavesOut || run.any kind.isBarredBy) := by
  induction run generalizing attributes with
  | nil => exact ⟨rfl, (Bool.or_false _).symm⟩
  | cons t run ih =>
    obtain ⟨here, later⟩ := List.forall_mem_cons.mp asides
    cases t with
    | leaf token => cases here
    | comment text =>
      obtain ⟨nothing, kept⟩ := ih later attributes
      exact ⟨nothing, kept.trans (by simp [Kind.isBarredBy, Tree.isKind])⟩
    | node other children =>
      obtain rfl : other = .attribute := beq_iff_eq.mp here
      obtain ⟨nothing, kept⟩ := ih later ((Tree.node .attribute children).text :: attributes)
      refine ⟨nothing, kept.trans ?_⟩
      rw [List.any_cons, List.any_cons, Kind.isBarredBy]
      cases kind.leavesOut (Tree.node .attribute children).text <;> simp [Tree.isKind]

/-- What is collected around an item with attributes and comments in front of it. -/
theorem collectAll_item {run : List Tree} (asides : ∀ t ∈ run, t.isAside = true) {kind : Kind}
    (isItem : kind.isItem = true) (attributes : List Text) (front children behind : List Tree) :
    collectAll policy file scope owner attributes (front ++ (run ++ .node kind children :: behind)) =
      collectAll policy file scope owner attributes front ++
        ((if (attributesBehind attributes front).any kind.leavesOut || run.any kind.isBarredBy then []
          else collect policy file scope owner [] (.node kind children)) ++
        collectAll policy file scope owner [] behind) := by
  have other : kind ≠ .attribute := by
    simp only [Kind.isItem, Bool.and_eq_true, bne_iff_ne] at isItem
    exact isItem.2
  obtain ⟨nothing, kept⟩ := asides_eq policy file scope owner asides (attributesBehind attributes front) kind
  rw [collectAll_append, collectAll_append, nothing, List.nil_append, collectAll_node policy file other,
    collect_eq, kept]

end Walk

/-- A spot for an item: the nodes around it, and the trees before and behind it. -/
structure Spot where
  around : List Enclosure
  before : List Tree
  behind : List Tree
  isPlain : ∀ e ∈ around, e.kind.isPlain = true

/-- The trees with an item at the spot, and attributes and comments in front of it. -/
def Spot.trees (s : Spot) (run : List Tree) (item : Tree) : List Tree :=
  enclose s.around (s.before ++ (run ++ item :: s.behind))

theorem sought_item {run : List Tree} (asides : ∀ t ∈ run, t.isAside = true) {kind : Kind}
    (isItem : kind.isItem = true) (front children behind : List Tree) :
    sought (front ++ (run ++ .node kind children :: behind)) = sought front ++ sought behind := by
  have none : run.filter Tree.isSought = [] := by
    refine List.filter_eq_nil_iff.mpr fun t member => ?_
    have aside := asides t member
    cases t with
    | leaf token => cases aside
    | comment text => exact Bool.false_ne_true
    | node other children =>
      obtain rfl : other = .attribute := beq_iff_eq.mp aside
      exact Bool.false_ne_true
  have other : (Tree.node kind children).isSought = false := by
    simp only [Kind.isItem, Bool.and_eq_true, Bool.not_eq_true'] at isItem
    exact isItem.1
  rw [sought, List.filter_append, List.filter_append, none, List.nil_append,
    List.filter_cons_of_neg (by simp [other])]
  rfl

/-- With other attributes and comments in front of an item the same is collected, or as much as without
the item. -/
theorem collectAll_spot (policy : Policy) (file : Text) (s : Spot) {run run' added : List Tree}
    {kind : Kind} {children children' : List Tree} (isItem : kind.isItem = true)
    (asides : ∀ t ∈ run, t.isAside = true) (asides' : ∀ t ∈ run', t.isAside = true)
    (permuted : (run'.map Tree.bare).Perm ((added ++ run).map Tree.bare))
    (same : (Tree.node kind children').bare = (Tree.node kind children).bare) :
    collectAll policy file [] none [] (s.trees run' (.node kind children')) =
      if added.any kind.isBarredBy then collectAll policy file [] none [] (s.trees run (.node .item []))
      else collectAll policy file [] none [] (s.trees run (.node kind children)) := by
  have barred : run'.any kind.isBarredBy = (added.any kind.isBarredBy || run.any kind.isBarredBy) := by
    have bare (l : List Tree) : (l.map Tree.bare).any kind.isBarredBy = l.any kind.isBarredBy := by
      rw [List.any_map]
      exact congrArg l.any (funext kind.isBarredBy_bare)
    rw [← bare, permuted.any_eq, bare, List.any_append]
  rcases (passes_enclose policy file s.around s.isPlain).1 [] none [] with
    closed | ⟨front, scope, owner, attributes, back, whole⟩
  · have item := closed _ _ ((sought_item asides' isItem s.before children' s.behind).trans
      (sought_item asides isItem s.before children s.behind).symm)
    have blank := closed _ _ ((sought_item asides' isItem s.before children' s.behind).trans
      (sought_item asides (rfl : Kind.item.isItem = true) s.before [] s.behind).symm)
    split
    · exact blank
    · exact item
  · have found : collect policy file scope owner [] (.node kind children') =
        collect policy file scope owner [] (.node kind children) := by
      rw [← collect_bare, same, collect_bare]
    have gone : collect policy file scope owner [] (.node .item []) = [] := rfl
    simp only [Spot.trees, whole, collectAll_item policy file scope owner asides' isItem,
      collectAll_item policy file scope owner asides isItem,
      collectAll_item policy file scope owner asides (rfl : Kind.item.isItem = true), found, barred, gone, ite_self]
    cases added.any kind.isBarredBy <;> simp

/-- The attribute says that an item of the kind is for tests. -/
def Attribute.Concerns (k : Kind) (a : Tree) : Prop :=
  k = .function ∧ IsTest a ∨ k = .module ∧ IsConfiguredTest a

instance (k : Kind) (a : Tree) : Decidable (Attribute.Concerns k a) :=
  inferInstanceAs (Decidable (_ ∨ _))

theorem Attribute.body_bare (a : Tree) : body a.bare = body a := by
  rw [body, body, Tree.tokens_bare]
  cases a.tokens <;> rfl

theorem Attribute.concerns_bare {k : Kind} {a : Tree} : Concerns k a.bare ↔ Concerns k a := by
  rw [Concerns, Concerns, IsTest, IsTest, IsConfiguredTest, IsConfiguredTest, path, path, body_bare]

/-- An attribute that leaves out an item says that it is for tests, or another `#[` stands in its text. -/
theorem concerns_or_contains {k : Kind} {a : Tree} (isAttribute : a.isKind .attribute = true) (grown : a.Grown)
    (leaves : k.leavesOut a.text = true) :
    Attribute.Concerns k a ∨ contains "#[".toList a.text.tail = true := by
  obtain ⟨children, rfl⟩ := Tree.exists_of_isKind isAttribute
  cases k
  case function => exact (Attribute.isTest_or_contains grown leaves).imp_left fun test => Or.inl ⟨rfl, test⟩
  case module =>
    exact (Attribute.isConfiguredTest_or_contains grown leaves).imp_left fun test => Or.inr ⟨rfl, test⟩
  all_goals cases leaves

/-- Attributes that say nothing of tests are added in front of an item, and all that stands there is
reordered. Then the same is extracted, as long as no added attribute has another `#[` in its text. With
one that quotes what leaves the item out, as much is extracted as without the item. -/
theorem extract_redecorated (policy : Policy) (file : Text) {source source' : Text} (s : Spot)
    {run run' added : List Tree} {kind : Kind} {children : List Tree} {item' : Tree}
    (parsed : parse source = .ok (s.trees run (.node kind children)))
    (parsed' : parse source' = .ok (s.trees run' item')) (isItem : kind.isItem = true)
    (same : item'.bare = (Tree.node kind children).bare)
    (asides : ∀ t ∈ run ++ run', t.isAside = true)
    (permuted : (run'.map Tree.bare).Perm ((added ++ run).map Tree.bare))
    (unrelated : ∀ a ∈ added, a.isKind .attribute = true ∧ ¬Attribute.Concerns kind a) :
    ((∀ a ∈ added, contains "#[".toList a.text.tail = false) →
      extract policy file source' = extract policy file source) ∧
    extract policy file source' =
      if ∃ a ∈ added, kind.leavesOut a.text = true then
        .ok (collectAll policy file [] none [] (s.trees run (.node .item [])))
      else extract policy file source := by
  obtain ⟨before, behind⟩ := List.forall_mem_append.mp asides
  obtain ⟨children', rfl⟩ : ∃ children', item' = .node kind children' := by
    cases item' with
    | leaf token => cases same
    | comment text => cases same
    | node other children' =>
      obtain rfl : other = kind := (Tree.node.inj same).1
      exact ⟨children', rfl⟩
  have found := collectAll_spot policy file s isItem before behind permuted same
  have barred : added.any kind.isBarredBy = true ↔ ∃ a ∈ added, kind.leavesOut a.text = true := by
    rw [List.any_eq_true]
    refine exists_congr fun a => and_congr_right fun member => ?_
    rw [Kind.isBarredBy, (unrelated a member).1, Bool.true_and]
  have whole : extract policy file source' =
      if ∃ a ∈ added, kind.leavesOut a.text = true then
        .ok (collectAll policy file [] none [] (s.trees run (.node .item [])))
      else extract policy file source := by
    rw [extract, extract, parsed, parsed', map_ok, map_ok, found, apply_ite Except.ok]
    exact if_congr barred rfl rfl
  refine ⟨fun further => whole.trans (if_neg ?_), whole⟩
  rintro ⟨a, member, leaves⟩
  have grown : ∀ t ∈ run' ++ .node kind children' :: s.behind, t.Grown := fun t inside =>
    mem_enclose (fun _ _ => Tree.Grown.inside) (fun t member => (grown_parse parsed' t member).1) t
      (List.mem_append_right s.before inside)
  obtain ⟨b, inside, bare⟩ := List.mem_map.mp (permuted.mem_iff.mpr
    (List.mem_map_of_mem (List.mem_append_left run member)))
  have text : b.text = a.text := by rw [← Tree.text_bare, bare, Tree.text_bare]
  have isAttribute : b.isKind .attribute = true := by
    rw [← Tree.isKind_bare, bare, Tree.isKind_bare, (unrelated a member).1]
  rcases concerns_or_contains isAttribute (grown b (List.mem_append_left _ inside)) (text ▸ leaves) with
    concerns | another
  · rw [← Attribute.concerns_bare, bare, Attribute.concerns_bare] at concerns
    exact (unrelated a member).2 concerns
  · rw [text, further a member] at another
    cases another

theorem exists_of_parses (source source' : Text) (P : List Tree → List Tree → Prop)
    [∀ trees trees', Decidable (P trees trees')]
    (checked : ((parse source).toOption.any fun trees =>
      (parse source').toOption.any fun trees' => decide (P trees trees')) = true) :
    ∃ trees trees', parse source = .ok trees ∧ parse source' = .ok trees' ∧ P trees trees' := by
  obtain ⟨trees, parsed, rest⟩ := exists_of_parse source
    (fun trees => (parse source').toOption.any (fun trees' => decide (P trees trees')) = true)
    (by simpa using checked)
  obtain ⟨trees', parsed', holds⟩ := exists_of_parse source' (P trees) rest
  exact ⟨trees, trees', parsed, parsed', holds⟩

def commentedSource : Text := "#[inline] /* c */ pub fn f() \x7b\x7d".toList

def quotingSource : Text := "/* c */ #[doc = \"#[test]\"] #[inline] pub fn f() \x7b\x7d".toList

/-- A function is lost behind an attribute that documents it, though neither of its attributes says that it
is a test. -/
theorem quoted_test_leaves_out : ∃ trees, parse quotingSource = .ok trees ∧
    (∀ a ∈ trees, a.isKind .attribute = true → ¬Attribute.Concerns .function a) ∧
    (extract {} [] commentedSource).map (·.map (·.name)) = .ok [['f']] ∧
    extract {} [] quotingSource = .ok [] := by
  obtain ⟨trees, trees', parsed, parsed', unrelated, last, last', asides, permuted, added, leaves, without,
      found⟩ := exists_of_parses commentedSource quotingSource
    (fun trees trees' =>
      (∀ a ∈ trees', a.isKind .attribute = true → ¬Attribute.Concerns .function a) ∧
      (∃ item ∈ trees.getLast?, item.isKind .function = true) ∧
      (trees'.getLast?.map Tree.bare = trees.getLast?.map Tree.bare) ∧
      (∀ t ∈ trees.dropLast ++ trees'.dropLast, t.isAside = true) ∧
      (trees'.dropLast.map Tree.bare).Perm (((trees'.take 2).drop 1 ++ trees.dropLast).map Tree.bare) ∧
      (∀ a ∈ (trees'.take 2).drop 1, a.isKind .attribute = true) ∧
      (∃ a ∈ (trees'.take 2).drop 1, Kind.function.leavesOut a.text = true) ∧
      collectAll {} [] [] none [] (trees.dropLast ++ [.node .item []]) = [] ∧
      (collectAll {} [] [] none [] trees).map (·.name) = [['f']]) (by decide +kernel)
  obtain ⟨item, isLast, isFunction⟩ := last
  obtain ⟨children, rfl⟩ := Tree.exists_of_isKind isFunction
  have isLast : trees.getLast? = some (.node .function children) := isLast
  rw [isLast, Option.map_some, Option.map_eq_some_iff] at last'
  obtain ⟨item', isLast', same⟩ := last'
  have whole := List.dropLast_append_getLast? _ isLast
  have whole' := List.dropLast_append_getLast? _ isLast'
  let spot : Spot := ⟨[], [], [], nofun⟩
  have redecorated := extract_redecorated {} [] spot
    (parsed.trans (congrArg Except.ok whole.symm)) (parsed'.trans (congrArg Except.ok whole'.symm)) rfl same
    asides permuted fun a member => ⟨added a member, unrelated a (List.mem_of_mem_take (List.mem_of_mem_drop
      member)) (added a member)⟩
  refine ⟨trees', parsed', unrelated, ?_, ?_⟩
  · rw [extract, parsed]
    exact congrArg Except.ok found
  · rw [redecorated.2, if_pos leaves]
    exact congrArg Except.ok without

end TestSkeleton.Rust
