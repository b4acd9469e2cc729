import TestSkeleton.Proofs.Extraction.Filter
import TestSkeleton.Proofs.Rust.PlainAttribute
import TestSkeleton.Proofs.Signature.BaseName

/-! Which functions of a source are found.

Every node of a source has its site: the nodes around it, and the trees before it under the same parent.
The function is found when its own site says so, whatever else is in the source. -/

namespace TestSkeleton.Rust

open Text Signature

/-- The visibility is written, and exactly as `pub`. -/
def Tree.IsPub (t : Tree) : Prop :=
  ∃ v ∈ t.childOf? .visibility, v.tokens.map Token.text = ["pub".toList]

instance (t : Tree) : Decidable t.IsPub :=
  inferInstanceAs (Decidable (∃ v ∈ t.childOf? .visibility, _))

/-- Trees that do not part attributes from what they belong to. -/
def Tree.isAside : Tree → Bool
  | .comment _ => true
  | t => t.isKind .attribute

/-- The attributes in the run of attributes and comments at the end of the trees, the last first. -/
def lastRun (before : List Tree) : List Tree :=
  (before.reverse.takeWhile Tree.isAside).filter (Tree.isKind .attribute)

/-- A tree, behind the trees before it under the same parent. -/
structure Place where
  before : List Tree
  tree : Tree

/-- A tree with the nodes around it, from the outermost to the innermost. -/
structure Site where
  around : List Place
  here : Place

namespace Place

/-- The attributes in the run of attributes and comments directly before the tree. -/
def run (p : Place) : List Tree := lastRun p.before

/-- Functions are looked for in the node: it is an implementation, or a module that is not configured
for tests and is exactly `pub` or need not be, or the declarations of one of them. -/
def IsOpen (policy : Policy) (p : Place) : Prop :=
  p.tree.isKind .implementation = true ∨ p.tree.isKind .declarations = true ∨
    p.tree.isKind .module = true ∧ (∀ a ∈ p.run, ¬Attribute.IsConfiguredTest a) ∧
      (p.tree.IsPub ∨ policy.includePrivate = true)

instance (policy : Policy) (p : Place) : Decidable (p.IsOpen policy) :=
  inferInstanceAs (Decidable (_ ∨ _ ∨ _ ∧ _ ∧ _))

end Place

/-- The names of the modules among the nodes around a tree, from the outermost to the innermost. -/
def scopeOf (around : List Place) : List Text :=
  (around.filter (·.tree.isKind .module)).map fun p => nameOf p.tree

/-- The type of the innermost implementation inside the innermost module, without what is behind its
first angle or square bracket. -/
def ownerOf (around : List Place) : Option Text :=
  ((around.reverse.takeWhile (!·.tree.isKind .module)).find? (·.tree.isKind .implementation)).bind
    fun p => (p.tree.childOf? .selfType).map fun t => trim (t.text.takeWhile fun c => c ≠ '<' ∧ c ≠ '[')

namespace Site

/-- The tree is a function that is found. -/
structure Found (policy : Policy) (s : Site) : Prop where
  function : s.here.tree.isKind .function = true
  isOpen : ∀ p ∈ s.around, p.IsOpen policy
  untested : ∀ a ∈ s.here.run, ¬Attribute.IsTest a
  shown : s.here.tree.IsPub ∨ policy.includePrivate = true
  kept : ∀ part ∈ policy.skipFunctions, part ≠ [] → contains part (nameOf s.here.tree) = false

instance (policy : Policy) (s : Site) : Decidable (s.Found policy) :=
  decidable_of_iff
    (s.here.tree.isKind .function = true ∧ (∀ p ∈ s.around, p.IsOpen policy) ∧
      (∀ a ∈ s.here.run, ¬Attribute.IsTest a) ∧ (s.here.tree.IsPub ∨ policy.includePrivate = true) ∧
      ∀ part ∈ policy.skipFunctions, part ≠ [] → contains part (nameOf s.here.tree) = false)
    ⟨fun ⟨function, isOpen, untested, shown, kept⟩ => ⟨function, isOpen, untested, shown, kept⟩,
      fun found => ⟨found.function, found.isOpen, found.untested, found.shown, found.kept⟩⟩

/-- The signature of the function at a site. -/
def function (file : Text) (s : Site) : Function :=
  functionOf file (scopeOf s.around) (ownerOf s.around) s.here.tree

end Site

mutual

/-- The sites of the nodes of a tree, in order. -/
def sitesAt (around : List Place) (before : List Tree) : Tree → List Site
  | .node kind children =>
    let here : Place := ⟨before, .node kind children⟩
    ⟨around, here⟩ :: sitesAmong (around ++ [here]) [] children
  | _ => []

def sitesAmong (around : List Place) (before : List Tree) : List Tree → List Site
  | [] => []
  | t :: rest => sitesAt around before t ++ sitesAmong around (before ++ [t]) rest

end

/-- The sites of the nodes of a source, in the order of the source. -/
def sites (trees : List Tree) : List Site := sitesAmong [] [] trees

/-- The attributes at the sites are plainly written. -/
def PlainlyWritten (l : List Site) : Prop :=
  ∀ s ∈ l, s.here.tree.isKind .attribute = true → Attribute.Plain s.here.tree

instance (l : List Site) : Decidable (PlainlyWritten l) :=
  inferInstanceAs (Decidable (∀ s ∈ l, _ → _))

theorem plainlyWritten_append {l m : List Site} :
    PlainlyWritten (l ++ m) ↔ PlainlyWritten l ∧ PlainlyWritten m :=
  List.forall_mem_append

theorem plainlyWritten_cons {s : Site} {l : List Site} : PlainlyWritten (s :: l) ↔
    (s.here.tree.isKind .attribute = true → Attribute.Plain s.here.tree) ∧ PlainlyWritten l :=
  List.forall_mem_cons

/-! The name and the owner that a site gives, and how one more node around it changes them. -/

theorem isPublic_iff {kind : Kind} {children : List Tree} (grown : (Tree.node kind children).Grown) :
    isPublic (.node kind children) = true ↔ (Tree.node kind children).IsPub := by
  rw [isPublic, Tree.IsPub]
  cases found : (Tree.node kind children).childOf? .visibility with
  | none => simp
  | some v =>
    obtain ⟨inner, rfl, visible⟩ := grown.childOf? found
    obtain ⟨shown, rest, whole, text, only⟩ := visible.content
    have tokens : (Tree.node .visibility inner).tokens = shown :: rest := whole
    simp only [Option.any_some, Option.mem_some_iff, exists_eq_left', Tree.text, tokens, textOfTokens,
      text, List.map_cons, List.cons.injEq, true_and, beq_iff_eq]
    rcases only with rfl | ⟨opening, more, rfl, round⟩
    · simp
    · refine iff_of_false (fun same => ?_) (by simp)
      have member : '(' ∈ ("pub".toList : Text) := by
        rw [← same]
        simp [round.2]
      exact absurd member (by decide)

theorem scopeOf_concat (around : List Place) (p : Place) : scopeOf (around ++ [p]) =
    scopeOf around ++ if p.tree.isKind .module then [nameOf p.tree] else [] := by
  rw [scopeOf, scopeOf, List.filter_append, List.map_append]
  congr 1
  cases shown : p.tree.isKind .module <;> simp [shown]

theorem ownerOf_concat (around : List Place) (p : Place) : ownerOf (around ++ [p]) =
    if p.tree.isKind .module then none
    else if p.tree.isKind .implementation then
      ((p.tree.childOf? .selfType).map Tree.text).map baseName
    else ownerOf around := by
  rw [ownerOf, ownerOf, List.reverse_append]
  cases isModule : p.tree.isKind .module with
  | true => simp [isModule]
  | false =>
    cases isImplementation : p.tree.isKind .implementation with
    | true => simp [isModule, isImplementation, baseName_eq_trim_takeWhile, Function.comp_def]
    | false => simp [isModule, isImplementation]

/-! The run of attributes before a tree, read forwards. -/

theorem lastRun_concat (before : List Tree) (t : Tree) : lastRun (before ++ [t]) =
    if t.isAside then (if t.isKind .attribute then t :: lastRun before else lastRun before) else [] := by
  rw [lastRun, lastRun, List.reverse_concat, List.takeWhile_cons]
  split
  · rw [List.filter_cons]
  · rfl

/-- The text of an attribute tells what it says. -/
structure Legible (a : Tree) : Prop where
  test : holdsTestAttribute a.text = true ↔ Attribute.IsTest a
  configured : holdsConfiguredTest a.text = true ↔ Attribute.IsConfiguredTest a

theorem Legible.of_plain {children : List Tree} (grown : (Tree.node .attribute children).Grown)
    (plain : Attribute.Plain (.node .attribute children)) : Legible (.node .attribute children) :=
  ⟨Attribute.holdsTestAttribute_iff grown plain, Attribute.holdsConfiguredTest_iff grown plain⟩

theorem any_map_text {run : List Tree} {f : Text → Bool} {P : Tree → Prop}
    (tells : ∀ a ∈ run, (f a.text = true ↔ P a)) :
    (run.map Tree.text).any f = false ↔ ∀ a ∈ run, ¬P a := by
  rw [List.any_map, List.any_eq_false]
  exact forall₂_congr fun a member => not_congr (tells a member)

section Walk

variable (policy : Policy) (file : Text)

/-- The functions found at sites. -/
def foundAt (l : List Site) : List Function :=
  (l.filter fun s => s.Found policy).map (·.function file)

theorem foundAt_append (l m : List Site) :
    foundAt policy file (l ++ m) = foundAt policy file l ++ foundAt policy file m := by
  simp [foundAt]

theorem foundAt_cons (s : Site) (l : List Site) : foundAt policy file (s :: l) =
    if s.Found policy then s.function file :: foundAt policy file l else foundAt policy file l := by
  rw [foundAt, List.filter_cons]
  split <;> simp_all [foundAt]

theorem foundAt_closed {l : List Site} {p : Place} (closed : ¬p.IsOpen policy)
    (inside : ∀ s ∈ l, p ∈ s.around) : foundAt policy file l = [] := by
  rw [foundAt, List.map_eq_nil_iff, List.filter_eq_nil_iff]
  intro s member
  rw [decide_eq_true_iff]
  exact fun found => closed (found.isOpen p (inside s member))

mutual

theorem around_sitesAt (around before : _) : ∀ t : Tree, ∀ s ∈ sitesAt around before t, around ⊆ s.around
  | .leaf _, _, member => nomatch member
  | .comment _, _, member => nomatch member
  | .node kind children, s, member => by
    rcases List.mem_cons.mp member with rfl | inside
    · exact fun _ => id
    · exact fun p outer => around_sitesAmong _ _ children s inside (List.mem_append_left _ outer)

theorem around_sitesAmong (around before : _) : ∀ l : List Tree,
    ∀ s ∈ sitesAmong around before l, around ⊆ s.around
  | [], _, member => nomatch member
  | t :: rest, s, member => by
    rcases List.mem_append.mp member with here | later
    · exact around_sitesAt around before t s here
    · exact around_sitesAmong around (before ++ [t]) rest s later

end

/-- A node that is no function is found nowhere itself. -/
theorem foundAt_node {around : List Place} {before : List Tree} {kind : Kind} {children : List Tree}
    (other : kind ≠ .function) : foundAt policy file (sitesAt around before (.node kind children)) =
      foundAt policy file (sitesAmong (around ++ [⟨before, .node kind children⟩]) [] children) := by
  have missed : ¬Site.Found policy ⟨around, ⟨before, .node kind children⟩⟩ := fun found =>
    other (beq_iff_eq.mp found.function)
  rw [sitesAt, foundAt_cons, if_neg missed]

/-- Nothing is found in a node that is not open. -/
theorem foundAt_inside {around : List Place} {before : List Tree} {kind : Kind} {children : List Tree}
    (closed : ¬Place.IsOpen policy ⟨before, .node kind children⟩) :
    foundAt policy file (sitesAmong (around ++ [⟨before, .node kind children⟩]) [] children) = [] :=
  foundAt_closed policy file closed fun s member =>
    around_sitesAmong _ _ children s member (List.mem_append_right _ List.mem_cons_self)

theorem foundAt_part {around : List Place} {before : List Tree} {t : Tree} (part : t.Shown Kind.isPart) :
    foundAt policy file (sitesAt around before t) = [] := by
  cases t with
  | leaf token => rfl
  | comment text => rfl
  | node kind children =>
    have closed : ¬Place.IsOpen policy ⟨before, .node kind children⟩ := by
      rintro (shown | shown | ⟨shown, -⟩) <;>
        · rw [beq_iff_eq.mp shown] at part
          cases part
    have other : kind ≠ .function := by
      rintro rfl
      cases part
    rw [foundAt_node policy file other, foundAt_inside policy file closed]

/-- Where all nodes around it are open, a function is found unless it is a test or the policy leaves
it out. -/
theorem found_iff {around : List Place} {before children : List Tree}
    (isOpen : ∀ p ∈ around, p.IsOpen policy) (legible : ∀ a ∈ lastRun before, Legible a)
    (grown : (Tree.node .function children).Grown) :
    Site.Found policy ⟨around, ⟨before, .node .function children⟩⟩ ↔
      ((lastRun before).map Tree.text).any holdsTestAttribute = false ∧
        policy.retains (nameOf (.node .function children)) (isPublic (.node .function children)) = true := by
  rw [any_map_text fun a member => (legible a member).test, Policy.retains_iff, isPublic_iff grown]
  constructor
  · exact fun found => ⟨found.untested, found.shown, found.kept⟩
  · exact fun ⟨untested, shown, kept⟩ => ⟨rfl, isOpen, untested, shown, kept⟩

theorem foundAt_function {around : List Place} {before children : List Tree}
    (isOpen : ∀ p ∈ around, p.IsOpen policy) (legible : ∀ a ∈ lastRun before, Legible a)
    (grown : (Tree.node .function children).Grown) :
    foundAt policy file (sitesAt around before (.node .function children)) =
      collect policy file (scopeOf around) (ownerOf around) ((lastRun before).map Tree.text)
        (.node .function children) := by
  have closed : ¬Place.IsOpen policy ⟨before, .node .function children⟩ := by
    rintro (shown | shown | ⟨shown, -⟩) <;> cases shown
  have found := found_iff policy isOpen legible grown
  rw [sitesAt, foundAt_cons, foundAt_inside policy file closed, collect]
  cases test : ((lastRun before).map Tree.text).any holdsTestAttribute with
  | true => rw [if_neg (by simp [found, test])]; rfl
  | false =>
    cases kept : policy.retains (nameOf (.node .function children)) (isPublic (.node .function children)) with
    | true => rw [if_pos (by simp [found, test, kept])]; rfl
    | false => rw [if_neg (by simp [found, kept])]; rfl

/-- A module is open unless it is configured for tests or the policy leaves it out. -/
theorem isOpen_module_iff {before children : List Tree} (legible : ∀ a ∈ lastRun before, Legible a)
    (grown : (Tree.node .module children).Grown) :
    Place.IsOpen policy ⟨before, .node .module children⟩ ↔
      ((lastRun before).map Tree.text).any holdsConfiguredTest = false ∧
        (isPublic (.node .module children) || policy.includePrivate) = true := by
  rw [any_map_text fun a member => (legible a member).configured, Bool.or_eq_true, isPublic_iff grown]
  constructor
  · rintro (shown | shown | ⟨-, plain, isPub⟩)
    · cases shown
    · cases shown
    · exact ⟨plain, isPub⟩
  · exact fun ⟨plain, isPub⟩ => Or.inr (Or.inr ⟨rfl, plain, isPub⟩)

theorem isOpen_concat {around : List Place} {p : Place} (isOpen : ∀ p ∈ around, p.IsOpen policy)
    (here : p.IsOpen policy) : ∀ q ∈ around ++ [p], q.IsOpen policy := by
  simpa [or_imp, forall_and] using ⟨isOpen, here⟩

variable {policy}

/-! The walk goes forwards, with the run of attributes that it has met, the names of the modules and the
owner. All three are read off the site: the run off the trees before it, the others off the nodes around
it. So at the sites of each part of the trees is found what the walk collects there, as long as it has come
through open nodes only. -/

mutual

/-- At the sites of a tree is found what the walk collects there. -/
theorem foundAt_sitesAt (around : List Place) (before : List Tree)
    (isOpen : ∀ p ∈ around, p.IsOpen policy) (legible : ∀ a ∈ lastRun before, Legible a) :
    ∀ t : Tree, t.Grown → t.Shown Kind.isInner → PlainlyWritten (sitesAt around before t) →
    foundAt policy file (sitesAt around before t) =
      collect policy file (scopeOf around) (ownerOf around) ((lastRun before).map Tree.text) t
  | .leaf _, _, _, _ => rfl
  | .comment _, _, _, _ => rfl
  | .node kind children, grown, inner, plain => by
    have inside := (plainlyWritten_cons.mp plain).2
    have body (here : Place.IsOpen policy ⟨before, .node kind children⟩) :=
      foundAt_body (around ++ [⟨before, .node kind children⟩]) [] (isOpen_concat policy isOpen here) children
        grown.inside
    cases kind
    case function => exact foundAt_function policy file isOpen legible grown
    case implementation =>
      have found := body (Or.inl rfl) grown.content inside
      rw [foundAt_node policy file (by decide), found, scopeOf_concat, ownerOf_concat]
      simp [Tree.isKind, collect]
    case module =>
      have closes := isOpen_module_iff policy legible grown
      rw [foundAt_node policy file (by decide), collect]
      by_cases here : Place.IsOpen policy ⟨before, .node .module children⟩
      · obtain ⟨untested, shown⟩ := closes.mp here
        rw [body here grown.content inside, scopeOf_concat, ownerOf_concat, untested, shown]
        simp [Tree.isKind]
      · rw [foundAt_inside policy file here, if_pos]
        by_contra kept
        rw [Bool.not_eq_true, Bool.or_eq_false_iff, Bool.not_eq_false'] at kept
        exact here (closes.mpr kept)
    case declarations => cases inner
    all_goals
      exact foundAt_part policy file (show (Tree.node _ children).Shown Kind.isPart from rfl)

/-- Among the children of a module or of an implementation functions are found in its declarations. -/
theorem foundAt_body (around : List Place) (before : List Tree)
    (isOpen : ∀ p ∈ around, p.IsOpen policy) :
    ∀ l : List Tree, (∀ t ∈ l, t.Grown) → Bodied l → PlainlyWritten (sitesAmong around before l) →
    foundAt policy file (sitesAmong around before l) =
      collectBody policy file (scopeOf around) (ownerOf around) l
  | [], _, _, _ => rfl
  | t :: rest, grown, bodied, plain => by
    obtain ⟨plainHere, plainLater⟩ := plainlyWritten_append.mp plain
    have later := fun bodied => foundAt_body around (before ++ [t]) isOpen rest
      (fun u member => grown u (List.mem_cons_of_mem t member)) bodied plainLater
    obtain ⟨front, body, shape, parts, last⟩ := bodied
    rw [sitesAmong, foundAt_append]
    cases front with
    | cons u front =>
      obtain ⟨rfl, rfl⟩ := List.cons.inj shape
      have part : t.Shown Kind.isPart := parts t List.mem_cons_self
      have bodied : Bodied (front ++ body) :=
        ⟨front, body, rfl, fun u member => parts u (List.mem_cons_of_mem t member), last⟩
      rw [foundAt_part policy file part, later bodied, List.nil_append]
      cases t with
      | leaf token => rfl
      | comment text => rfl
      | node kind children => cases kind <;> first | rfl | cases part
    | nil =>
      rcases last with rfl | ⟨inside, rfl⟩
      · cases shape
      · obtain ⟨rfl, rfl⟩ := List.cons.inj shape
        have here : Place.IsOpen policy ⟨before, .node .declarations inside⟩ := Or.inr (Or.inl rfl)
        have grownHere := grown _ List.mem_cons_self
        have found := foundAt_sitesAmong (around ++ [⟨before, .node .declarations inside⟩]) []
          (isOpen_concat policy isOpen here) (fun a member => absurd member List.not_mem_nil) inside
          (fun u member => ⟨grownHere.inside u member, grownHere.content u member⟩)
          (plainlyWritten_cons.mp plainHere).2
        rw [foundAt_node policy file (by decide), found, scopeOf_concat, ownerOf_concat]
        simp [Tree.isKind, collectBody, sitesAmong, foundAt, lastRun]

/-- Among trees is found what the walk collects there. -/
theorem foundAt_sitesAmong (around : List Place) (before : List Tree)
    (isOpen : ∀ p ∈ around, p.IsOpen policy) (legible : ∀ a ∈ lastRun before, Legible a) :
    ∀ l : List Tree, (∀ t ∈ l, t.Grown ∧ t.Shown Kind.isInner) →
      PlainlyWritten (sitesAmong around before l) →
    foundAt policy file (sitesAmong around before l) =
      collectAll policy file (scopeOf around) (ownerOf around) ((lastRun before).map Tree.text) l
  | [], _, _ => rfl
  | t :: rest, grown, plain => by
    obtain ⟨grownHere, inner⟩ := grown t List.mem_cons_self
    obtain ⟨plainHere, plainLater⟩ := plainlyWritten_append.mp plain
    have first := foundAt_sitesAt around before isOpen legible t grownHere inner plainHere
    have later := fun legible => foundAt_sitesAmong around (before ++ [t]) isOpen legible rest
      (fun u member => grown u (List.mem_cons_of_mem t member)) plainLater
    rw [sitesAmong, foundAt_append, first]
    rw [lastRun_concat] at later
    cases t with
    | leaf token => exact later fun a member => absurd member List.not_mem_nil
    | comment text => exact later legible
    | node kind children =>
      rw [collectAll]
      by_cases same : kind = .attribute
      · subst same
        have tells : Legible (.node .attribute children) :=
          Legible.of_plain grownHere ((plainlyWritten_cons.mp plainHere).1 rfl)
        rw [later (by simpa [Tree.isAside, Tree.isKind] using ⟨tells, legible⟩)]
        rfl
      · have apart : (kind == .attribute) = false := beq_eq_false_iff_ne.mpr same
        rw [later (by simp [Tree.isAside, Tree.isKind, apart])]
        simp [Tree.isAside, Tree.isKind, apart]

end

end Walk

/-- What is extracted from a source whose attributes are plainly written: the functions that are found
at the sites of the source, in its order. -/
theorem extract_eq_found (policy : Policy) (file : Text) {source : Text} {trees : List Tree}
    (parsed : parse source = .ok trees) (plain : PlainlyWritten (sites trees)) :
    extract policy file source =
      .ok (((sites trees).filter fun s => s.Found policy).map (·.function file)) := by
  have found : foundAt policy file (sites trees) = collectAll policy file [] none [] trees :=
    foundAt_sitesAmong file [] [] (fun _ none => absurd none List.not_mem_nil)
      (fun _ none => absurd none List.not_mem_nil) trees (grown_parse parsed) plain
  rw [extract, parsed]
  exact congrArg Except.ok found.symm

/-- What is checked of the trees of a source, in one reading. -/
theorem exists_of_parse (source : Text) (P : List Tree → Prop) [DecidablePred P]
    (checked : (parse source).toOption.any (fun trees => decide (P trees)) = true) :
    ∃ trees, parse source = .ok trees ∧ P trees := by
  cases parsed : parse source with
  | ok trees =>
    rw [parsed] at checked
    exact ⟨trees, rfl, of_decide_eq_true checked⟩
  | error e =>
    rw [parsed] at checked
    cases checked

def nestedSource : Text :=
  "pub mod a \x7b
    impl B<u8> \x7b
        #[test] fn t() \x7b\x7d
        pub fn f() \x7b\x7d
    \x7d
    #[cfg(test)] pub mod d \x7b pub fn g() \x7b\x7d \x7d
    pub mod c \x7b pub fn h() \x7b\x7d \x7d
\x7d".toList

theorem nested_found : ∃ trees, parse nestedSource = .ok trees ∧
    PlainlyWritten (sites trees) ∧
    extract {} [] nestedSource = .ok (((sites trees).filter fun s => s.Found {}).map (·.function [])) ∧
    ((sites trees).filter fun s => s.Found {}).map
        (fun s => (nameOf s.here.tree, scopeOf s.around, ownerOf s.around)) =
      [(['f'], [['a']], some ['B']), (['h'], [['a'], ['c']], none)] := by
  obtain ⟨trees, parsed, plain, found⟩ := exists_of_parse nestedSource
    (fun trees => PlainlyWritten (sites trees) ∧
      ((sites trees).filter fun s => s.Found {}).map
          (fun s => (nameOf s.here.tree, scopeOf s.around, ownerOf s.around)) =
        [(['f'], [['a']], some ['B']), (['h'], [['a'], ['c']], none)]) (by decide +kernel)
  exact ⟨trees, parsed, plain, extract_eq_found {} [] parsed plain, found⟩

def spacedSource : Text := "impl Foo <u8> \x7b pub fn f() \x7b\x7d \x7d".toList

/-- The type of this implementation, cut before its first bracket, ends in a blank. The owner of its
function does not. -/
theorem spaced_owner : ∃ trees, parse spacedSource = .ok trees ∧
    PlainlyWritten (sites trees) ∧
    ((sites trees).filter (·.here.tree.isKind .selfType)).map
        (fun s => s.here.tree.text.takeWhile fun c => c ≠ '<' ∧ c ≠ '[') = ["Foo ".toList] ∧
    (extract {} [] spacedSource).map (·.map (·.owner)) = .ok [some "Foo".toList] := by
  obtain ⟨trees, parsed, plain, type, owner⟩ := exists_of_parse spacedSource
    (fun trees => PlainlyWritten (sites trees) ∧
      ((sites trees).filter (·.here.tree.isKind .selfType)).map
          (fun s => s.here.tree.text.takeWhile fun c => c ≠ '<' ∧ c ≠ '[') = ["Foo ".toList] ∧
      (collectAll {} [] [] none [] trees).map (·.owner) = [some "Foo".toList]) (by decide +kernel)
  refine ⟨trees, parsed, plain, type, ?_⟩
  rw [extract, parsed]
  exact congrArg Except.ok owner

end TestSkeleton.Rust
