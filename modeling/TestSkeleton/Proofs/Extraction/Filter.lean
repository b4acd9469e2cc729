import TestSkeleton.Extraction
import TestSkeleton.Proofs.Outcome

/-! What a policy leaves out of a source.

The declarations of a source are listed without any policy, each with whether it is public. A policy
then only picks from that list: what it picks, and the faults of a source, are those of the policy that
picks everything. -/

namespace TestSkeleton

open Text Signature

/-- A function of a source. It is public when it is declared exactly `pub`, and so is every module
around it inside its file. -/
structure Declared where
  function : Function
  isPublic : Bool
  deriving DecidableEq, Repr

namespace Policy

def admits (p : Policy) (d : Declared) : Bool := p.retains d.function.name d.isPublic

/-- The policy that keeps private functions and skips none. -/
def unfiltered (p : Policy) : Policy := { p with includePrivate := true, skipFunctions := [] }

theorem retains_iff {p : Policy} {name : Text} {isPublic : Bool} :
    p.retains name isPublic = true ↔ (isPublic = true ∨ p.includePrivate = true) ∧
      ∀ part ∈ p.skipFunctions, part ≠ [] → contains part name = false := by
  simp only [retains, skipsFunction, Bool.and_eq_true, Bool.or_eq_true, Bool.not_eq_true',
    List.any_eq_false, List.isEmpty_eq_false_iff, not_and, Bool.not_eq_true]

theorem admits_iff {p : Policy} {d : Declared} :
    p.admits d = true ↔ (d.isPublic = true ∨ p.includePrivate = true) ∧
      ∀ part ∈ p.skipFunctions, part ≠ [] → contains part d.function.name = false :=
  retains_iff

/-- A function behind modules of which some may not be public. -/
theorem admits_within (p : Policy) (f : Function) (isOpen isPublic : Bool) :
    p.admits ⟨f, isOpen && isPublic⟩ = ((isOpen || p.includePrivate) && p.retains f.name isPublic) := by
  simp only [admits, retains]
  cases isOpen <;> cases isPublic <;> cases p.includePrivate <;> rfl

theorem admits_unfiltered (p : Policy) (d : Declared) : p.unfiltered.admits d = true :=
  admits_iff.mpr ⟨Or.inr rfl, fun _ skipped => absurd skipped List.not_mem_nil⟩

end Policy

namespace V

/-- The functions of a source, in order. -/
def declared (file source : Text) : Except ExtractionError (List Declared) :=
  let code := blank source
  match nestingFault? code with
  | some fault => .error fault
  | none => .ok <| (headers code).filterMap fun (h, rest) =>
    (functionOf? file h rest).map fun f => ⟨f, h.isPublic⟩

theorem functionOf?_name {file : Text} {h : Header} {rest : Text} {f : Function}
    (found : functionOf? file h rest = some f) : f.name = h.name := by
  obtain ⟨cut, -, rfl⟩ := Option.map_eq_some_iff.mp found
  rfl

theorem extract_eq_declared (policy : Policy) (file source : Text) :
    extract policy file source =
      (declared file source).map fun ds => (ds.filter policy.admits).map (·.function) := by
  simp only [extract, declared]
  cases nestingFault? (blank source) with
  | some fault => rfl
  | none =>
    simp only [map_ok, List.filter_filterMap, List.map_filterMap]
    congr 2
    funext entry
    obtain ⟨h, rest⟩ := entry
    cases found : functionOf? file h rest with
    | none => simp
    | some f =>
      have name := functionOf?_name found
      by_cases kept : policy.retains h.name h.isPublic = true <;>
        simp [Policy.admits, name, kept, Option.filter]

end V

namespace Rust

mutual

/-- The functions of a tree, in order. `isOpen` says whether all modules around it are public. -/
def declaredIn (file : Text) (scope : List Text) (owner : Option Text) (isOpen : Bool)
    (attributes : List Text) : Tree → List Declared
  | .node .function children =>
    let t := Tree.node .function children
    if attributes.any holdsTestAttribute then []
    else [⟨functionOf file scope owner t, isOpen && isPublic t⟩]
  | .node .implementation children =>
    let selfType := ((Tree.node .implementation children).childOf? .selfType).map Tree.text
    declaredBody file scope (selfType.map baseName) isOpen children
  | .node .module children =>
    let t := Tree.node .module children
    if attributes.any holdsConfiguredTest then []
    else declaredBody file (scope ++ [nameOf t]) none (isOpen && isPublic t) children
  | _ => []

def declaredBody (file : Text) (scope : List Text) (owner : Option Text) (isOpen : Bool) :
    List Tree → List Declared
  | [] => []
  | .node .declarations children :: _ => declaredAll file scope owner isOpen [] children
  | _ :: rest => declaredBody file scope owner isOpen rest

def declaredAll (file : Text) (scope : List Text) (owner : Option Text) (isOpen : Bool)
    (attributes : List Text) : List Tree → List Declared
  | [] => []
  | .comment _ :: rest => declaredAll file scope owner isOpen attributes rest
  | .leaf _ :: rest => declaredAll file scope owner isOpen [] rest
  | .node kind children :: rest =>
    declaredIn file scope owner isOpen attributes (.node kind children) ++
      declaredAll file scope owner isOpen
        (if kind == .attribute then (Tree.node kind children).text :: attributes else []) rest

end

/-- The functions of a source, in order. -/
def declared (file source : Text) : Except ExtractionError (List Declared) :=
  (parse source).map (declaredAll file [] none true [])

section Collect

variable (policy : Policy) (file : Text)

/-- The functions that a policy picks. -/
def picked (ds : List Declared) : List Function := (ds.filter policy.admits).map (·.function)

theorem picked_append (ds es : List Declared) :
    picked policy (ds ++ es) = picked policy ds ++ picked policy es := by
  simp [picked]

theorem picked_singleton (d : Declared) :
    picked policy [d] = if policy.admits d then [d.function] else [] := by
  cases admitted : policy.admits d <;> simp [picked, admitted]

/-! Behind a module that is not public nothing is picked unless private functions are. So the picks of
each part of the walk are what the policy's own walk finds there, or nothing where that does not go. -/

mutual

theorem picked_declaredIn (scope : List Text) (owner : Option Text) (isOpen : Bool)
    (attributes : List Text) : ∀ t : Tree,
    picked policy (declaredIn file scope owner isOpen attributes t) =
      if isOpen || policy.includePrivate then collect policy file scope owner attributes t else []
  | .leaf _ => by simp [declaredIn, collect, picked]
  | .comment _ => by simp [declaredIn, collect, picked]
  | .node kind children => by
    have body := fun scope owner isOpen => picked_declaredBody scope owner isOpen children
    cases kind
    case function =>
      simp only [declaredIn, collect]
      cases attributes.any holdsTestAttribute with
      | true => simp [picked]
      | false =>
        simp only [Bool.false_or, Bool.false_eq_true, if_false, picked_singleton,
          Policy.admits_within, functionOf]
        cases isOpen || policy.includePrivate <;>
          cases policy.retains (nameOf (.node .function children)) _ <;> rfl
    case implementation => exact body _ _ _
    case module =>
      simp only [declaredIn, collect]
      cases attributes.any holdsConfiguredTest with
      | true => simp [picked]
      | false =>
        simp only [Bool.false_or, Bool.false_eq_true, if_false, body]
        cases secret : policy.includePrivate <;> cases isOpen <;>
          cases isPublic (.node .module children) <;> rfl
    all_goals simp [declaredIn, collect, picked]

theorem picked_declaredBody (scope : List Text) (owner : Option Text) (isOpen : Bool) :
    ∀ l : List Tree,
    picked policy (declaredBody file scope owner isOpen l) =
      if isOpen || policy.includePrivate then collectBody policy file scope owner l else []
  | [] => by simp [declaredBody, collectBody, picked]
  | t :: rest => by
    have later := picked_declaredBody scope owner isOpen rest
    cases t with
    | comment text => exact later
    | leaf token => exact later
    | node kind children =>
      have here := picked_declaredAll scope owner isOpen [] children
      cases kind
      case declarations => exact here
      all_goals exact later

theorem picked_declaredAll (scope : List Text) (owner : Option Text) (isOpen : Bool)
    (attributes : List Text) : ∀ l : List Tree,
    picked policy (declaredAll file scope owner isOpen attributes l) =
      if isOpen || policy.includePrivate then collectAll policy file scope owner attributes l else []
  | [] => by simp [declaredAll, collectAll, picked]
  | t :: rest => by
    have later := fun attributes => picked_declaredAll scope owner isOpen attributes rest
    cases t with
    | comment text => exact later _
    | leaf token => exact later _
    | node kind children =>
      have here := picked_declaredIn scope owner isOpen attributes (.node kind children)
      rw [declaredAll, collectAll, picked_append, here, later]
      split <;> rfl

end

theorem extract_eq_declared (source : Text) :
    extract policy file source =
      (declared file source).map fun ds => (ds.filter policy.admits).map (·.function) := by
  rw [extract, declared]
  cases parse source with
  | error e => rfl
  | ok trees => exact congrArg Except.ok (picked_declaredAll policy file [] none true [] trees).symm

end Collect

end Rust

namespace Language

/-- The functions of a source, in order. -/
def declared (l : Language) (file source : Text) : Except ExtractionError (List Declared) :=
  match l with
  | rust => Rust.declared file source
  | v => V.declared file source

theorem extract_eq_declared (l : Language) (policy : Policy) (file source : Text) :
    l.extract policy file source =
      (l.declared file source).map fun ds => (ds.filter policy.admits).map (·.function) := by
  cases l with
  | rust => exact Rust.extract_eq_declared policy file source
  | v => exact V.extract_eq_declared policy file source

theorem extract_unfiltered (l : Language) (policy : Policy) (file source : Text) :
    l.extract policy.unfiltered file source =
      (l.declared file source).map fun ds => ds.map (·.function) := by
  have all (ds : List Declared) : ds.filter policy.unfiltered.admits = ds :=
    List.filter_eq_self.mpr fun d _ => policy.admits_unfiltered d
  simp only [extract_eq_declared, all]

/-- A policy decides whether a function is extracted, and nothing else about it. A source is refused
under a policy exactly when it is refused without the policy's filters, and for the same fault. Without
the filters all declared functions are found; under the policy the same ones in the same order, but for
those whose name holds a part that is to be skipped, and, where private ones are not wanted, those that
are not public. -/
theorem extract_filters (l : Language) (policy : Policy) (file source : Text) :
    (∀ e, l.extract policy file source = .error e ↔
      l.extract policy.unfiltered file source = .error e) ∧
    l.extract policy.unfiltered file source =
      (l.declared file source).map (fun ds => ds.map (·.function)) ∧
    l.extract policy file source = (l.declared file source).map fun ds =>
      (ds.filter fun d => (d.isPublic = true ∨ policy.includePrivate = true) ∧
        ∀ part ∈ policy.skipFunctions, part ≠ [] → contains part d.function.name = false).map
          (·.function) := by
  have picks := l.extract_eq_declared policy file source
  have whole := l.extract_unfiltered policy file source
  refine ⟨fun e => ?_, whole, ?_⟩
  · rw [picks, whole]
    cases l.declared file source with
    | error fault => exact Iff.rfl
    | ok ds => exact iff_of_false nofun nofun
  · simpa only [← Policy.admits_iff, Bool.decide_eq_true] using picks

end Language

end TestSkeleton
