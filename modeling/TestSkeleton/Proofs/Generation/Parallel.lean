import Mathlib.Data.List.Perm.Basic
import Mathlib.Logic.Relation
import TestSkeleton.Proofs.Generation.WorkUnit

/-! Workers that go through work units side by side.

Units are started in their order, as many at a time as there are workers, and end in any order.
Whatever that order is, the results put together by the numbers of the units are those of one pass. -/

namespace TestSkeleton

/-- Work under way. Each unit has its number, and its result keeps it. -/
structure Pool (α β : Type) where
  waiting : List (α × Nat)
  running : List (α × Nat)
  ended : List (β × Nat)

namespace Pool

variable {α β : Type} {workers : Nat} {work : α → β}

def ofUnits (units : List α) : Pool α β := ⟨units.zipIdx, [], []⟩

/-- A free worker starts the next unit, or the work on any of the started units ends. -/
inductive Step (workers : Nat) (work : α → β) : Pool α β → Pool α β → Prop where
  | start {unit : α × Nat} {waiting running : List (α × Nat)} {ended : List (β × Nat)}
      (free : running.length < workers) :
    Step workers work ⟨unit :: waiting, running, ended⟩ ⟨waiting, unit :: running, ended⟩
  | finish {unit : α} {number : Nat} {waiting before after : List (α × Nat)}
      {ended : List (β × Nat)} :
    Step workers work ⟨waiting, before ++ (unit, number) :: after, ended⟩
      ⟨waiting, before ++ after, (work unit, number) :: ended⟩

def Run (workers : Nat) (work : α → β) : Pool α β → Pool α β → Prop :=
  Relation.ReflTransGen (Step workers work)

def IsDone (p : Pool α β) : Prop := p.waiting = [] ∧ p.running = []

def result? (p : Pool α β) (number : Nat) : Option β :=
  (p.ended.find? (·.2 == number)).map (·.1)

/-- The results of the first units by their numbers, not by the order in which they ended. -/
def results (p : Pool α β) (units : Nat) : List β := (List.range units).filterMap p.result?

/-- All results with their numbers, the ones still to come included. -/
def allResults (work : α → β) (p : Pool α β) : List (β × Nat) :=
  (p.waiting ++ p.running).map (Prod.map work id) ++ p.ended

/-- A step takes no result away and adds none. -/
theorem Step.allResults {p q : Pool α β} (step : Step workers work p q) :
    (q.allResults work).Perm (p.allResults work) := by
  cases step with
  | @start unit waiting running ended free =>
    simp only [Pool.allResults]
    exact (List.perm_middle.map _).append_right _
  | @finish unit number waiting before after ended =>
    have front : ((waiting ++ (before ++ after)).map (Prod.map work id) ++
        (work unit, number) :: ended).Perm _ := List.perm_middle
    have back : ((waiting ++ before) ++ (unit, number) :: after).Perm _ := List.perm_middle
    have taken := (back.map (Prod.map work id)).symm.append_right ended
    simp only [List.append_assoc, List.map_cons, Prod.map_apply, id_eq] at taken
    exact front.trans taken

theorem Run.allResults {p q : Pool α β} (run : Run workers work p q) :
    (q.allResults work).Perm (p.allResults work) := by
  induction run with
  | refl => exact List.Perm.refl _
  | tail _ step ih => exact step.allResults.trans ih

theorem result?_of_perm {p : Pool α β} {results : List β} (all : p.ended.Perm results.zipIdx)
    {number : Nat} (inside : number < results.length) : p.result? number = results[number]? := by
  have here := List.getElem?_eq_getElem inside
  have listed : (results[number], number) ∈ p.ended :=
    all.mem_iff.mpr (List.mem_zipIdx_iff_getElem?.mpr here)
  obtain ⟨found, search⟩ : ∃ found, p.ended.find? (·.2 == number) = some found := by
    rw [← Option.isSome_iff_exists, List.find?_isSome]
    exact ⟨_, listed, beq_self_eq_true number⟩
  have same : found.2 = number := by simpa using List.find?_some search
  have member := all.mem_iff.mp (List.mem_of_find?_eq_some search)
  rw [List.mem_zipIdx_iff_getElem?, same] at member
  rw [result?, search, Option.map_some, member]

theorem filterMap_range_getElem? (l : List β) (n : Nat) :
    (List.range n).filterMap (l[·]?) = l.take n := by
  induction n with
  | zero => rfl
  | succ n ih =>
    rw [List.range_succ, List.filterMap_append, ih, List.take_add_one]
    cases here : l[n]? <;> simp [here]

theorem results_of_perm {p : Pool α β} {results : List β} (all : p.ended.Perm results.zipIdx) :
    p.results results.length = results := by
  have each : p.results results.length = (List.range results.length).filterMap (results[·]?) :=
    List.filterMap_congr fun n member => result?_of_perm all (List.mem_range.mp member)
  rw [each, filterMap_range_getElem?, List.take_length]

/-- When all work is done, the results by number are those of one pass over the units. -/
theorem results_of_run {units : List α} {p : Pool α β}
    (run : Run workers work (ofUnits units) p) (done : p.IsDone) :
    p.results units.length = units.map work := by
  have all := run.allResults
  simp only [Pool.allResults, done.1, done.2, ofUnits, List.append_nil, List.map_nil, List.nil_append,
    List.map_zipIdx] at all
  rw [← List.length_map work]
  exact results_of_perm all

/-- How many steps are left. -/
def remaining (p : Pool α β) : Nat := 2 * p.waiting.length + p.running.length

theorem Step.remaining_lt {p q : Pool α β} (step : Step workers work p q) :
    q.remaining < p.remaining := by
  cases step with
  | start free =>
    simp only [remaining, List.length_cons]
    omega
  | finish =>
    simp only [remaining, List.length_append, List.length_cons]
    omega

/-- Work that is not done goes on. -/
theorem exists_step (manned : 0 < workers) (work : α → β) {p : Pool α β} (undone : ¬p.IsDone) :
    ∃ q, Step workers work p q := by
  obtain ⟨waiting, running, ended⟩ := p
  cases running with
  | cons unit running =>
    have step : Step workers work ⟨waiting, [] ++ unit :: running, ended⟩ _ := Step.finish
    exact ⟨_, step⟩
  | nil =>
    cases waiting with
    | cons unit waiting => exact ⟨_, Step.start manned⟩
    | nil => exact absurd ⟨rfl, rfl⟩ undone

/-- Work can be brought to its end from wherever it is. -/
theorem exists_done (manned : 0 < workers) (work : α → β) (p : Pool α β) :
    ∃ q, Run workers work p q ∧ q.IsDone := by
  by_cases done : p.IsDone
  · exact ⟨p, Relation.ReflTransGen.refl, done⟩
  · obtain ⟨next, step⟩ := exists_step manned work done
    obtain ⟨q, run, done⟩ := exists_done manned work next
    exact ⟨q, Relation.ReflTransGen.head step run, done⟩
termination_by p.remaining
decreasing_by exact step.remaining_lt

end Pool

/-! Generation with workers side by side gives what generation without them gives. -/

def Policy.withParallel (p : Policy) (parallel : Bool) : Policy := { p with parallel }

namespace Target

def withParallel (t : Target) (parallel : Bool) : Target :=
  { t with policy := t.policy.withParallel parallel }

theorem ofProject_withParallel (w : Workspace) (language : Text) (root : Path) (policy : Policy)
    (parallel : Bool) : ofProject w language root (policy.withParallel parallel) =
      (ofProject w language root policy).map (·.withParallel parallel) := by
  have crate : Crate.detect w root (policy.withParallel parallel) = Crate.detect w root policy := rfl
  unfold ofProject
  rw [crate]
  cases Language.ofName? language with
  | none => rfl
  | some l =>
    cases l with
    | rust => cases Crate.detect w root policy <;> rfl
    | v => rfl

theorem render_withParallel (w : Workspace) (t : Target) (parallel : Bool) :
    (t.withParallel parallel).render w = t.render w := rfl

theorem buildCase_withParallel (w : Workspace) (t : Target) (parallel : Bool) :
    (t.withParallel parallel).buildCase w = t.buildCase w := rfl

end Target

namespace GenerationRun

/-- How many workers share the work: as many as are asked for, or else one for each unit as far as
there are processors. Zero asks for nothing, and an unknown number of processors counts as one. -/
def workersFor (asked processors : Option Nat) (units : Nat) : Nat :=
  (asked.filter (0 < ·)).getD (min units ((processors.filter (0 < ·)).getD 1))

theorem workersFor_pos (asked processors : Option Nat) {units : Nat} (several : 0 < units) :
    0 < workersFor asked processors units := by
  have filled : ∀ (given : Option Nat) {other : Nat}, 0 < other →
      0 < (given.filter (0 < ·)).getD other := by
    intro given other positive
    cases given with
    | none => exact positive
    | some n =>
      rw [Option.filter_some]
      split
      · rename_i more
        exact of_decide_eq_true more
      · exact positive
  exact filled asked (Nat.lt_min.mpr ⟨several, filled processors Nat.one_pos⟩)

/-- How the outcomes of functions can come about: at once, or unit by unit with workers that end in
any order. -/
inductive Gathers (w : Workspace) (t : Target) (asked processors : Option Nat)
    (functions : List Function) : List CaseOutcome → Prop where
  | atOnce (whole : split? t.policy functions = none) :
    Gathers w t asked processors functions (attempt w t functions)
  | inUnits {units : List (List Function)} {pool : Pool (List Function) (List CaseOutcome)}
      (split : split? t.policy functions = some units)
      (run : Pool.Run (workersFor asked processors units.length) (attempt w t)
        (Pool.ofUnits units) pool)
      (done : pool.IsDone) :
    Gathers w t asked processors functions (pool.results units.length).flatten

section Gathers

variable {w : Workspace} {t : Target} {asked processors : Option Nat} {functions : List Function}

theorem Gathers.outcomes_eq {outcomes : List CaseOutcome}
    (gathers : Gathers w t asked processors functions outcomes) :
    outcomes = attempt w t functions := by
  cases gathers with
  | atOnce whole => rfl
  | inUnits split run done =>
    rw [Pool.results_of_run run done, ← List.flatMap_def, flatMap_attempt, flatten_of_split? split]

variable (w t asked processors functions) in
/-- The work comes to an end, so that there are outcomes. -/
theorem gathers_attempt : Gathers w t asked processors functions (attempt w t functions) := by
  cases split : split? t.policy functions with
  | none => exact Gathers.atOnce split
  | some units =>
    have several : 0 < units.length := by
      obtain ⟨rfl, filled⟩ := unitsOf_of_split? split
      exact List.length_pos_iff.mpr (unitsOf_ne_nil filled)
    obtain ⟨pool, run, done⟩ := Pool.exists_done (workersFor_pos asked processors several)
      (attempt w t) (Pool.ofUnits units)
    have gathers := Gathers.inUnits split run done
    rwa [gathers.outcomes_eq] at gathers

end Gathers

/-- The test files of the functions of a project. -/
def generate (w : Workspace) (language : Text) (root : Path) (policy : Policy)
    (functions : List Function) : Except Failure Generation := do
  let t ← Target.ofProject w language root policy
  (ofFunctions w t functions).result

/-- What a generation can come to, given how many workers are asked for and there are processors. -/
inductive Generates (w : Workspace) (language : Text) (root : Path) (policy : Policy)
    (functions : List Function) (asked processors : Option Nat) : Except Failure Generation → Prop where
  | refused {cause : Failure} (untargeted : Target.ofProject w language root policy = .error cause) :
    Generates w language root policy functions asked processors (.error cause)
  | ended {t : Target} {outcomes : List CaseOutcome}
      (target : Target.ofProject w language root policy = .ok t)
      (gathers : Gathers w t asked processors (kept t functions) outcomes) :
    Generates w language root policy functions asked processors
      (ofOutcomes w t (kept t functions) outcomes).result

/-- The result of a generation is one that it can come to. -/
theorem generates_generate (w : Workspace) (language : Text) (root : Path) (policy : Policy)
    (functions : List Function) (asked processors : Option Nat) :
    Generates w language root policy functions asked processors
      (generate w language root policy functions) := by
  unfold generate
  cases target : Target.ofProject w language root policy with
  | error cause => exact Generates.refused target
  | ok t =>
    have ended := Generates.ended target
      (gathers_attempt w t asked processors (kept t functions))
    rwa [← ofFunctions_eq] at ended

theorem Generates.eq_generate {w : Workspace} {language : Text} {root : Path} {policy : Policy}
    {functions : List Function} {asked processors : Option Nat} {outcome : Except Failure Generation}
    (generates : Generates w language root policy functions asked processors outcome) :
    outcome = generate w language root policy functions := by
  cases generates with
  | refused untargeted =>
    rw [generate, untargeted]
    rfl
  | ended target gathers =>
    rw [generate, target, gathers.outcomes_eq, ← ofFunctions_eq]
    rfl

theorem renderAll_withParallel (w : Workspace) (t : Target) (parallel : Bool)
    (groups : List (Text × List Case)) :
    renderAll w (t.withParallel parallel) groups = renderAll w t groups := by
  induction groups with
  | nil => rfl
  | cons entry groups ih =>
    obtain ⟨path, cases⟩ := entry
    simp only [renderAll, Target.render_withParallel, ih]

theorem result_withParallel (w : Workspace) (t : Target) (parallel : Bool)
    (functions : List Function) :
    (ofFunctions w (t.withParallel parallel) functions).result =
      (ofFunctions w t functions).result := by
  have same : attempt w (t.withParallel parallel) = attempt w t := by
    funext fs
    simp only [attempt, Target.buildCase_withParallel]
  have keeps : kept (t.withParallel parallel) functions = kept t functions := rfl
  rw [ofFunctions_eq, ofFunctions_eq, keeps, same]
  simp only [ofOutcomes, result, files, diagnostics, renderAll_withParallel]

theorem generate_withParallel (w : Workspace) (language : Text) (root : Path) (policy : Policy)
    (functions : List Function) (parallel : Bool) :
    generate w language root (policy.withParallel parallel) functions =
      generate w language root policy functions := by
  unfold generate
  rw [Target.ofProject_withParallel]
  cases Target.ofProject w language root policy with
  | error cause => rfl
  | ok t => exact result_withParallel w t parallel functions

/-- With workers or without, a generation comes to one result: its files, their order and the warnings
depend neither on the size of the work units, nor on the number of workers, nor on which of them ends
first. -/
theorem parallel_eq_sequential (w : Workspace) (language : Text) (root : Path) (policy : Policy)
    (functions : List Function) (asked processors : Option Nat) :
    Generates w language root (policy.withParallel true) functions asked processors
        (generate w language root (policy.withParallel true) functions) ∧
      ∀ outcome, Generates w language root (policy.withParallel true) functions asked processors outcome →
        outcome = generate w language root (policy.withParallel false) functions := by
  refine ⟨generates_generate _ _ _ _ _ _ _, fun outcome generates => ?_⟩
  rw [generates.eq_generate, generate_withParallel, generate_withParallel]

end GenerationRun

end TestSkeleton
