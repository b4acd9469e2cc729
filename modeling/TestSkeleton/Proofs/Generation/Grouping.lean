import Mathlib.Data.List.Induction
import TestSkeleton.Generation
import TestSkeleton.Proofs.Outcome
import TestSkeleton.Proofs.Table

/-! Which cases a file of a generation is made from. -/

namespace TestSkeleton.GenerationRun

theorem group_append (cases : List Case) (c : Case) :
    group (cases ++ [c]) =
      (group cases).put c.path ((((group cases).get? c.path).getD []) ++ [c]) := by
  simp [group]

/-- The group of a path holds the cases of that path, in their order. -/
theorem get?_group (cases : List Case) (path : Text) :
    (group cases).get? path =
      if cases.filter (·.path == path) = [] then none else some (cases.filter (·.path == path)) := by
  induction cases using List.reverseRecOn with
  | nil => rfl
  | append_singleton cases c ih =>
    rw [group_append, Table.get?_put, List.filter_append]
    by_cases same : path = c.path
    · subst same
      rw [ih]
      by_cases empty : cases.filter (·.path == c.path) = [] <;> simp [empty]
    · have apart : (path == c.path) = false := by simpa using same
      have other : (c.path == path) = false := by simpa using Ne.symm same
      simp [apart, other, ih]

theorem nodup_keys_group (cases : List Case) : (group cases).keys.Nodup := by
  induction cases using List.reverseRecOn with
  | nil => exact List.nodup_nil
  | append_singleton cases c ih =>
    rw [group_append]
    exact Table.nodup_keys_put _ _ ih

theorem mem_group {cases members : List Case} {path : Text} :
    (path, members) ∈ group cases ↔ members = cases.filter (·.path == path) ∧ members ≠ [] := by
  rw [← Table.get?_eq_some_iff (nodup_keys_group cases), get?_group]
  split
  · rename_i empty
    simp [empty]
  · rename_i filled
    rw [Option.some.injEq]
    constructor
    · rintro rfl
      exact ⟨rfl, filled⟩
    · rintro ⟨rfl, -⟩
      rfl

/-- Without a failure there is one file for each group. -/
theorem map_renderAll {w : Workspace} {t : Target} {groups : List (Text × List Case)}
    {rendered : List (TestFile × Nat)} (finished : renderAll w t groups = (rendered, none)) :
    groups.map (fun entry => t.render w entry.1 entry.2) = rendered.map fun file => .ok file.1 := by
  induction groups generalizing rendered with
  | nil =>
    simp only [renderAll, Prod.mk.injEq, and_true] at finished
    subst finished
    rfl
  | cons entry groups ih =>
    obtain ⟨path, cases⟩ := entry
    simp only [renderAll] at finished
    cases first : t.render w path cases with
    | error e => simp [first] at finished
    | ok file =>
      simp only [first, Prod.mk.injEq] at finished
      obtain ⟨rfl, rest⟩ := finished
      rw [List.map_cons, List.map_cons, first, ih (Prod.ext rfl rest)]

theorem render_path {w : Workspace} {t : Target} {path : Text} {cases : List Case} {file : TestFile}
    (written : t.render w path cases = .ok file) : file.path = path := by
  obtain ⟨template, -, filled⟩ := bind_eq_ok.mp written
  cases template with
  | none =>
    obtain ⟨content, -, whole⟩ := bind_eq_ok.mp filled
    rw [← pure_eq_ok.mp whole]
  | some template =>
    obtain ⟨content, -, whole⟩ := bind_eq_ok.mp filled
    rw [← pure_eq_ok.mp whole]

/-- The cases that were found. -/
def cases (r : GenerationRun) : List Case := r.outcomes.filterMap CaseOutcome.case?

/-- The cases of a path. -/
def casesAt (r : GenerationRun) (path : Text) : List Case := r.cases.filter (·.path == path)

section Finished

variable {w : Workspace} {t : Target} {functions : List Function} {generation : Generation}

theorem rendered_of_result (finished : (ofFunctions w t functions).result = .ok generation) :
    renderAll w t (group (ofFunctions w t functions).cases) =
      ((ofFunctions w t functions).rendered, none) ∧
    generation.files = (ofFunctions w t functions).files := by
  unfold result at finished
  split at finished
  · cases finished
  · rename_i whole
    cases finished
    exact ⟨Prod.ext rfl whole, rfl⟩

/-- Every file is made from the group of its path. -/
theorem group_of_mem_files (finished : (ofFunctions w t functions).result = .ok generation)
    {file : TestFile} (member : file ∈ generation.files) :
    (file.path, (ofFunctions w t functions).casesAt file.path) ∈ group (ofFunctions w t functions).cases ∧
      t.render w file.path ((ofFunctions w t functions).casesAt file.path) = .ok file := by
  obtain ⟨whole, files⟩ := rendered_of_result finished
  rw [files, GenerationRun.files, List.mem_map] at member
  obtain ⟨entry, listed, rfl⟩ := member
  have written : Except.ok entry.1 ∈ (group (ofFunctions w t functions).cases).map fun entry =>
      t.render w entry.1 entry.2 := by
    rw [map_renderAll whole]
    exact List.mem_map_of_mem listed
  obtain ⟨⟨path, members⟩, grouped, same⟩ := List.mem_map.mp written
  obtain ⟨shape, -⟩ := mem_group.mp grouped
  dsimp only at same
  rw [render_path same, casesAt, ← shape]
  exact ⟨grouped, same⟩

theorem render_casesAt (finished : (ofFunctions w t functions).result = .ok generation)
    {file : TestFile} (member : file ∈ generation.files) :
    t.render w file.path ((ofFunctions w t functions).casesAt file.path) = .ok file :=
  (group_of_mem_files finished member).2

theorem casesAt_ne_nil (finished : (ofFunctions w t functions).result = .ok generation) {file : TestFile}
    (member : file ∈ generation.files) : (ofFunctions w t functions).casesAt file.path ≠ [] :=
  (mem_group.mp (group_of_mem_files finished member).1).2

/-- Every case is in a file. -/
theorem exists_file_of_mem_cases (finished : (ofFunctions w t functions).result = .ok generation)
    {c : Case} (member : c ∈ (ofFunctions w t functions).cases) :
    ∃ file ∈ generation.files, file.path = c.path := by
  obtain ⟨whole, files⟩ := rendered_of_result finished
  have here : c ∈ (ofFunctions w t functions).casesAt c.path :=
    List.mem_filter.mpr ⟨member, by simp⟩
  have grouped : (c.path, (ofFunctions w t functions).casesAt c.path) ∈
      group (ofFunctions w t functions).cases :=
    mem_group.mpr ⟨rfl, List.ne_nil_of_mem here⟩
  have written := List.mem_map_of_mem (f := fun entry => t.render w entry.1 entry.2) grouped
  rw [map_renderAll whole] at written
  obtain ⟨entry, listed, same⟩ := List.mem_map.mp written
  refine ⟨entry.1, ?_, render_path same.symm⟩
  rw [files, GenerationRun.files]
  exact List.mem_map_of_mem listed

end Finished

end TestSkeleton.GenerationRun
