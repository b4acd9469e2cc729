import TestSkeleton.Extraction
import TestSkeleton.Proofs.Discovery.Saved
import TestSkeleton.Proofs.Workspace.Erase

/-! The walk through a project without one of its source files: it meets all the others. -/

namespace TestSkeleton

open Text Workspace Discovery

/-- The names of folders and files that a walk looks for rules in. -/
def ruleNames : List Text :=
  [".gitignore", ".gitconfig", ".git", "info", "exclude"].map String.toList

theorem Language.acceptsName_ruleNames (l : Language) : ∀ name ∈ ruleNames, l.acceptsName name = false := by
  cases l <;> decide

/-- A source file below the root of a project without links. -/
structure SourceAt (w : Workspace) (root : Path) (place : Place) (content : Bytes) : Prop where
  linkless : w.files.Linkless
  wellFormed : w.files.WellFormed
  absolute : root.isAbsolute = true
  rooted : w.files.entryAt? root.parts = some .folder
  file : w.files.entryAt? (root.parts ++ place) = some (.file content)
  regular : w.isFile ⟨root.root, root.parts ++ place⟩ = .ok true
  source : ∃ l : Language, l.acceptsName (Path.name ⟨root.root, root.parts ++ place⟩) = true

namespace SourceAt

variable {w : Workspace} {policy : Policy} {root : Path} {place : Place} {content : Bytes}
  (s : SourceAt w root place content)

include s

/-- Behind a file there is nothing. -/
theorem not_prefix {q : Place} {entry : Entry} (there : w.files.entryAt? q = some entry)
    (apart : q ≠ root.parts ++ place) : ¬root.parts ++ place <+: q := by
  rintro ⟨rest, rfl⟩
  have deeper : rest ≠ [] := by
    rintro rfl
    exact apart (List.append_nil _)
  have folder := s.wellFormed.around deeper there
  rw [s.file] at folder
  cases folder

theorem ne_of_folder {q : Place} (folder : w.files.entryAt? q = some .folder) :
    q ≠ root.parts ++ place := by
  rintro rfl
  rw [s.file] at folder
  cases folder

theorem isStep {q : Place} (there : w.files.entryAt? q ≠ none) : ∀ name ∈ q, FileTree.IsStep name :=
  fun name member =>
    ⟨(s.wellFormed.isName there name member).2.1, (s.wellFormed.isName there name member).2.2.1⟩

/-- No name that rules are looked for by is that of a source file. -/
theorem not_prefix_rules {folder : Place} (there : w.files.entryAt? folder = some .folder) {name : Text}
    (reserved : name ∈ ruleNames) : ¬root.parts ++ place <+: folder ++ [name] := by
  intro inside
  rcases List.prefix_concat_iff.mp inside with same | above
  · obtain ⟨l, accepted⟩ := s.source
    rw [same, Path.name, List.getLast?_concat, Option.getD_some,
      l.acceptsName_ruleNames name reserved] at accepted
    cases accepted
  · exact s.not_prefix there (s.ne_of_folder there) above

theorem rulesAt_ignoreFile {p : Place} (folder : w.files.entryAt? (root.parts ++ p) = some .folder)
    (base : Text) :
    rulesAt (w.without (root.parts ++ place)) base
        ((⟨root.root, root.parts ++ p⟩ : Path).child ".gitignore".toList) =
      rulesAt w base ((⟨root.root, root.parts ++ p⟩ : Path).child ".gitignore".toList) := by
  refine rulesAt_congr _ (entry_without_of_steps s.linkless s.file ?_ ?_ ?_)
  · rw [OutputSaved.ignoreName.child]
    exact s.absolute
  · rw [OutputSaved.ignoreName.child]
    intro name member
    rcases List.mem_append.mp member with above | last
    · exact s.isStep (by simp [folder]) name above
    · rw [List.mem_singleton.mp last]
      exact ⟨OutputSaved.ignoreName.2.1, OutputSaved.ignoreName.2.2.1⟩
  · rw [OutputSaved.ignoreName.child]
    exact s.not_prefix_rules folder (by decide)

theorem ownRules_eq {p : Place} (folder : w.files.entryAt? (root.parts ++ p) = some .folder) :
    ownRules (w.without (root.parts ++ place)) policy root p = ownRules w policy root p := by
  rw [ownRules, ownRules, s.rulesAt_ignoreFile folder]

theorem ownWarnings_eq {p : Place} (folder : w.files.entryAt? (root.parts ++ p) = some .folder) :
    ownWarnings (w.without (root.parts ++ place)) policy root p = ownWarnings w policy root p := by
  rw [ownWarnings, ownWarnings, s.rulesAt_ignoreFile folder]

/-- The repository's own ignore file is read as before. -/
theorem rulesAt_exclude :
    rulesAt (w.without (root.parts ++ place)) [] (root.child ".git/info/exclude".toList) =
      rulesAt w [] (root.child ".git/info/exclude".toList) := by
  refine rulesAt_congr _ (entry_without_of_steps s.linkless s.file ?_ ?_ ?_)
  · rw [OutputSaved.child_exclude]
    exact s.absolute
  · rw [OutputSaved.child_exclude]
    intro name member
    rcases List.mem_append.mp member with above | last
    · exact s.isStep (by simp [s.rooted]) name above
    · exact ⟨(OutputSaved.isName_excludeNames name last).2.1,
        (OutputSaved.isName_excludeNames name last).2.2.1⟩
  · rw [OutputSaved.child_exclude]
    intro inside
    rcases OutputSaved.prefix_append_cases inside with above | ⟨rest, filled, front, same⟩
    · exact s.not_prefix s.rooted (s.ne_of_folder s.rooted) above
    · obtain ⟨l, accepted⟩ := s.source
      have reserved : rest.getLast filled ∈ ruleNames := by
        have member := front.subset (List.getLast_mem filled)
        revert member
        generalize rest.getLast filled = name
        revert name
        decide
      rw [same, Path.name, List.getLast?_append, List.getLast?_eq_some_getLast filled, Option.some_or,
        Option.getD_some, l.acceptsName_ruleNames _ reserved] at accepted
      cases accepted

/-- A folder holds the entries that it held, without the file. -/
theorem entriesIn_eq (p : Place) :
    entriesIn (w.without (root.parts ++ place)) root p =
      (entriesIn w root p).filter fun q => q ≠ place := by
  have named : ∀ name, name ∈ (w.without (root.parts ++ place)).files.namesIn (root.parts ++ p) ↔
      name ∈ w.files.namesIn (root.parts ++ p) ∧ decide (p ++ [name] ≠ place) = true := by
    intro name
    rw [FileTree.mem_namesIn, FileTree.mem_namesIn, files_without, FileTree.mem_keys_erase, List.append_assoc,
      decide_eq_true_eq, ne_eq, ne_eq, List.append_cancel_left_eq]
  have kept := FileTree.namesIn_eq_filter (s.wellFormed.erase s.file) s.wellFormed named
  rw [entriesIn, entriesIn, files_without, kept, List.filter_map]
  rfl

theorem foldersIn_eq (p : Place) :
    foldersIn (w.without (root.parts ++ place)) root p = foldersIn w root p := by
  rw [foldersIn, foldersIn, s.entriesIn_eq, List.filter_filter]
  apply List.filter_congr
  intro q _
  rw [files_without, FileTree.entryAt?_erase (filled_of_file s.file)]
  by_cases here : q = place
  · subst here
    simp [s.file]
  · rw [if_neg (by simpa using here)]
    simp [here]

/-- The walk meets all that it met, in the same order, but not the file. -/
theorem visit_eq {depth depth' : Nat} {p : Place} (rules : List IgnoreRule)
    (folder : w.files.entryAt? (root.parts ++ p) = some .folder)
    (deep : (w.files.below (root.parts ++ p)).length < depth)
    (deep' : ((w.without (root.parts ++ place)).files.below (root.parts ++ p)).length < depth') :
    visit (w.without (root.parts ++ place)) policy root depth' p rules =
      (visit w policy root depth p rules).filter fun v => v ≠ .file place := by
  induction depth generalizing depth' p rules with
  | zero => exact absurd deep (Nat.not_lt_zero _)
  | succ depth ih =>
    cases depth' with
    | zero => exact absurd deep' (Nat.not_lt_zero _)
    | succ depth' =>
      have warnings : (ownWarnings w policy root p).filter (fun v => v ≠ .file place) =
          ownWarnings w policy root p := by
        refine List.filter_eq_self.mpr fun v member => decide_eq_true ?_
        rintro rfl
        have named := OutputSaved.mem_filterMap_place? member
        rw [filterMap_place?_ownWarnings] at named
        cases named
      have folders := s.foldersIn_eq p
      rw [visit_succ, visit_succ, s.ownRules_eq folder, s.ownWarnings_eq folder, s.entriesIn_eq, folders]
      generalize rules ++ ownRules w policy root p = inForce
      rw [List.filter_append, List.filter_append, warnings, List.filter_map, List.filter_filter,
        List.filter_filter, List.filter_flatMap]
      congr 1
      · refine congrArg (fun files => _ ++ List.map Visit.file files) (List.filter_congr fun q _ => ?_)
        rw [leadsToFolder, leadsToFolder, isFolder_without s.linkless s.file]
        simp [Bool.and_comm]
      · apply List.flatMap_congr
        intro q opened
        have listed := (List.mem_filter.mp opened).1
        have isFolder := beq_iff_eq.mp (List.mem_filter.mp listed).2
        have smaller := length_below_lt_of_mem_foldersIn listed
        have smaller' := length_below_lt_of_mem_foldersIn (folders.symm ▸ listed)
        exact ih inForce isFolder (by omega) (by omega)

omit s in
/-- What the walk meets is there. -/
theorem there_of_visited {depth : Nat} {p : Place} {rules : List IgnoreRule} {q : Place}
    (met : .file q ∈ visit w policy root depth p rules) :
    w.files.entryAt? (root.parts ++ q) ≠ none := by
  induction depth generalizing p rules with
  | zero => cases met
  | succ depth ih =>
    rw [visit_succ] at met
    rcases List.mem_append.mp met with here | deeper
    · rcases List.mem_append.mp here with warned | own
      · have named := OutputSaved.mem_filterMap_place? warned
        rw [filterMap_place?_ownWarnings] at named
        cases named
      · obtain ⟨q', kept, same⟩ := List.mem_map.mp own
        cases same
        obtain ⟨name, named, rfl⟩ := List.mem_map.mp (List.mem_filter.mp kept).1
        rw [ne_eq, FileTree.entryAt?_eq_none_iff (by simp), Classical.not_not, ← List.append_assoc]
        exact FileTree.mem_namesIn.mp named
    · obtain ⟨p', -, inside⟩ := List.mem_flatMap.mp deeper
      exact ih inside

/-- The true path of what the walk meets is spelled with the same names. -/
theorem truePath_of_there {q : Place} (there : w.files.entryAt? (root.parts ++ q) ≠ none) :
    truePath w ⟨root.root, root.parts ++ q⟩ = ⟨.slash, root.parts ++ q⟩ := by
  have whole := resolve_names (p := ⟨root.root, root.parts ++ q⟩) s.linkless s.absolute
    (s.wellFormed.isName there)
  rw [truePath, whole]
  rfl

/-- Whatever else the walk meets is as much a file as it was. -/
theorem isFile_other {q : Place} (there : w.files.entryAt? (root.parts ++ q) ≠ none) (other : q ≠ place) :
    (w.without (root.parts ++ place)).isFile ⟨root.root, root.parts ++ q⟩ =
      w.isFile ⟨root.root, root.parts ++ q⟩ := by
  obtain ⟨entry, found⟩ := Option.ne_none_iff_exists'.mp there
  exact isFile_congr (entry_without_of_steps s.linkless s.file s.absolute (s.isStep there)
    (s.not_prefix found (by simpa using other)))

/-- Of what the walk meets, everything but the file becomes what it became. -/
theorem sift_eq (suffixes : List Text) {seen seen' : List Path} {visits : List Visit}
    (there : ∀ q, .file q ∈ visits → w.files.entryAt? (root.parts ++ q) ≠ none)
    (known : ∀ p, p ≠ ⟨.slash, root.parts ++ place⟩ → (p ∈ seen' ↔ p ∈ seen)) :
    sift (w.without (root.parts ++ place)) root suffixes seen' (visits.filter fun v => v ≠ .file place) =
      (sift w root suffixes seen visits).filter fun f =>
        f ≠ .file ⟨root.root, root.parts ++ place⟩ ∧ f ≠ .duplicate ⟨root.root, root.parts ++ place⟩ := by
  induction visits generalizing seen seen' with
  | nil => rfl
  | cons visit visits ih =>
    have later := fun q member => there q (List.mem_cons_of_mem visit member)
    cases visit with
    | warning d =>
      rw [List.filter_cons_of_pos (by simp), sift, sift, List.filter_cons_of_pos (by simp), ih later known]
    | file q =>
      by_cases here : q = place
      · subst here
        have whole := s.truePath_of_there (there q List.mem_cons_self)
        rw [truePath] at whole
        rw [List.filter_cons_of_neg (by simp), sift]
        dsimp only
        split
        · exact ih later known
        · rw [s.regular]
          dsimp only
          rw [whole]
          split
          · rw [List.filter_cons_of_neg (by simp)]
            exact ih later known
          · rw [List.filter_cons_of_neg (by simp)]
            refine ih later fun p apart => (known p apart).trans ?_
            rw [List.mem_cons, or_iff_right apart]
      · have present := there q List.mem_cons_self
        have whole := s.truePath_of_there present
        rw [truePath] at whole
        have seenBefore : seen'.contains ⟨.slash, root.parts ++ q⟩ =
            seen.contains ⟨.slash, root.parts ++ q⟩ := by
          rw [Bool.eq_iff_iff, List.contains_iff_mem, List.contains_iff_mem]
          exact known _ (by simpa using here)
        rw [List.filter_cons_of_pos (by simpa using here), sift, sift]
        dsimp only
        rw [s.isFile_other present here, resolve_without s.linkless s.file, whole, seenBefore]
        split
        · exact ih later known
        · split
          · rw [List.filter_cons_of_pos (by simp), ih later known]
          · exact ih later known
          · split
            · rw [List.filter_cons_of_pos (by simpa using here), ih later known]
            · rw [List.filter_cons_of_pos (by simpa using here)]
              congr 1
              refine ih later fun p apart => ?_
              rw [List.mem_cons, List.mem_cons, known p apart]

theorem rootOf_eq : rootOf (w.without (root.parts ++ place)) root = rootOf w root := by
  have expand : w.expandHome root = .ok root := by
    obtain ⟨begins, parts⟩ := root
    cases begins with
    | relative => cases s.absolute
    | slash => rfl
    | doubleSlash => rfl
  have whole := resolve_names s.linkless s.absolute (s.wellFormed.isName (by simp [s.rooted]))
  have present := isPresent_congr (entry_without_of_steps s.linkless s.file
    (p := ⟨.slash, root.parts⟩) rfl (s.isStep (by simp [s.rooted]))
    (s.not_prefix s.rooted (s.ne_of_folder s.rooted)))
  rw [rootOf, rootOf, expandHome_without, expand, ok_bind, ok_bind, resolve_without s.linkless s.file, whole,
    ok_bind, ok_bind, present, isFolder_without s.linkless s.file]

end SourceAt

/-- A scan finds all that it found, without the file. -/
theorem SourceAt.scan_eq {w : Workspace} {policy : Policy} {root place : Place} {content : Bytes}
    (s : SourceAt w ⟨.slash, root⟩ place content)
    (user : OutputSaved.UserKept w (w.without (root ++ place)) policy) {suffixes : List Text}
    {d : Discovery} (found : scan w policy ⟨.slash, root⟩ suffixes = .ok d) :
    scan (w.without (root ++ place)) policy ⟨.slash, root⟩ suffixes =
      .ok ⟨d.root, d.findings.filter fun f =>
        f ≠ .file ⟨.slash, root ++ place⟩ ∧ f ≠ .duplicate ⟨.slash, root ++ place⟩⟩ := by
  rw [scan_eq_rootOf] at found ⊢
  obtain ⟨top, rooted, found⟩ := bind_eq_ok.mp found
  have resolved := (rootOf_eq_ok rooted).1
  have here : w.expandHome ⟨.slash, root⟩ >>= w.resolve = .ok ⟨.slash, root⟩ :=
    resolve_place s.linkless (s.wellFormed.isName (by simp [s.rooted]))
  obtain rfl := Except.ok.inj (here.symm.trans resolved)
  obtain ⟨⟨rules, warnings⟩, shared, whole⟩ := bind_eq_ok.mp found
  rw [s.rootOf_eq, rooted, ok_bind, sharedRules_congr user fun _ => s.rulesAt_exclude, shared, ok_bind,
    ← pure_eq_ok.mp whole]
  have deep : ∀ v : Workspace, (v.files.below (root ++ [])).length < depthLimit v :=
    fun v => Nat.lt_succ_of_le (FileTree.length_below_le _ _)
  have top : w.files.entryAt? (root ++ []) = some .folder := by rw [List.append_nil, s.rooted]
  have unnamed : ∀ q, .file q ∉ warnings := by
    intro q warned
    rw [sharedRules_eq] at shared
    obtain ⟨user, -, outer⟩ := map_eq_ok.mp shared
    have silent := filterMap_place?_outerRules w policy ⟨.slash, root⟩ user
    have named := OutputSaved.mem_filterMap_place? warned
    rw [outer] at silent
    rw [silent] at named
    cases named
  have kept : warnings.filter (fun v => v ≠ .file place) = warnings :=
    List.filter_eq_self.mpr fun v member => decide_eq_true fun same => unnamed place (same ▸ member)
  have visits : visit (w.without (root ++ place)) policy ⟨.slash, root⟩ (depthLimit _) [] rules =
      (visit w policy ⟨.slash, root⟩ (depthLimit w) [] rules).filter fun v => v ≠ .file place :=
    s.visit_eq rules top (deep w) (deep _)
  have there : ∀ q, .file q ∈ warnings ++ visit w policy ⟨.slash, root⟩ (depthLimit w) [] rules →
      w.files.entryAt? (root ++ q) ≠ none := fun q met =>
    SourceAt.there_of_visited ((List.mem_append.mp met).resolve_left (unnamed q))
  have sifted := s.sift_eq suffixes there fun p _ => (Iff.rfl : p ∈ [] ↔ p ∈ [])
  rw [List.filter_append, kept] at sifted
  dsimp only at sifted ⊢
  rw [visits, sifted]
  rfl

end TestSkeleton
