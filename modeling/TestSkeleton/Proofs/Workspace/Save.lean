import TestSkeleton.Proofs.Workspace.Change

/-! What saving files changes: missing folders are made, and every file gets its content. Saving the
same files again changes nothing. -/

namespace TestSkeleton.Change

/-- The name of the file beside a file of that name. -/
def temporaryName (tag name : Text) : Text := ['.'] ++ name ++ ['.'] ++ tag ++ ".tmp".toList

theorem isStep_temporaryName (tag name : Text) : FileTree.IsStep (temporaryName tag name) := by
  have long : 4 < (temporaryName tag name).length := by simp [temporaryName]; omega
  constructor <;> intro same <;> simp [same, Path.up] at long

theorem temporary_place {tag name : Text} {place : Place} (w : Workspace)
    (names : ∀ n ∈ place, Path.IsName n) :
    temporary tag w ⟨.slash, place ++ [name]⟩ = ⟨.slash, place ++ [temporaryName tag name]⟩ := by
  have parent : (⟨.slash, place ++ [name]⟩ : Path).parent = ⟨.slash, place⟩ := by simp [Path.parent]
  have own : (⟨.slash, place ++ [name]⟩ : Path).name = name := by simp [Path.name]
  have absolute : w.absolute ⟨.slash, place⟩ = ⟨.slash, place⟩ := by
    have kept := Workspace.withoutSteps_append_names [] names
    rw [List.nil_append] at kept
    rw [Workspace.absolute, kept]
    rfl
  rw [temporary, parent, own, absolute]
  rfl

theorem run_writeOpen (place : Place) (content : Bytes) (refusal : Option (Nat × FileError))
    (w : Workspace) : (writeOpen place content refusal).run w =
      match refusal with
      | none => (.ok (), w.put place (.file content))
      | some (written, e) => (.error e, w.put place (.file (content.take written))) := by
  cases refusal <;> rfl

/-- A file that could be opened holds the content afterwards, or as much of it as was written. -/
theorem run_writeFile (p : Path) (content : Bytes) (refusals : Refusals) (w : Workspace) :
    (writeFile p content refusals).run w =
      match w.locate p with
      | .error fault => (.error (faultAt p fault), w)
      | .ok spot =>
        if spot.entry = some .folder then (.error (faultAt p .isFolder), w)
        else match refusals.opening, refusals.writing with
          | some e, _ => (.error e, w)
          | none, none => (.ok (), w.put spot.place (.file content))
          | none, some (written, e) => (.error e, w.put spot.place (.file (content.take written))) := by
  rw [writeFile, run_bind, run_locate]
  cases w.locate p with
  | error fault => rfl
  | ok spot =>
    dsimp only [Except.mapError]
    split
    · rfl
    · rw [run_bind, run_refuse]
      cases refusals.opening with
      | some e => rfl
      | none =>
        dsimp only
        rw [run_writeOpen]
        cases refusals.writing <;> rfl

theorem run_writeFile_eq_ok {p : Path} {content : Bytes} {refusals : Refusals} {w w' : Workspace} :
    (writeFile p content refusals).run w = (.ok (), w') ↔
      ∃ spot, w.locate p = .ok spot ∧ spot.entry ≠ some .folder ∧ refusals.opening = none ∧
        refusals.writing = none ∧ w' = w.put spot.place (.file content) := by
  rw [run_writeFile]
  constructor
  · intro written
    split at written
    · cases written
    · rename_i spot located
      split at written
      · cases written
      · rename_i closed
        split at written
        · cases written
        · cases written
          exact ⟨spot, located, closed, ‹_›, ‹_›, rfl⟩
        · cases written
  · rintro ⟨spot, located, closed, opening, writing, rfl⟩
    rw [located]
    dsimp only
    rw [if_neg closed, opening, writing]

theorem openNew_eq_ok {p : Path} {refusal : Option FileError} {place : Place} {w w' : Workspace} :
    (openNew p refusal).run w = (.ok place, w') ↔
      w.locate p false = .ok ⟨place, none⟩ ∧ refusal = none ∧ w' = w.put place (.file []) := by
  rw [openNew, run_bind, run_locate]
  cases w.locate p false with
  | error fault =>
    constructor
    · intro opened
      cases opened
    · rintro ⟨located, -⟩
      cases located
  | ok spot =>
    obtain ⟨end_, entry⟩ := spot
    cases entry with
    | some entry =>
      constructor
      · intro opened
        cases opened
      · rintro ⟨located, -⟩
        cases located
    | none =>
      cases refusal with
      | some e =>
        constructor
        · intro opened
          cases opened
        · rintro ⟨-, refused, -⟩
          cases refused
      | none =>
        constructor
        · intro opened
          cases opened
          exact ⟨rfl, rfl, rfl⟩
        · rintro ⟨located, -, rfl⟩
          cases located
          rfl

theorem run_openNew_error {p : Path} {refusal : Option FileError} {e : FileError} {w w' : Workspace}
    (failed : (openNew p refusal).run w = (.error e, w')) : w' = w := by
  rw [openNew, run_bind, run_locate] at failed
  cases located : w.locate p false with
  | error fault =>
    rw [located] at failed
    cases failed
    rfl
  | ok spot =>
    rw [located] at failed
    obtain ⟨end_, entry⟩ := spot
    cases entry with
    | some entry =>
      cases failed
      rfl
    | none =>
      cases refusal with
      | some e =>
        cases failed
        rfl
      | none => cases failed

theorem run_rename (source target : Path) (refusal : Option FileError) (w : Workspace) :
    (rename source target refusal).run w =
      match w.locate source false, w.locate target false with
      | .error fault, _ => (.error ⟨fault, source.text, some target.text⟩, w)
      | _, .error fault => (.error ⟨fault, source.text, some target.text⟩, w)
      | .ok origin, .ok goal =>
        match origin.entry with
        | none => (.error ⟨.notFound, source.text, some target.text⟩, w)
        | some entry =>
          if target.parts.getLast?.all (· = Path.up) then
            (.error ⟨.busy, source.text, some target.text⟩, w)
          else if goal.entry = some .folder then
            (.error ⟨.isFolder, source.text, some target.text⟩, w)
          else match refusal with
            | some e => (.error e, w)
            | none =>
              (.ok (), { w with files := (w.files.erase origin.place).put goal.place entry }) := by
  rw [rename, run_bind, run_get]
  dsimp only
  cases w.locate source false with
  | error fault => rfl
  | ok origin =>
    cases w.locate target false with
    | error fault => rfl
    | ok goal =>
      dsimp only
      cases origin.entry with
      | none => rfl
      | some entry =>
        dsimp only
        split
        · rfl
        · split
          · rfl
          · cases refusal <;> rfl

section Save

variable {w : Workspace} {place : Place} {tag name : Text}

theorem prefix_of_append_singleton {front rest : Place} {n : Text} (shape : place ++ [n] = front ++ rest)
    (more : rest ≠ []) : front <+: place := by
  have shorter : front <+: (place ++ [n]).dropLast := by
    rw [shape, List.dropLast_append_of_ne_nil more]
    exact List.prefix_append _ _
  rwa [List.dropLast_concat] at shorter

theorem isStep_append {n : Text} (names : ∀ m ∈ place, Path.IsName m) (step : FileTree.IsStep n) :
    ∀ m ∈ place ++ [n], FileTree.IsStep m := by
  intro m member
  rcases List.mem_append.mp member with above | last
  · exact ⟨(names m above).2.1, (names m above).2.2.1⟩
  · rw [List.mem_singleton.mp last]
    exact step

/-- In a folder that is there, a path leads to what bears its last name. -/
theorem locate_in_folder (linkless : w.files.Linkless) (names : ∀ m ∈ place, Path.IsName m)
    (folders : ∀ q, q <+: place → w.files.entryAt? q = some .folder) {n : Text}
    (step : FileTree.IsStep n) (within : Workspace.IsWithin (place ++ [n])) (followLast : Bool) :
    w.locate ⟨.slash, place ++ [n]⟩ followLast =
      .ok ⟨place ++ [n], w.files.entryAt? (place ++ [n])⟩ :=
  (Workspace.locate_place linkless (isStep_append names step) followLast).mpr
    ⟨within, fun front _ shape more => folders front (prefix_of_append_singleton shape more), rfl⟩

theorem length_le_temporaryName (tag name : Text) :
    (Utf8.encode name).length ≤ (Utf8.encode (temporaryName tag name)).length := by
  simp only [temporaryName, Utf8.encode, List.flatMap_append, List.length_append]
  omega

theorem append_ne {n m : Text} (other : n ≠ m) : place ++ [n] ≠ place ++ [m] := fun same =>
  other (List.singleton_inj.mp (List.append_cancel_left same))

theorem temporaryName_ne (tag name : Text) : temporaryName tag name ≠ name := by
  intro same
  have lengths := congrArg List.length same
  simp [temporaryName] at lengths
  omega

/-- A temporary file takes a name over and leaves no trace. -/
theorem run_rename_temporary (linkless : w.files.Linkless) (names : ∀ m ∈ place, Path.IsName m)
    (isName : Path.IsName name)
    (folders : ∀ q, q <+: place → w.files.entryAt? q = some .folder)
    (fresh : w.files.entryAt? (place ++ [temporaryName tag name]) = none)
    (within : Workspace.IsWithin (place ++ [temporaryName tag name])) (content : Bytes) :
    (rename ⟨.slash, place ++ [temporaryName tag name]⟩ ⟨.slash, place ++ [name]⟩ none).run
        (w.put (place ++ [temporaryName tag name]) (.file content)) =
      if w.files.entryAt? (place ++ [name]) = some .folder then
        (.error ⟨.isFolder, Path.text ⟨.slash, place ++ [temporaryName tag name]⟩,
            some (Path.text ⟨.slash, place ++ [name]⟩)⟩,
          w.put (place ++ [temporaryName tag name]) (.file content))
      else (.ok (), w.put (place ++ [name]) (.file content)) := by
  have filled : place ++ [temporaryName tag name] ≠ [] := by simp
  have kept : ∀ q, q <+: place →
      (w.put (place ++ [temporaryName tag name]) (.file content)).files.entryAt? q =
        some .folder := by
    intro q inside
    have other : q ≠ place ++ [temporaryName tag name] := by
      rintro rfl
      exact not_deeper_inside _ inside
    rw [Workspace.entryAt?_put filled, if_neg other]
    exact folders q inside
  have written : (w.put (place ++ [temporaryName tag name]) (.file content)).files.Linkless :=
    linkless.put filled rfl
  have source := locate_in_folder written names kept (isStep_temporaryName tag name) within false
  have target := locate_in_folder written names kept ⟨isName.2.1, isName.2.2.1⟩
    (within.sibling (length_le_temporaryName tag name)) false
  rw [Workspace.entryAt?_put filled, if_pos rfl] at source
  rw [Workspace.entryAt?_put filled, if_neg (append_ne (temporaryName_ne tag name).symm)] at target
  have last : (place ++ [name]).getLast?.all (· = Path.up) = false := by
    simpa using isName.2.2.1
  rw [run_rename, source, target]
  dsimp only
  rw [last, if_neg (by simp)]
  have erased : (w.put (place ++ [temporaryName tag name]) (.file content)).files.erase
      (place ++ [temporaryName tag name]) = w.files := FileTree.erase_put filled fresh
  rw [erased]
  rfl

variable {file : TestFile}

/-- Saving puts the content where the path leads, once the folder is there. -/
theorem run_save {w₁ : Workspace} (target : Path.read file.path = ⟨.slash, place ++ [name]⟩)
    (names : ∀ m ∈ place, Path.IsName m) (isName : Path.IsName name)
    (made : (ensureFolders ⟨.slash, place⟩).run w = (.ok (), w₁)) (linkless : w₁.files.Linkless)
    (folders : ∀ q, q <+: place → w₁.files.entryAt? q = some .folder)
    (fresh : w₁.files.entryAt? (place ++ [temporaryName tag name]) = none) {p : Path}
    {w' : Workspace} :
    (save { tag } file).run w = (.ok p, w') ↔
      Workspace.IsWithin (place ++ [temporaryName tag name]) ∧
      w₁.files.entryAt? (place ++ [name]) ≠ some .folder ∧
      p = ⟨.slash, place ++ [name]⟩ ∧
      w' = w₁.put (place ++ [name]) (.file (Utf8.encode file.content)) := by
  have parent : (⟨.slash, place ++ [name]⟩ : Path).parent = ⟨.slash, place⟩ := by simp [Path.parent]
  have located := locate_in_folder linkless names folders (isStep_temporaryName tag name)
  have written : (do
        writeOpen (place ++ [temporaryName tag name]) (Utf8.encode file.content) none
        rename ⟨.slash, place ++ [temporaryName tag name]⟩ ⟨.slash, place ++ [name]⟩ none :
          Change Unit).run (w₁.put (place ++ [temporaryName tag name]) (.file [])) =
      (rename ⟨.slash, place ++ [temporaryName tag name]⟩ ⟨.slash, place ++ [name]⟩ none).run
        (w₁.put (place ++ [temporaryName tag name]) (.file (Utf8.encode file.content))) := by
    rw [run_bind, run_writeOpen]
    dsimp only
    rw [Workspace.put_put]
  rw [save, target, parent, run_bind, made]
  dsimp only
  rw [run_bind, run_get]
  dsimp only
  rw [temporary_place _ names]
  constructor
  · intro done
    obtain ⟨handle, w₂, opened, done⟩ := run_bind_eq_ok.mp done
    obtain ⟨found, -, rfl⟩ := openNew_eq_ok.mp opened
    obtain ⟨within, -, same⟩ := (Workspace.locate_place linkless
      (isStep_append names (isStep_temporaryName tag name)) false).mp found
    obtain rfl : handle = place ++ [temporaryName tag name] := congrArg Spot.place same
    obtain ⟨_, w₃, renamed, done⟩ := run_bind_eq_ok.mp done
    rw [run_tryCatch, written,
      run_rename_temporary linkless names isName folders fresh within] at renamed
    by_cases closed : w₁.files.entryAt? (place ++ [name]) = some .folder
    · rw [if_pos closed] at renamed
      obtain ⟨_, w₄, -, threw⟩ := run_bind_eq_ok.mp renamed
      cases threw
    · rw [if_neg closed] at renamed
      obtain ⟨-, rfl⟩ := Prod.mk.inj renamed
      obtain ⟨same, rfl⟩ := Prod.mk.inj done
      exact ⟨within, closed, (Except.ok.inj same).symm, rfl⟩
  · rintro ⟨within, closed, rfl, rfl⟩
    have free : w₁.locate ⟨.slash, place ++ [temporaryName tag name]⟩ false =
        .ok ⟨place ++ [temporaryName tag name], none⟩ := by
      rw [located within false, fresh]
    refine run_bind_eq_ok.mpr ⟨_, _, openNew_eq_ok.mpr ⟨free, rfl, rfl⟩, ?_⟩
    refine run_bind_eq_ok.mpr ⟨(), _, ?_, run_pure _ _⟩
    rw [run_tryCatch, written,
      run_rename_temporary linkless names isName folders fresh within, if_neg closed]

/-- A saved file is one more file in its folder. -/
theorem grown_of_save (linkless : w.files.Linkless) (wellFormed : w.files.WellFormed)
    (target : Path.read file.path = ⟨.slash, place ++ [name]⟩)
    (names : ∀ m ∈ place, Path.IsName m) (isName : Path.IsName name)
    (fresh : w.files.entryAt? (place ++ [temporaryName tag name]) = none) {p : Path}
    {w' : Workspace} (done : (save { tag } file).run w = (.ok p, w')) :
    Grown place [name] w w' ∧
      w'.files.entryAt? (place ++ [name]) = some (.file (Utf8.encode file.content)) ∧
      Workspace.IsWithin (place ++ [temporaryName tag name]) := by
  have parent : (⟨.slash, place ++ [name]⟩ : Path).parent = ⟨.slash, place⟩ := by simp [Path.parent]
  have opened := done
  rw [save, target, parent] at opened
  obtain ⟨_, w₁, made, -⟩ := run_bind_eq_ok.mp opened
  have folder := grown_of_ensureFolders linkless wellFormed names made
  have hidden : w₁.files.entryAt? (place ++ [temporaryName tag name]) = none := by
    rw [folder.apart _ (not_deeper_inside _) (by simp), fresh]
  obtain ⟨within, closed, -, rfl⟩ :=
    (run_save target names isName made folder.linkless folder.folders hidden).mp done
  have filled : place ++ [name] ≠ [] := by simp
  have entries : ∀ q, (w₁.put (place ++ [name]) (.file (Utf8.encode file.content))).files.entryAt? q =
      if q = place ++ [name] then some (.file (Utf8.encode file.content))
      else w₁.files.entryAt? q := Workspace.entryAt?_put filled
  have other : ∀ q, q <+: place → q ≠ place ++ [name] := by
    rintro q inside rfl
    exact not_deeper_inside name inside
  refine ⟨⟨folder.current, folder.environment, folder.linkless.put filled rfl, ?_, ?_,
    folder.before, ?_, ?_, ?_⟩, ?_, within⟩
  · exact folder.wellFormed.put isName (folder.folders place List.prefix_rfl) fun found =>
      absurd found closed
  · intro q inside
    rw [entries, if_neg (other q inside)]
    exact folder.folders q inside
  · intro q outside apart
    rw [entries, if_neg (apart name List.mem_cons_self)]
    exact folder.apart q outside (by simp)
  · intro n member
    rw [List.mem_singleton.mp member, entries, if_pos rfl]
    exact ⟨_, rfl⟩
  · intro n member
    rw [List.mem_singleton.mp member, ← folder.apart _ (not_deeper_inside _) (by simp)]
    exact closed
  · rw [entries, if_pos rfl]

/-- Saving a file that is there already changes nothing. -/
theorem run_save_again (linkless : w.files.Linkless)
    (target : Path.read file.path = ⟨.slash, place ++ [name]⟩)
    (names : ∀ m ∈ place, Path.IsName m) (isName : Path.IsName name)
    (folders : ∀ q, q <+: place → w.files.entryAt? q = some .folder)
    (there : w.files.entryAt? (place ++ [name]) = some (.file (Utf8.encode file.content)))
    (fresh : w.files.entryAt? (place ++ [temporaryName tag name]) = none)
    (within : Workspace.IsWithin (place ++ [temporaryName tag name])) :
    (save { tag } file).run w = (.ok ⟨.slash, place ++ [name]⟩, w) := by
  have steps : ∀ m ∈ place, FileTree.IsStep m :=
    fun m member => ⟨(names m member).2.1, (names m member).2.2.1⟩
  have made : (ensureFolders ⟨.slash, place⟩).run w = (.ok (), w) :=
    run_ensureFolders_again linkless steps folders within.outer .none
  refine (run_save target names isName made linkless folders fresh).mpr ⟨within, ?_, rfl, ?_⟩
  · rw [there]
    simp
  · have kept : w.files.put (place ++ [name]) (.file (Utf8.encode file.content)) = w.files :=
      FileTree.put_eq_self (by simp) there
    rw [Workspace.put, kept]

end Save

section SaveAll

variable {place : Place} {tag : Text}

/-- The name that a file has in its folder. -/
def fileName (file : TestFile) : Text := (Path.read file.path).name

/-- Files whose paths lead into one folder, by names that neither repeat nor could be temporary. -/
structure Together (place : Place) (files : List TestFile) : Prop where
  target : ∀ file ∈ files, Path.read file.path = ⟨.slash, place ++ [fileName file]⟩
  isName : ∀ file ∈ files, Path.IsName (fileName file)
  distinct : (files.map fileName).Nodup
  lasting : ∀ file ∈ files, ∀ tag name, fileName file ≠ temporaryName tag name

theorem Together.tail {file : TestFile} {files : List TestFile}
    (together : Together place (file :: files)) : Together place files where
  target f member := together.target f (List.mem_cons_of_mem _ member)
  isName f member := together.isName f (List.mem_cons_of_mem _ member)
  distinct := (List.nodup_cons.mp together.distinct).2
  lasting f member := together.lasting f (List.mem_cons_of_mem _ member)

/-- Where files were saved, no temporary file was left. -/
theorem Grown.fresh {files : List TestFile} {w w' : Workspace}
    (grown : Grown place (files.map fileName) w w') (together : Together place files) {tag name : Text}
    (fresh : w.files.entryAt? (place ++ [temporaryName tag name]) = none) :
    w'.files.entryAt? (place ++ [temporaryName tag name]) = none := by
  rw [grown.apart _ (not_deeper_inside _), fresh]
  intro n member
  obtain ⟨file, listed, rfl⟩ := List.mem_map.mp member
  exact append_ne (together.lasting file listed tag name).symm

/-- Saved files are there, with all that was there before. -/
theorem grown_of_saveAll {files : List TestFile} {w w' : Workspace} (linkless : w.files.Linkless)
    (wellFormed : w.files.WellFormed) (names : ∀ m ∈ place, Path.IsName m)
    (together : Together place files)
    (fresh : ∀ file ∈ files,
      w.files.entryAt? (place ++ [temporaryName tag (fileName file)]) = none)
    (filled : files ≠ []) {paths : List Path}
    (done : (saveAll tag files).run w = (.ok paths, w')) :
    Grown place (files.map fileName) w w' ∧
      ∀ file ∈ files,
        w'.files.entryAt? (place ++ [fileName file]) = some (.file (Utf8.encode file.content)) ∧
        Workspace.IsWithin (place ++ [temporaryName tag (fileName file)]) := by
  induction files generalizing w paths with
  | nil => exact absurd rfl filled
  | cons file files ih =>
    rw [saveAll, saveEach, List.map_cons, List.mapM_cons] at done
    obtain ⟨p, w₁, first, done⟩ := run_bind_eq_ok.mp done
    obtain ⟨ps, w₂, rest, ended⟩ := run_bind_eq_ok.mp done
    obtain ⟨-, rfl⟩ := Prod.mk.inj ended
    obtain ⟨grown, there, within⟩ := grown_of_save linkless wellFormed
      (together.target file List.mem_cons_self) names (together.isName file List.mem_cons_self)
      (fresh file List.mem_cons_self) first
    obtain ⟨absent, -⟩ := List.nodup_cons.mp together.distinct
    by_cases last : files = []
    · subst last
      obtain ⟨-, rfl⟩ := Prod.mk.inj rest
      exact ⟨grown, by simpa using ⟨there, within⟩⟩
    · have single : Together place [file] :=
        ⟨by simpa using together.target file List.mem_cons_self,
          by simpa using together.isName file List.mem_cons_self, by simp,
          by simpa using together.lasting file List.mem_cons_self⟩
      have alone : Grown place ([file].map fileName) w w₁ := grown
      have later : ∀ f ∈ files,
          w₁.files.entryAt? (place ++ [temporaryName tag (fileName f)]) = none :=
        fun f member => alone.fresh single (fresh f (List.mem_cons_of_mem _ member))
      obtain ⟨more, contents⟩ :=
        ih grown.linkless grown.wellFormed together.tail later last rest
      refine ⟨grown.trans more, fun f member => ?_⟩
      rcases List.mem_cons.mp member with rfl | inside
      · refine ⟨?_, within⟩
        rw [more.apart _ (not_deeper_inside _), there]
        rintro n listed same
        rw [List.singleton_inj.mp (List.append_cancel_left same)] at absent
        exact absent listed
      · exact contents f inside

/-- Saving files that are there already changes nothing. -/
theorem run_saveAll_again {files : List TestFile} {w : Workspace} (linkless : w.files.Linkless)
    (names : ∀ m ∈ place, Path.IsName m) (together : Together place files)
    (folders : ∀ q, q <+: place → w.files.entryAt? q = some .folder)
    (there : ∀ file ∈ files,
      w.files.entryAt? (place ++ [fileName file]) = some (.file (Utf8.encode file.content)) ∧
      w.files.entryAt? (place ++ [temporaryName tag (fileName file)]) = none ∧
      Workspace.IsWithin (place ++ [temporaryName tag (fileName file)])) :
    ∃ paths, (saveAll tag files).run w = (.ok paths, w) := by
  induction files with
  | nil => exact ⟨[], rfl⟩
  | cons file files ih =>
    obtain ⟨content, fresh, within⟩ := there file List.mem_cons_self
    obtain ⟨paths, rest⟩ := ih together.tail fun f member => there f (List.mem_cons_of_mem _ member)
    have first := run_save_again linkless (together.target file List.mem_cons_self) names
      (together.isName file List.mem_cons_self) folders content fresh within
    refine ⟨⟨.slash, place ++ [fileName file]⟩ :: paths, ?_⟩
    rw [saveAll, saveEach, List.map_cons, List.mapM_cons]
    exact run_bind_eq_ok.mpr ⟨_, w, first, run_bind_eq_ok.mpr ⟨_, w, rest, rfl⟩⟩

end SaveAll

end TestSkeleton.Change
