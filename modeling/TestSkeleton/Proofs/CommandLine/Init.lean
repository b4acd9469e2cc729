import TestSkeleton.CommandLine
import TestSkeleton.Proofs.Run.Repeat
import TestSkeleton.Proofs.Settings.Reload
import TestSkeleton.Proofs.Workspace.ReadBack

/-! What the writing of a first configuration file leaves.

The command writes one name, and the loading of settings prefers another one in the same folder. Main statement: a
command that does not end well changes nothing, unless its surroundings break off the writing; after one that ends
well the default policy is loaded just when no file of the preferred name stands in front of the one written, or
that file holds the default policy itself. -/

namespace TestSkeleton

open Text Yaml

namespace Policy

variable {w : Workspace} {root p : Path}

/-- Without a request the first file of a project is read as if it were asked for. -/
theorem load_of_firstFile (first : Settings.firstFile? w root Settings.projectNames = .ok (some p))
    (there : w.isFile p = .ok true) :
    load w root { withUser := false } = load w root { asked := some p, withUser := false } := by
  obtain ⟨content, found⟩ := Workspace.isFile_eq_true.mp there
  have present : w.isPresent p = .ok true := by
    rw [Workspace.isPresent, Workspace.entryAt?, found]
    rfl
  have same : Settings.projectDocument w root none = Settings.projectDocument w root (some p) := by
    simp only [Settings.projectDocument, first, present, ok_bind, mapError_ok, if_true]
  have documents : SettingDocuments.read w root { withUser := false } =
      SettingDocuments.read w root { asked := some p, withUser := false } := by
    simp only [SettingDocuments.read, same]
  rw [load, load, documents]

/-- What the default policy is written as. -/
def defaultContent : Bytes := Utf8.encode default.print

theorem settled_default : default.Settled :=
  settled_of_ofFields (o := {}) rfl (by decide) (by decide)

theorem default_read : ∃ document, Yaml.read default.print = .ok document ∧
    inOrder document = inOrder (.table default.layout) := by
  refine ⟨inOrder (.table default.layout), ?_, ?_⟩
  · decide +kernel
  · decide +kernel

/-- The default policy is loaded from a YAML file with its text. -/
theorem load_default (format : Settings.Format.ofPath? p = some .yaml)
    (there : w.entry p = .ok (.file defaultContent)) (unset : w.environment = []) :
    load w root { asked := some p, withUser := false } = .ok default := by
  obtain ⟨document, read, same⟩ := default_read
  obtain ⟨t, perm, loaded⟩ := load_printed settled_default format there unset read same
  rw [loaded, List.Perm.eq_nil perm]
  rfl

end Policy

namespace CommandLine

/-- The name that the loading of settings prefers. -/
def preferredName : Text := "auto_test.toml".toList

section Loaded

variable {w : Workspace} {root : Path}

/-- The policy of a folder, without the user's file and without variables. -/
def loaded (w : Workspace) (root : Path) : Except Failure Policy :=
  Policy.load { w with environment := [] } root { withUser := false }

/-- The policy of a configuration file, without the user's file and without variables. -/
def loadedFrom (w : Workspace) (root p : Path) : Except Failure Policy :=
  Policy.load { w with environment := [] } root { asked := some p, withUser := false }

theorem isName_preferredName : Path.IsName preferredName := by decide

theorem isName_configName : Path.IsName Arguments.configName := by decide

theorem isShort_preferredName : FileTree.IsShort preferredName := by
  unfold FileTree.IsShort
  decide

theorem isShort_configName : FileTree.IsShort Arguments.configName := by
  unfold FileTree.IsShort
  decide

theorem ofPath?_configName (root : Path) :
    Settings.Format.ofPath? (root.child Arguments.configName) = some .yaml := by
  have name : (root.child Arguments.configName).name = Arguments.configName := by
    rw [isName_configName.child, Path.name, List.getLast?_concat]
    rfl
  rw [Settings.Format.ofPath?, Path.suffix, name]
  decide +kernel

/-- The file of the preferred name is loaded if it is there, and else the one of the second name. -/
theorem loaded_eq (there : w.isFile (root.child Arguments.configName) = .ok true) :
    loaded w root = match w.isFile (root.child preferredName) with
      | .ok true => loadedFrom w root (root.child preferredName)
      | .ok false => loadedFrom w root (root.child Arguments.configName)
      | .error e => .error (.file e) := by
  have bare : ∀ p, ({ w with environment := [] } : Workspace).isFile p = w.isFile p := fun _ => rfl
  have names : Settings.projectNames =
      preferredName :: Arguments.configName :: Settings.projectNames.drop 2 := by decide
  cases first : w.isFile (root.child preferredName) with
  | error e =>
    have untold : Settings.firstFile? { w with environment := [] } root Settings.projectNames =
        .error (.file e) := by
      rw [names, Settings.firstFile?, bare, first]
      rfl
    have unread : Settings.projectDocument { w with environment := [] } root none = .error (.file e) := by
      rw [Settings.projectDocument, untold]
      rfl
    rw [loaded, Policy.load, SettingDocuments.read]
    dsimp only
    rw [if_neg (by decide), pure_bind, unread]
    rfl
  | ok preferred =>
    cases preferred with
    | true =>
      refine Policy.load_of_firstFile ?_ ((bare _).trans first)
      rw [names, Settings.firstFile?, bare, first]
      rfl
    | false =>
      refine Policy.load_of_firstFile ?_ ((bare _).trans there)
      rw [names, Settings.firstFile?, bare, first, Settings.firstFile?, bare, there]
      rfl

theorem isFile_of_isPresent {p : Path} (absent : w.isPresent p = .ok false) : w.isFile p = .ok false := by
  obtain ⟨entry, found, none⟩ := bind_eq_ok.mp absent
  rw [Workspace.isFile, found]
  cases entry with
  | none => rfl
  | some entry => cases none

/-- Where no configuration file was found, none of the names leads anywhere. -/
theorem isPresent_of_configFiles (none : Arguments.configFiles w root = .ok []) :
    ∀ name ∈ Settings.projectNames, w.isPresent (root.child name) = .ok false := by
  unfold Arguments.configFiles at none
  generalize Settings.projectNames = names at none
  induction names with
  | nil => exact nofun
  | cons name names ih =>
    rw [List.filterMapM_cons, bind_assoc] at none
    obtain ⟨present, told, searched⟩ := bind_eq_ok.mp none
    have told := mapError_eq_ok.mp told
    cases present with
    | true =>
      rw [if_pos rfl, pure_bind] at searched
      obtain ⟨rest, -, more⟩ := bind_eq_ok.mp searched
      cases more
    | false => exact List.forall_mem_cons.mpr ⟨told, ih searched⟩

end Loaded

section Init

variable {w w' : Workspace} {a : Arguments} {refusals : Change.Refusals} {result : Except Failure Outcome}

/-- The command changes nothing without reaching its writing, and then its end is that of the writing. -/
theorem init_cases (done : (a.init refusals).run w = (result, w')) :
    (w' = w ∧ ∀ o, result = .ok o → o.status = 1) ∨
    ∃ root, a.folder w = .ok root ∧ w.isFolder root = .ok true ∧
      (a.force = false → Arguments.configFiles w root = .ok []) ∧
      ∃ o, result = .ok o ∧
        ((o.status = 0 ∧ (Policy.default.write (root.child Arguments.configName) refusals).run w = (.ok (), w')) ∨
          (o.status = 1 ∧ ∃ e,
            (Policy.default.write (root.child Arguments.configName) refusals).run w = (.error e, w'))) := by
  rw [Arguments.init, run_bind, run_get] at done
  rcases Task.run_look_bind done with ⟨e, rfl, rfl⟩ | ⟨root, place, done⟩
  · exact .inl ⟨rfl, nofun⟩
  rcases Task.run_look_bind done with ⟨e, rfl, rfl⟩ | ⟨there, folder, done⟩
  · exact .inl ⟨rfl, nofun⟩
  have folder := mapError_eq_ok.mp folder
  cases there with
  | false =>
    cases done
    exact .inl ⟨rfl, fun o same => by cases same; rfl⟩
  | true =>
    change ExceptT.run (Task.look (fun w => Arguments.configFiles w root) >>= _) w = _ at done
    rcases Task.run_look_bind done with ⟨e, rfl, rfl⟩ | ⟨files, known, done⟩
    · exact .inl ⟨rfl, nofun⟩
    dsimp only at done
    split at done
    · cases done
      exact .inl ⟨rfl, fun o same => by cases same; rfl⟩
    · rename_i files _ _ free
      have none : a.force = false → Arguments.configFiles w root = .ok [] := by
        intro unforced
        cases files with
        | nil => exact known
        | cons p rest => exact absurd unforced (free p rest rfl)
      refine .inr ⟨root, place, folder, none, ?_⟩
      cases written : (Policy.default.write (root.child Arguments.configName) refusals).run w with
      | mk outcome after =>
        rw [written] at done
        cases outcome with
        | ok _ =>
          cases done
          exact ⟨_, rfl, .inl ⟨rfl, rfl⟩⟩
        | error e =>
          cases done
          exact ⟨_, rfl, .inr ⟨rfl, e, rfl⟩⟩

/-- No link bears a name that matters in a folder. -/
def Unlinked (w : Workspace) (root : Path) : Prop :=
  ∀ outer, w.locate root = .ok ⟨outer, some .folder⟩ → ∀ name ∈ [preferredName, Arguments.configName],
    ∀ target, w.files.entryAt? (outer ++ [name]) ≠ some (.link target)

/-- The writing was broken off: the file was opened, and holds the beginning of its text. -/
structure CutShort (refusals : Change.Refusals) (w : Workspace) (root : Path) (w' : Workspace) : Prop where
  opened : refusals.opening = none
  cut : ∃ written e spot, refusals.writing = some (written, e) ∧
    w.locate (root.child Arguments.configName) = .ok spot ∧ spot.entry ≠ some .folder ∧
    w' = w.put spot.place (.file (Policy.defaultContent.take written))

/-- A configuration file was written. -/
structure Created (a : Arguments) (w : Workspace) (root : Path) (w' : Workspace) : Prop where
  /-- One file holds the default policy, and nothing else has changed. -/
  written : ∃ spot, w.locate (root.child Arguments.configName) = .ok spot ∧ spot.entry ≠ some .folder ∧
    w' = w.put spot.place (.file Policy.defaultContent)
  /-- The default policy is loaded unless a file of the preferred name says otherwise. -/
  loads : loaded w' root = .ok Policy.default ↔
    w'.isFile (root.child preferredName) = .ok false ∨
      (w'.isFile (root.child preferredName) = .ok true ∧
        loadedFrom w' root (root.child preferredName) = .ok Policy.default)
  /-- Without links the file of the preferred name is the one that was there. -/
  kept : Unlinked w root → w'.entry (root.child preferredName) = w.entry (root.child preferredName)
  /-- Without links and without force there was none. -/
  free : Unlinked w root → a.force = false → loaded w' root = .ok Policy.default

theorem created_of_write (standing : w.Standing) {root : Path} (folder : w.isFolder root = .ok true)
    (none : a.force = false → Arguments.configFiles w root = .ok [])
    (done : (Policy.default.write (root.child Arguments.configName) refusals).run w = (.ok (), w')) :
    Created a w root w' := by
  have parent : (root.child Arguments.configName).parent = root := by
    rw [isName_configName.child, Path.parent, List.dropLast_concat]
  rw [Policy.write, parent, run_bind, Change.run_ensureFolders_of_folder folder] at done
  obtain ⟨spot, located, closed, -, -, same⟩ := Change.run_writeFile_eq_ok.mp done
  have there := Change.entry_of_writeFile standing done
  have second : w'.isFile (root.child Arguments.configName) = .ok true :=
    Workspace.isFile_eq_true.mpr ⟨_, there⟩
  have fallback : loadedFrom w' root (root.child Arguments.configName) = .ok Policy.default :=
    Policy.load_default (ofPath?_configName root) there rfl
  have loads : loaded w' root = .ok Policy.default ↔
      w'.isFile (root.child preferredName) = .ok false ∨
        (w'.isFile (root.child preferredName) = .ok true ∧
          loadedFrom w' root (root.child preferredName) = .ok Policy.default) := by
    rw [loaded_eq second]
    cases w'.isFile (root.child preferredName) with
    | error e => simp
    | ok preferred => cases preferred <;> simp [fallback]
  have kept : Unlinked w root →
      w'.entry (root.child preferredName) = w.entry (root.child preferredName) := by
    intro unlinked
    obtain ⟨outer, around⟩ := Workspace.isFolder_eq_true.mp folder
    have plain := unlinked outer around
    -- The file is written under its own name in the folder, beside the preferred one.
    have place : spot.place = outer ++ [Arguments.configName] := by
      have led := Workspace.locate_child isName_configName isShort_configName around (plain _ (by simp))
      rw [located] at led
      split at led
      · cases led
      · cases led
        rfl
    have filled : spot.place ≠ [] := by simp [place]
    have own : spot.entry = w.files.entryAt? spot.place := Workspace.entry_of_locate located
    rw [same]
    refine Workspace.entry_child_congr isName_preferredName isShort_preferredName around ?_ (plain _ (by simp)) ?_
    · refine Workspace.locate_folder_put filled (own ▸ closed) ?_ around
      rw [place]
      exact plain _ (by simp)
    · rw [Workspace.entryAt?_put filled, if_neg]
      rw [place, List.append_cancel_left_eq]
      decide
  refine ⟨⟨spot, located, closed, same⟩, loads, kept, fun unlinked unforced => ?_⟩
  have absent := isPresent_of_configFiles (none unforced) preferredName (by decide)
  exact loads.mpr (.inl ((Workspace.isFile_congr (kept unlinked)).trans (isFile_of_isPresent absent)))

theorem kept_or_cutShort {root : Path} (folder : w.isFolder root = .ok true) {e : FileError}
    (done : (Policy.default.write (root.child Arguments.configName) refusals).run w = (.error e, w')) :
    w' = w ∨ CutShort refusals w root w' := by
  have parent : (root.child Arguments.configName).parent = root := by
    rw [isName_configName.child, Path.parent, List.dropLast_concat]
  rw [Policy.write, parent, run_bind, Change.run_ensureFolders_of_folder folder] at done
  dsimp only at done
  rw [Change.run_writeFile] at done
  split at done
  · cases done
    exact .inl rfl
  · rename_i spot located
    split at done
    · cases done
      exact .inl rfl
    · rename_i closed
      split at done
      · cases done
        exact .inl rfl
      · cases done
      · rename_i opened cut
        cases done
        exact .inr ⟨opened, _, _, spot, cut, located, closed, rfl⟩

/-- Writing a first configuration file without a log, with force or without. A command that does not end well has
status 1 or goes on as a failure, and leaves the workspace as it was, unless its surroundings break off the writing.
One that ends well has status 0, and the default policy is loaded afterwards unless a file of the preferred name
says otherwise. -/
theorem init_ends (standing : w.Standing) {c : Circumstances} {words : List Text}
    (read : Arguments.read words = .ok (.init, a)) (unlogged : a.logFile = none)
    (done : (run c words refusals).run w = (result, w')) :
    (w' = w ∧ ∀ o, result = .ok o → o.status = 1) ∨
    ∃ root, a.folder w = .ok root ∧ ∃ o, result = .ok o ∧
      ((o.status = 1 ∧ CutShort refusals w root w') ∨ (o.status = 0 ∧ Created a w root w')) := by
  have started : (run c words refusals).run w = (a.init refusals).run w := by
    rw [run, read]
    dsimp only
    rw [run_bind, Arguments.writeLog, unlogged]
    rfl
  rw [started] at done
  rcases init_cases done with kept | ⟨root, place, folder, none, o, ended, ⟨well, written⟩ | ⟨ill, e, failed⟩⟩
  · exact .inl kept
  · exact .inr ⟨root, place, o, ended, .inr ⟨well, created_of_write standing folder none written⟩⟩
  · rcases kept_or_cutShort folder failed with same | cut
    · exact .inl ⟨same, fun o' same => by rw [← Except.ok.inj (ended.symm.trans same), ill]⟩
    · exact .inr ⟨root, place, o, ended, .inl ⟨ill, cut⟩⟩

end Init

/-- A project with a configuration file of the preferred name. -/
def shadowing : Workspace :=
  { files := ⟨[([['p']], .folder),
      ([['p'], preferredName], .file (Utf8.encode "output_dir = \"old\"\n".toList))]⟩
    current := [['p']] }

theorem shadowing_standing : shadowing.Standing where
  files := FileTree.standing_of_entries (by decide)
  current := by decide

def forced : List Text := ["init", "--force"].map String.toList

/-- The command says that it has written a configuration file, and the one of the preferred name is loaded as
before. -/
theorem shadowing_kept : ∃ o w', (run ⟨[], []⟩ forced).run shadowing = (.ok o, w') ∧
    o.output = "Configuration created at auto_test.yaml\n".toList ∧ o.status = 0 ∧
    Created { force := true } shadowing ⟨.slash, [['p']]⟩ w' ∧
    loaded w' ⟨.slash, [['p']]⟩ = .ok { Policy.default with outputDir := "old".toList } := by
  have read : Arguments.read forced = .ok (.init, { force := true }) := by decide +kernel
  have place : Arguments.folder { force := true } shadowing = .ok ⟨.slash, [['p']]⟩ := by decide +kernel
  have ends : ((run ⟨[], []⟩ forced).run shadowing).1.toOption.any (fun o =>
      o.output == "Configuration created at auto_test.yaml\n".toList && o.status == 0) = true := by decide +kernel
  have old : loaded ((run ⟨[], []⟩ forced).run shadowing).2 ⟨.slash, [['p']]⟩ =
      .ok { Policy.default with outputDir := "old".toList } := by decide +kernel
  obtain ⟨o, done, said⟩ := exists_ok_of_toOption ends
  obtain ⟨output, status⟩ := Bool.and_eq_true_iff.mp said
  have status : o.status = 0 := beq_iff_eq.mp status
  have done : (run ⟨[], []⟩ forced).run shadowing = (.ok o, ((run ⟨[], []⟩ forced).run shadowing).2) :=
    Prod.ext done rfl
  refine ⟨o, _, done, beq_iff_eq.mp output, status, ?_, old⟩
  rcases init_ends shadowing_standing read rfl done with ⟨-, ill⟩ | ⟨root, found, o', same, ends⟩
  · have one := ill o rfl
    rw [status] at one
    cases one
  · cases same
    rw [place] at found
    cases found
    rcases ends with ⟨one, -⟩ | ⟨-, created⟩
    · rw [status] at one
      cases one
    · exact created

end CommandLine

end TestSkeleton
