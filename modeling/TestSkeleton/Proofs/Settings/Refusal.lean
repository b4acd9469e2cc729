import TestSkeleton.CommandLine
import TestSkeleton.Proofs.Outcome
import TestSkeleton.Proofs.Settings.Policy

/-! What becomes of a configuration: a policy whose options were checked, a refusal that names what is
wrong with it, or a failure that no one foresees.

The last comes of bytes that are no UTF-8, of a scalar in a YAML file that is not what its tag or its shape
asks for, and of a file system that does not tell whether a file is there or where the home folder is. -/

namespace TestSkeleton

open Text

namespace Settings

/-- The configuration files that a run reads: the user's, and the one that is asked for or else the
project's. -/
inductive Consults (w : Workspace) (root : Path) (sources : SettingSources) : Path → Prop where
  | user {folder p : Path} (wanted : sources.withUser = true) (around : userFolder w = .ok folder)
      (first : firstFile? w folder userNames = .ok (some p)) : Consults w root sources p
  | asked {p : Path} (named : sources.asked = some p) (there : w.isPresent p = .ok true) :
      Consults w root sources p
  | project {p : Path} (free : sources.asked = none)
      (first : firstFile? w root projectNames = .ok (some p)) : Consults w root sources p

/-- The paths that a run looks for a configuration file under. -/
inductive LooksFor (w : Workspace) (root : Path) (sources : SettingSources) : Path → Prop where
  | user {folder : Path} {name : Text} (wanted : sources.withUser = true)
      (around : userFolder w = .ok folder) (listed : name ∈ userNames) :
      LooksFor w root sources (folder.child name)
  | asked {p : Path} (named : sources.asked = some p) : LooksFor w root sources p
  | project {name : Text} (free : sources.asked = none) (listed : name ∈ projectNames) :
      LooksFor w root sources (root.child name)

/-- Failures of a configuration that are no refusal of it, each with what brings it about. -/
inductive Unforeseen (w : Workspace) (root : Path) (sources : SettingSources) : Failure → Prop where
  | undecoded {p : Path} {content : Bytes} {cause : Utf8Error} (consulted : Consults w root sources p)
      (bytes : w.readBytes p = .ok content) (undecodable : Utf8.decode content = .error cause) :
      Unforeseen w root sources (.utf8 cause)
  | scalar {p : Path} {text : Text} {cause : ScalarFault} (consulted : Consults w root sources p)
      (yaml : Format.ofPath? p = some .yaml) (read : w.readText p = .ok text)
      (fault : Yaml.read text = .error (.scalar cause)) :
      Unforeseen w root sources (.document cause)
  | untold {p : Path} {cause : FileError} (wanted : LooksFor w root sources p)
      (fault : w.entryAt? p = .error cause) : Unforeseen w root sources (.file cause)
  | homeless (wanted : sources.withUser = true)
      (unset : w.filledVariable? "XDG_CONFIG_HOME".toList = none)
      (unknown : w.home = .error .noHome) : Unforeseen w root sources .noHome

/-- Whether a failure refuses the configuration, or comes of what a refusal does not cover. -/
def Explains (w : Workspace) (root : Path) (sources : SettingSources) (e : Failure) : Prop :=
  (∃ cause, e = .config cause) ∨ Unforeseen w root sources e

section Read

variable {w : Workspace} {root : Path} {sources : SettingSources} {e : Failure}

theorem Unforeseen.isForeseen (unforeseen : Unforeseen w root sources e) : e.isForeseen = false := by
  cases unforeseen <;> rfl

theorem expandHome_eq_error {p : Path} (failed : w.expandHome p = .error e) : e = .noHome := by
  unfold Workspace.expandHome at failed
  split at failed
  · dsimp only at failed
    split at failed
    · cases failed
      rfl
    · cases failed
  · cases failed

/-- A document fails to be read for the file, for its bytes or for its text. -/
theorem documentAt_explained {p : Path} (consulted : Consults w root sources p)
    (failed : documentAt w p = .error e) : Explains w root sources e := by
  unfold documentAt at failed
  split at failed
  · rename_i text read
    unfold parse at failed
    split at failed
    · cases failed
    split at failed
    · cases failed
      exact .inl ⟨_, rfl⟩
    · split at failed
      · cases failed
      · cases failed
        exact .inl ⟨_, rfl⟩
    · rename_i yaml
      split at failed
      · unfold rootEntries at failed
        split at failed
        · cases failed
        · cases failed
        · cases failed
          exact .inl ⟨_, rfl⟩
      · cases failed
        exact .inl ⟨_, rfl⟩
      · rename_i cause fault
        cases failed
        exact .inr (.scalar consulted yaml read fault)
  · cases failed
    exact .inl ⟨_, rfl⟩
  · rename_i cause undecodable
    cases failed
    obtain ⟨content, bytes, undecodable⟩ := (bind_eq_error.mp undecodable).resolve_left (by
      intro unread
      obtain ⟨_, -, other⟩ := mapError_eq_error.mp unread
      cases other)
    rcases bind_eq_error.mp undecodable with refused | ⟨text, -, done⟩
    · obtain ⟨_, refused, wrapped⟩ := mapError_eq_error.mp refused
      cases wrapped
      exact .inr (.undecoded consulted (mapError_eq_ok.mp bytes) refused)
    · cases done

theorem entryAt?_of_isFile {p : Path} {cause : FileError} (untold : w.isFile p = .error cause) :
    w.entryAt? p = .error cause := by
  unfold Workspace.isFile at untold
  rcases bind_eq_error.mp untold with fault | ⟨entry, -, done⟩
  · exact fault
  · split at done <;> cases done

theorem entryAt?_of_isPresent {p : Path} {cause : FileError} (untold : w.isPresent p = .error cause) :
    w.entryAt? p = .error cause := by
  unfold Workspace.isPresent at untold
  rcases bind_eq_error.mp untold with fault | ⟨entry, -, done⟩
  · exact fault
  · cases done

/-- A search fails at a name that the file system does not tell about. -/
theorem firstFile?_eq_error {folder : Path} {names : List Text}
    (failed : firstFile? w folder names = .error e) :
    ∃ name ∈ names, ∃ cause, e = .file cause ∧ w.entryAt? (folder.child name) = .error cause := by
  induction names with
  | nil => cases failed
  | cons name rest ih =>
    rw [firstFile?] at failed
    rcases bind_eq_error.mp failed with untold | ⟨isFile, -, failed⟩
    · obtain ⟨cause, fault, rfl⟩ := mapError_eq_error.mp untold
      exact ⟨name, List.mem_cons_self, cause, rfl, entryAt?_of_isFile fault⟩
    · cases isFile with
      | true => cases failed
      | false =>
        obtain ⟨other, listed, found⟩ := ih failed
        exact ⟨other, List.mem_cons_of_mem _ listed, found⟩

theorem userFolder_eq_error (failed : userFolder w = .error e) :
    e = .noHome ∧ w.filledVariable? "XDG_CONFIG_HOME".toList = none ∧ w.home = .error .noHome := by
  unfold userFolder at failed
  dsimp only at failed
  split at failed
  · cases failed
  · rename_i unset
    rcases bind_eq_error.mp failed with homeless | ⟨base, -, done⟩
    · obtain ⟨unknown⟩ | ⟨home, -, done⟩ := bind_eq_error.mp homeless
      · obtain rfl := expandHome_eq_error unknown
        exact ⟨rfl, unset, unknown⟩
      · cases done
    · cases done

theorem userDocument_explained (wanted : sources.withUser = true)
    (failed : userDocument w = .error e) : Explains w root sources e := by
  unfold userDocument at failed
  rcases bind_eq_error.mp failed with homeless | ⟨folder, around, failed⟩
  · obtain ⟨rfl, unset, unknown⟩ := userFolder_eq_error homeless
    exact .inr (.homeless wanted unset unknown)
  · rcases bind_eq_error.mp failed with untold | ⟨found, first, failed⟩
    · obtain ⟨name, listed, cause, rfl, fault⟩ := firstFile?_eq_error untold
      exact .inr (.untold (.user wanted around listed) fault)
    · cases found with
      | none => cases failed
      | some p => exact documentAt_explained (.user wanted around first) failed

theorem projectDocument_explained (failed : projectDocument w root sources.asked = .error e) :
    Explains w root sources e := by
  unfold projectDocument at failed
  split at failed
  · rename_i p named
    rcases bind_eq_error.mp failed with untold | ⟨there, present, failed⟩
    · obtain ⟨cause, fault, rfl⟩ := mapError_eq_error.mp untold
      exact .inr (.untold (.asked named) (entryAt?_of_isPresent fault))
    · cases there with
      | true => exact documentAt_explained (.asked named (mapError_eq_ok.mp present)) failed
      | false =>
        cases failed
        exact .inl ⟨_, rfl⟩
  · rename_i free
    rcases bind_eq_error.mp failed with untold | ⟨found, first, failed⟩
    · obtain ⟨name, listed, cause, rfl, fault⟩ := firstFile?_eq_error untold
      exact .inr (.untold (.project free listed) fault)
    · cases found with
      | none => cases failed
      | some p => exact documentAt_explained (.project free first) failed

/-- The user's document, when it counts. -/
def userEntries (w : Workspace) (sources : SettingSources) : Except Failure Entries :=
  if sources.withUser then userDocument w else .ok []

theorem read_eq (w : Workspace) (root : Path) (sources : SettingSources) :
    SettingDocuments.read w root sources = (do
      let user ← userEntries w sources
      let project ← projectDocument w root sources.asked
      return { user, project }) := by
  unfold SettingDocuments.read userEntries
  dsimp only
  split <;> rfl

/-- Every failure to load a policy is explained. -/
theorem load_explained (failed : Policy.load w root sources = .error e) :
    Explains w root sources e := by
  unfold Policy.load at failed
  rcases bind_eq_error.mp failed with unread | ⟨d, -, refused⟩
  · rw [read_eq] at unread
    rcases bind_eq_error.mp unread with user | ⟨entries, -, unread⟩
    · unfold userEntries at user
      split at user
      · rename_i wanted
        exact userDocument_explained wanted user
      · cases user
    · rcases bind_eq_error.mp unread with project | ⟨entries, -, done⟩
      · exact projectDocument_explained project
      · cases done
  · obtain ⟨cause, -, rfl⟩ := mapError_eq_error.mp refused
    exact .inl ⟨cause, rfl⟩

/-- What is read of the configuration is read of all files of it. -/
theorem Consults.documentAt_eq_ok {p : Path} (consulted : Consults w root sources p)
    {d : SettingDocuments} (readable : SettingDocuments.read w root sources = .ok d) :
    documentAt w p = .ok d.user ∨ documentAt w p = .ok d.project := by
  rw [read_eq] at readable
  obtain ⟨user, userRead, readable⟩ := bind_eq_ok.mp readable
  obtain ⟨project, projectRead, readable⟩ := bind_eq_ok.mp readable
  cases readable
  cases consulted with
  | user wanted around first =>
    rw [userEntries, if_pos wanted, userDocument, around, ok_bind, first, ok_bind] at userRead
    exact .inl userRead
  | asked named there =>
    simp only [projectDocument, named, there, mapError_ok, ok_bind, if_true] at projectRead
    exact .inr projectRead
  | project free first =>
    simp only [projectDocument, free, first, ok_bind] at projectRead
    exact .inr projectRead

end Read

end Settings

namespace CommandLine.Arguments

/-- Where the settings of a command come from. -/
def sources (a : Arguments) : SettingSources :=
  { asked := a.config.map Path.read, overrides := a.overrides }

variable {w : Workspace} {root : Path} {a : Arguments} {e : Failure}

theorem prepare_eq_error (rooted : findProjectRoot w (Path.read a.path) = .ok root)
    (failed : Policy.load w root a.sources = .error e) : a.prepare w = .error e := by
  have same : a.prepare w = (do
      let root ← findProjectRoot w (Path.read a.path)
      let policy ← Policy.load w root a.sources
      Run.prepare w root (some policy)) := rfl
  rw [same, rooted, ok_bind, failed]
  rfl

/-- A failure that is foreseen ends the command with status 1 and a message, and nothing is changed. -/
theorem run_generate_of_isForeseen (c : Circumstances) (failed : a.prepare w = .error e)
    (foreseen : e.isForeseen = true) : (a.generate c).run w =
      (.ok { status := 1, messages := "autotest generate failed: ".toList ++ e.message ++ ['\n'] }, w) := by
  rw [generate, run_bind, run_get]
  simp only [failed]
  rw [Arguments.failed, if_pos foreseen]
  rfl

/-- A failure that is not foreseen ends the program. -/
theorem run_generate_of_not_isForeseen (c : Circumstances) (failed : a.prepare w = .error e)
    (unforeseen : e.isForeseen = false) : (a.generate c).run w = (.error e, w) := by
  rw [generate, run_bind, run_get]
  simp only [failed]
  rw [Arguments.failed, if_neg (by simp [unforeseen])]
  rfl

end CommandLine.Arguments

theorem Language.name_of_ofName? {name : Text} {l : Language} (known : ofName? name = some l) :
    name = l.name := by
  rw [ofName?] at known
  have same := List.find?_some known
  exact (beq_iff_eq.mp same).symm

theorem Policy.checkLanguage_eq_ok {name : Option Text} {l : Option Language}
    (known : checkLanguage name = .ok l) : name = l.map Language.name := by
  cases name with
  | none =>
    cases known
    rfl
  | some given =>
    rw [checkLanguage] at known
    split at known
    · rename_i found
      cases known
      rw [Option.map_some, Language.name_of_ofName? found]
    · cases known

/-- A project whose configuration file is one byte that starts no character. -/
def latin : Workspace :=
  { files := ⟨[([['p']], .folder), ([['p'], "src".toList], .folder),
      ([['p'], "auto_test.toml".toList], .file [0xFF])]⟩
    current := [['p']]
    environment := [("HOME".toList, "/h".toList)] }

def latinRoot : Path := ⟨.slash, [['p']]⟩

end TestSkeleton
