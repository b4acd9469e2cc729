import TestSkeleton.Proofs.Settings.Layer
import TestSkeleton.Proofs.Settings.Policy

/-! Settings do not leak between layers.

What a load makes of a setting, an option or a refusal, comes of what the highest layer says that
sets it. Layers below are never looked at, so not even a value that would be refused there matters. -/

namespace TestSkeleton

/-- The setting that an error is about. -/
def PolicyError.setting : PolicyError → Setting
  | .emptyChunks => .parallelChunkSize
  | .negativeTimeout => .timeoutSeconds
  | .unsupportedLanguage _ => .language

def ConfigError.setting? : ConfigError → Option Setting
  | .policy cause => some cause.setting
  | .invalidValue key => Setting.ofName? key
  | .unreadable .. | .missing _ | .malformed _ | .noMapping _ | .unknownFormat _ | .template .. => none

namespace Setting

theorem setting?_of_unread {α : Type} {s : Setting} {found : Option α} {e : ConfigError}
    (refused : s.unread found = some e) : e.setting? = some s := by
  rw [unread] at refused
  split at refused
  · cases refused
    exact ofName?_eq_some_iff.mpr rfl
  · cases refused

/-- The fault of a value names the setting that it was to be the value of. -/
theorem setting?_of_fault? {s : Setting} {value : Value} {e : ConfigError}
    (refused : s.fault? value = some e) : e.setting? = some s := by
  cases s with
  | outputDir | includePrivate | parallel | respectGitignore => exact setting?_of_unread refused
  | parallelChunkSize | timeoutSeconds =>
    rcases Option.or_eq_some_iff.mp refused with unread | ⟨-, range⟩
    · exact setting?_of_unread unread
    · obtain ⟨number, -, range⟩ := Option.bind_eq_some_iff.mp range
      split at range
      · cases range
        rfl
      · cases range
  | language =>
    obtain ⟨name, -, unknown⟩ := Option.bind_eq_some_iff.mp refused
    split at unknown
    · cases unknown
      rfl
    · cases unknown
  | skipFunctions | templatesDir | typeMappings | skipPatterns | crateName => cases refused

end Setting

namespace Policy

variable {w w' : Workspace} {root root' : Path} {sources sources' : SettingSources}
  {d d' : SettingDocuments}

/-- Two loads that agree on what the highest layer says about a setting agree on the option, and if
one is refused for the setting, then so is the other, unless another of its settings is refused
first. -/
theorem load_isolates_setting (readable : SettingDocuments.read w root sources = .ok d)
    (readable' : SettingDocuments.read w' root' sources' = .ok d') {s : Setting}
    (single : s ≠ .typeMappings)
    (same : Settings.said? d w.environment sources.overrides s =
      Settings.said? d' w'.environment sources'.overrides s) :
    (∀ p p', load w root sources = .ok p → load w' root' sources' = .ok p' →
      p.value? s = p'.value? s) ∧
    ∀ e, load w root sources = .error (.config e) → e.setting? = some s →
      ∃ e', load w' root' sources' = .error (.config e') ∧
        (e' = e ∨ ∃ other, other ≠ s ∧ e'.setting? = some other) := by
  rw [load_of_read readable, load_of_read readable']
  rw [← Settings.get?_layers d w.environment sources.overrides single,
    ← Settings.get?_layers d' w'.environment sources'.overrides single] at same
  generalize (Settings.layers d w.environment sources.overrides).foldl _ _ = settings at same ⊢
  generalize (Settings.layers d' w'.environment sources'.overrides).foldl _ _ = settings' at same ⊢
  constructor
  · intro p p' given given'
    exact Settings.value?_of_policy (mapError_eq_ok.mp given) (mapError_eq_ok.mp given') same
  · intro e refused about
    obtain ⟨_, refused, wrapped⟩ := mapError_eq_error.mp refused
    cases wrapped
    obtain ⟨t, value, said, fault⟩ := Settings.policy_eq_error refused
    obtain rfl : t = s := Option.some.inj ((Setting.setting?_of_fault? fault).symm.trans about)
    rw [same] at said
    cases given' : settings'.policy with
    | ok p' =>
      rw [Settings.fault?_of_policy given' said] at fault
      cases fault
    | error e' =>
      refine ⟨e', rfl, ?_⟩
      obtain ⟨other, value', said', fault'⟩ := Settings.policy_eq_error given'
      by_cases own : other = t
      · subst own
        rw [said'] at said
        cases said
        exact .inl (Option.some.inj (fault'.symm.trans fault))
      · exact .inr ⟨other, own, Setting.setting?_of_fault? fault'⟩

/-- A project whose configuration file has a word for the timeout. -/
def wordyProject : Workspace :=
  { files := ⟨[([['p']], .folder),
      ([['p'], "auto_test.toml".toList], .file (Utf8.encode "timeout_seconds = \"soon\"\n".toList))]⟩
    current := [['p']]
    environment := [("HOME".toList, "/h".toList)] }

/-- A project that has no configuration file. -/
def silentProject : Workspace :=
  { files := ⟨[([['p']], .folder)]⟩
    current := [['p']]
    environment := [("HOME".toList, "/h".toList)] }

def withTimeout (seconds : Int) : SettingSources :=
  { overrides := [("timeout_seconds".toList, .scalar (.int seconds))] }

/-- Under an override the word in the file makes no difference, neither to the timeout nor to why it
is refused. -/
theorem wordyProject_timeout :
    (∃ p p', load wordyProject ⟨.slash, [['p']]⟩ (withTimeout 7) = .ok p ∧
      load silentProject ⟨.slash, [['p']]⟩ (withTimeout 7) = .ok p' ∧
      p.value? .timeoutSeconds = p'.value? .timeoutSeconds) ∧
    ∃ e, load wordyProject ⟨.slash, [['p']]⟩ (withTimeout (-1)) = .error (.config e) ∧
      e.setting? = some .timeoutSeconds ∧
      ∃ e', load silentProject ⟨.slash, [['p']]⟩ (withTimeout (-1)) = .error (.config e') ∧
        (e' = e ∨ ∃ other, other ≠ .timeoutSeconds ∧ e'.setting? = some other) := by
  have wordy : (load wordyProject ⟨.slash, [['p']]⟩ (withTimeout 7)).toOption.any (fun _ => true) =
      true := by decide +kernel
  have silent : (load silentProject ⟨.slash, [['p']]⟩ (withTimeout 7)).toOption.any (fun _ => true) =
      true := by decide +kernel
  have refused : load wordyProject ⟨.slash, [['p']]⟩ (withTimeout (-1)) =
      .error (.config (.policy .negativeTimeout)) := by decide +kernel
  obtain ⟨p, loaded, -⟩ := exists_ok_of_toOption wordy
  obtain ⟨p', loaded', -⟩ := exists_ok_of_toOption silent
  obtain ⟨d, readable, -⟩ := bind_eq_ok.mp loaded
  obtain ⟨d', readable', -⟩ := bind_eq_ok.mp loaded'
  -- Overrides have no part in which documents are read.
  have unasked (w : Workspace) : SettingDocuments.read w ⟨.slash, [['p']]⟩ (withTimeout (-1)) =
      SettingDocuments.read w ⟨.slash, [['p']]⟩ (withTimeout 7) := rfl
  have same (seconds : Int) :
      Settings.said? d wordyProject.environment (withTimeout seconds).overrides .timeoutSeconds =
        Settings.said? d' silentProject.environment (withTimeout seconds).overrides .timeoutSeconds :=
    rfl
  constructor
  · have agree := (load_isolates_setting readable readable' (by decide) (same 7)).1
    exact ⟨p, p', loaded, loaded', agree p p' loaded loaded'⟩
  · have agree := (load_isolates_setting ((unasked _).trans readable) ((unasked _).trans readable')
      (by decide) (same (-1))).2
    exact ⟨_, refused, rfl, agree _ refused rfl⟩

end Policy

end TestSkeleton
