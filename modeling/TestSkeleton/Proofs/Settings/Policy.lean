import TestSkeleton.Proofs.Document.Entries
import TestSkeleton.Proofs.Outcome
import TestSkeleton.Settings.Coercion
import TestSkeleton.Settings.Layer

/-! From settings to a policy, setting by setting.

Each option of a policy comes from one setting alone, and settings are refused for the fault of one
setting alone. -/

namespace TestSkeleton

open Text Signature

namespace Policy

theorem checkLanguage_eq_error {name : Option Text} {e : PolicyError} :
    checkLanguage name = .error e ↔
      ∃ given, name = some given ∧ Language.ofName? given = none ∧ e = .unsupportedLanguage given := by
  cases name with
  | none => simp [checkLanguage]
  | some given =>
    cases known : Language.ofName? given <;> simp [checkLanguage, known, eq_comm]

/-- What options give a policy. -/
structure Checked (o : PolicyFields) (p : Policy) : Prop where
  outputDir : o.outputDir = p.outputDir
  skipFunctions : o.skipFunctions = p.skipFunctions
  typeMappings : Table.ofList (o.typeMappings.map fun (k, v) => (normalize k, v)) = p.typeMappings
  includePrivate : o.includePrivate = p.includePrivate
  parallel : o.parallel = p.parallel
  parallelChunkSize : o.parallelChunkSize = p.parallelChunkSize
  respectGitignore : o.respectGitignore = p.respectGitignore
  skipPatterns : o.skipPatterns = p.skipPatterns
  timeoutSeconds : o.timeoutSeconds = p.timeoutSeconds
  language : checkLanguage o.language = .ok p.language
  crateName : o.crateName = p.crateName
  templatesDir : o.templatesDir = p.templatesDir

theorem checked_of_ofFields {o : PolicyFields} {p : Policy} (made : ofFields o = .ok p) :
    Checked o p := by
  unfold ofFields at made
  split at made
  · rename_i size timeout sized timed
    obtain ⟨language, known, made⟩ := bind_eq_ok.mp made
    cases made
    exact ⟨rfl, rfl, rfl, rfl, rfl, sized, rfl, rfl, timed, known, rfl, rfl⟩
  · cases made
  · cases made

theorem Checked.unique {o : PolicyFields} {p q : Policy} (first : Checked o p) (second : Checked o q) :
    p = q := by
  have size : p.parallelChunkSize = q.parallelChunkSize :=
    Int.ofNat_inj.mp (first.parallelChunkSize.symm.trans second.parallelChunkSize)
  have timeout : p.timeoutSeconds = q.timeoutSeconds :=
    Int.ofNat_inj.mp (first.timeoutSeconds.symm.trans second.timeoutSeconds)
  have language : p.language = q.language :=
    Except.ok.inj (first.language.symm.trans second.language)
  have outputDir := first.outputDir.symm.trans second.outputDir
  have skipFunctions := first.skipFunctions.symm.trans second.skipFunctions
  have typeMappings := first.typeMappings.symm.trans second.typeMappings
  have includePrivate := first.includePrivate.symm.trans second.includePrivate
  have parallel := first.parallel.symm.trans second.parallel
  have respectGitignore := first.respectGitignore.symm.trans second.respectGitignore
  have skipPatterns := first.skipPatterns.symm.trans second.skipPatterns
  have crateName := first.crateName.symm.trans second.crateName
  have templatesDir := first.templatesDir.symm.trans second.templatesDir
  cases p
  cases q
  simp_all

theorem ofFields_eq_error {o : PolicyFields} {e : PolicyError} (refused : ofFields o = .error e) :
    (e = .emptyChunks ∧ o.parallelChunkSize < 1) ∨ (e = .negativeTimeout ∧ o.timeoutSeconds < 0) ∨
      checkLanguage o.language = .error e := by
  unfold ofFields at refused
  split at refused
  · rcases bind_eq_error.mp refused with unknown | ⟨language, -, made⟩
    · exact .inr (.inr unknown)
    · cases made
  · rename_i timed
    cases refused
    exact .inr (.inl ⟨rfl, timed ▸ Int.negSucc_lt_zero _⟩)
  · rename_i ready late
    cases refused
    refine .inl ⟨rfl, Int.not_le.mp fun positive => ?_⟩
    obtain ⟨size, sized⟩ := Int.eq_ofNat_of_zero_le (Int.sub_nonneg_of_le positive)
    have whole : o.parallelChunkSize = .ofNat (size + 1) := by
      rw [Int.ofNat_eq_natCast]
      omega
    cases timed : o.timeoutSeconds with
    | ofNat timeout => exact ready size timeout whole timed
    | negSucc rest => exact late size rest whole timed

theorem ofFields_eq_ok_iff {o : PolicyFields} {p : Policy} : ofFields o = .ok p ↔ Checked o p := by
  refine ⟨checked_of_ofFields, fun checked => ?_⟩
  cases made : ofFields o with
  | ok q => rw [(checked_of_ofFields made).unique checked]
  | error e =>
    have sized := checked.parallelChunkSize
    have positive := p.chunk_pos
    have timed := checked.timeoutSeconds
    rcases ofFields_eq_error made with ⟨-, few⟩ | ⟨-, below⟩ | unknown
    · omega
    · omega
    · rw [checked.language] at unknown
      cases unknown

end Policy

/-- The fault of a value that does not read as what a setting takes. -/
def Setting.unread {α : Type} (s : Setting) (found : Option α) : Option ConfigError :=
  if found.isNone then some (.invalidValue s.name) else none

/-- Why the check of a setting refuses a value: it does not read as what the setting takes, or what it
reads as is out of range. -/
def Setting.fault? (s : Setting) (value : Value) : Option ConfigError :=
  match s with
  | .outputDir => s.unread value.text?
  | .includePrivate | .parallel | .respectGitignore => s.unread value.flag?
  | .parallelChunkSize =>
    (s.unread value.int?).or (value.int?.bind fun size =>
      if size < 1 then some (.policy .emptyChunks) else none)
  | .timeoutSeconds =>
    (s.unread value.int?).or (value.int?.bind fun seconds =>
      if seconds < 0 then some (.policy .negativeTimeout) else none)
  | .language =>
    (Settings.languageName value).bind fun name =>
      if (Language.ofName? name).isNone then some (.policy (.unsupportedLanguage name)) else none
  | .skipFunctions | .templatesDir | .typeMappings | .skipPatterns | .crateName => none

namespace Settings

variable {settings : Settings}

theorem valid_eq_error {α : Type} {s : Setting} {read : Value → Option α} {absent : α}
    {e : ConfigError} (refused : settings.valid s read absent = .error e) :
    ∃ value, settings.get? s = some value ∧ s.unread (read value) = some e := by
  unfold valid at refused
  split at refused
  · cases refused
  · rename_i value said
    split at refused
    · cases refused
    · rename_i unread
      cases refused
      exact ⟨value, said, by rw [Setting.unread, unread]; rfl⟩

theorem valid_eq_ok {α : Type} {s : Setting} {read : Value → Option α} {absent a : α}
    (taken : settings.valid s read absent = .ok a) :
    (settings.get? s = none ∧ a = absent) ∨
      ∃ value, settings.get? s = some value ∧ read value = some a := by
  unfold valid at taken
  split at taken
  · rename_i unsaid
    cases taken
    exact .inl ⟨unsaid, rfl⟩
  · rename_i value said
    split at taken
    · rename_i b found
      cases taken
      exact .inr ⟨value, said, found⟩
    · cases taken

theorem read_of_valid {α : Type} {s : Setting} {read : Value → Option α} {absent a : α}
    (taken : settings.valid s read absent = .ok a) {value : Value}
    (said : settings.get? s = some value) : read value = some a := by
  rcases valid_eq_ok taken with ⟨unsaid, -⟩ | ⟨value', said', found⟩
  · rw [unsaid] at said
    cases said
  · rw [said'] at said
    cases said
    exact found

/-- A value that is not the default was said. -/
theorem said_of_valid {α : Type} {s : Setting} {read : Value → Option α} {absent a : α}
    (taken : settings.valid s read absent = .ok a) (other : a ≠ absent) :
    ∃ value, settings.get? s = some value ∧ read value = some a := by
  rcases valid_eq_ok taken with ⟨-, same⟩ | said
  · exact absurd same other
  · exact said

theorem taken_of_said {α : Type} {s : Setting} {read : Value → α} {absent a : α}
    (given : settings.taken s read absent = a) {value : Value} (said : settings.get? s = some value) :
    read value = a := by
  rw [taken, said] at given
  exact given

theorem filterMap_shown_textEntries (t : Table Text Text) :
    (textEntries t).filterMap (fun (key, value) => value.text?.map fun t => (key.shown, t)) = t := by
  rw [textEntries, List.filterMap_map]
  exact List.filterMap_some

theorem textPairs_textEntries {v : Value} {t : Table Text Text} (distinct : t.keys.Nodup)
    (texts : v.entries = textEntries t) : v.textPairs = t := by
  rw [Value.textPairs, texts, filterMap_shown_textEntries]
  exact Table.ofList_eq_self distinct

theorem taken_typeMappings {t : Table Text Text} (distinct : t.keys.Nodup)
    (texts : settings.mappings = textEntries t) :
    settings.taken .typeMappings Value.textPairs [] = t := by
  rw [taken]
  rw [mappings] at texts
  cases said : settings.get? .typeMappings with
  | none =>
    rw [said] at texts
    exact (List.map_eq_nil_iff.mp texts.symm).symm
  | some v =>
    rw [said] at texts
    exact textPairs_textEntries distinct texts

section Unique

variable {settings' : Settings} {s : Setting} {α : Type} {a b absent : α}

theorem valid_unique {read : Value → Option α} (same : settings.get? s = settings'.get? s)
    (first : settings.valid s read absent = .ok a) (second : settings'.valid s read absent = .ok b) :
    a = b := by
  rw [valid, same, ← valid, second] at first
  exact (Except.ok.inj first).symm

theorem taken_unique {read : Value → α} (same : settings.get? s = settings'.get? s)
    (first : settings.taken s read absent = a) (second : settings'.taken s read absent = b) :
    a = b := by
  rw [taken, same, ← taken, second] at first
  exact first.symm

end Unique

/-- What settings give options. -/
structure Gives (settings : Settings) (o : PolicyFields) : Prop where
  outputDir : settings.valid .outputDir Value.text? "tests".toList = .ok o.outputDir
  skipFunctions : settings.taken .skipFunctions Value.textList [] = o.skipFunctions
  typeMappings : settings.taken .typeMappings Value.textPairs [] = o.typeMappings
  includePrivate : settings.valid .includePrivate Value.flag? false = .ok o.includePrivate
  parallel : settings.valid .parallel Value.flag? true = .ok o.parallel
  parallelChunkSize : settings.valid .parallelChunkSize Value.int? 25 = .ok o.parallelChunkSize
  respectGitignore : settings.valid .respectGitignore Value.flag? true = .ok o.respectGitignore
  skipPatterns : settings.taken .skipPatterns Value.textList defaultSkipPatterns = o.skipPatterns
  timeoutSeconds : settings.valid .timeoutSeconds Value.int? 300 = .ok o.timeoutSeconds
  language : settings.taken .language languageName none = o.language
  crateName : settings.taken .crateName filled none = o.crateName
  templatesDir : settings.taken .templatesDir filled none = o.templatesDir

theorem fields_eq_ok_iff {o : PolicyFields} : settings.fields = .ok o ↔ settings.Gives o := by
  constructor
  · intro made
    obtain ⟨outputDir, directed, made⟩ := bind_eq_ok.mp made
    obtain ⟨includePrivate, included, made⟩ := bind_eq_ok.mp made
    obtain ⟨parallel, paired, made⟩ := bind_eq_ok.mp made
    obtain ⟨size, sized, made⟩ := bind_eq_ok.mp made
    obtain ⟨respectGitignore, respected, made⟩ := bind_eq_ok.mp made
    obtain ⟨timeout, timed, made⟩ := bind_eq_ok.mp made
    cases made
    exact ⟨directed, rfl, rfl, included, paired, sized, respected, rfl, timed, rfl, rfl, rfl⟩
  · intro g
    have same : settings.fields = .ok { o with } := by
      simp only [fields, g.outputDir, g.skipFunctions, g.typeMappings, g.includePrivate, g.parallel,
        g.parallelChunkSize, g.respectGitignore, g.skipPatterns, g.timeoutSeconds, g.language,
        g.crateName, g.templatesDir, ok_bind]
      rfl
    exact same

/-- Where the check of a setting comes first, either its value has a fault or what follows is refused. -/
theorem fault_or_later {α β : Type} {s : Setting} {read : Value → Option α} {absent : α}
    {later : α → Except ConfigError β} {e : ConfigError} (refused : settings.valid s read absent >>= later = .error e)
    (faulty : ∀ value, s.unread (read value) = some e → s.fault? value = some e) :
    (∃ s value, settings.get? s = some value ∧ s.fault? value = some e) ∨ ∃ a, later a = .error e := by
  rcases bind_eq_error.mp refused with here | ⟨a, -, behind⟩
  · obtain ⟨value, said, unread⟩ := valid_eq_error here
    exact .inl ⟨s, value, said, faulty value unread⟩
  · exact .inr ⟨a, behind⟩

theorem fields_eq_error {e : ConfigError} (refused : settings.fields = .error e) :
    ∃ s value, settings.get? s = some value ∧ s.fault? value = some e := by
  have first {a b : Option ConfigError} (unread : a = some e) : a.or b = some e :=
    Option.or_eq_some_iff.mpr (.inl unread)
  rcases fault_or_later refused fun _ unread => unread with outputDir | ⟨_, refused⟩
  · exact outputDir
  rcases fault_or_later refused fun _ unread => unread with includePrivate | ⟨_, refused⟩
  · exact includePrivate
  rcases fault_or_later refused fun _ unread => unread with parallel | ⟨_, refused⟩
  · exact parallel
  rcases fault_or_later refused fun _ unread => first unread with parallelChunkSize | ⟨_, refused⟩
  · exact parallelChunkSize
  rcases fault_or_later refused fun _ unread => unread with respectGitignore | ⟨_, refused⟩
  · exact respectGitignore
  rcases fault_or_later refused fun _ unread => first unread with timeoutSeconds | ⟨_, refused⟩
  · exact timeoutSeconds
  cases refused

theorem policy_eq_ok_iff {p : Policy} :
    settings.policy = .ok p ↔ ∃ o, settings.Gives o ∧ Policy.Checked o p := by
  simp only [policy, bind_eq_ok, mapError_eq_ok, fields_eq_ok_iff, Policy.ofFields_eq_ok_iff]

/-- Settings are refused for the fault of a value that one of them has. -/
theorem policy_eq_error {e : ConfigError} (refused : settings.policy = .error e) :
    ∃ s value, settings.get? s = some value ∧ s.fault? value = some e := by
  rcases bind_eq_error.mp refused with unread | ⟨o, made, refused⟩
  · exact fields_eq_error unread
  have gives := fields_eq_ok_iff.mp made
  obtain ⟨cause, fault, rfl⟩ := mapError_eq_error.mp refused
  rcases Policy.ofFields_eq_error fault with ⟨rfl, few⟩ | ⟨rfl, below⟩ | unknown
  · obtain ⟨value, said, read⟩ := said_of_valid gives.parallelChunkSize (by omega)
    exact ⟨.parallelChunkSize, value, said, by simp [Setting.fault?, Setting.unread, read, few]⟩
  · obtain ⟨value, said, read⟩ := said_of_valid gives.timeoutSeconds (by omega)
    exact ⟨.timeoutSeconds, value, said, by simp [Setting.fault?, Setting.unread, read, below]⟩
  · obtain ⟨name, named, missing, rfl⟩ := Policy.checkLanguage_eq_error.mp unknown
    cases said : settings.get? .language with
    | none =>
      have absent := gives.language
      simp [taken, said, named] at absent
    | some value =>
      have taken := taken_of_said gives.language said
      exact ⟨.language, value, said, by simp [Setting.fault?, taken, named, missing]⟩

/-- Where settings give a policy, no value among them has a fault. -/
theorem fault?_of_policy {p : Policy} (given : settings.policy = .ok p) {s : Setting} {value : Value}
    (said : settings.get? s = some value) : s.fault? value = none := by
  obtain ⟨o, gives, checked⟩ := policy_eq_ok_iff.mp given
  cases s with
  | outputDir => simp [Setting.fault?, Setting.unread, read_of_valid gives.outputDir said]
  | includePrivate => simp [Setting.fault?, Setting.unread, read_of_valid gives.includePrivate said]
  | parallel => simp [Setting.fault?, Setting.unread, read_of_valid gives.parallel said]
  | respectGitignore =>
    simp [Setting.fault?, Setting.unread, read_of_valid gives.respectGitignore said]
  | parallelChunkSize =>
    have sized := checked.parallelChunkSize
    have positive := p.chunk_pos
    have enough : ¬ o.parallelChunkSize < 1 := by omega
    simp [Setting.fault?, Setting.unread, read_of_valid gives.parallelChunkSize said, enough]
  | timeoutSeconds =>
    have timed := checked.timeoutSeconds
    have enough : ¬ o.timeoutSeconds < 0 := by omega
    simp [Setting.fault?, Setting.unread, read_of_valid gives.timeoutSeconds said, enough]
  | language =>
    have known := checked.language
    rw [← taken_of_said gives.language said] at known
    cases named : languageName value with
    | none => simp [Setting.fault?, named]
    | some name =>
      have found : Language.ofName? name ≠ none := fun unknown => by
        rw [named, Policy.checkLanguage_eq_error.mpr ⟨name, rfl, unknown, rfl⟩] at known
        cases known
      simp [Setting.fault?, named, found]
  | skipFunctions | templatesDir | typeMappings | skipPatterns | crateName => rfl

/-- An option of a policy comes of the setting of that name alone. -/
theorem value?_of_policy {settings' : Settings} {p p' : Policy} (given : settings.policy = .ok p)
    (given' : settings'.policy = .ok p') {s : Setting} (same : settings.get? s = settings'.get? s) :
    p.value? s = p'.value? s := by
  obtain ⟨o, gives, checked⟩ := policy_eq_ok_iff.mp given
  obtain ⟨o', gives', checked'⟩ := policy_eq_ok_iff.mp given'
  cases s with
  | outputDir =>
    have option := valid_unique same gives.outputDir gives'.outputDir
    rw [Policy.value?, Policy.value?, ← checked.outputDir, option, checked'.outputDir]
  | skipFunctions =>
    have option := taken_unique same gives.skipFunctions gives'.skipFunctions
    rw [Policy.value?, Policy.value?, ← checked.skipFunctions, option, checked'.skipFunctions]
  | includePrivate =>
    have option := valid_unique same gives.includePrivate gives'.includePrivate
    rw [Policy.value?, Policy.value?, ← checked.includePrivate, option, checked'.includePrivate]
  | timeoutSeconds =>
    have option := valid_unique same gives.timeoutSeconds gives'.timeoutSeconds
    rw [Policy.value?, Policy.value?, ← checked.timeoutSeconds, option, checked'.timeoutSeconds]
  | templatesDir =>
    have option := taken_unique same gives.templatesDir gives'.templatesDir
    rw [Policy.value?, Policy.value?, ← checked.templatesDir, option, checked'.templatesDir]
  | typeMappings =>
    have option := taken_unique same gives.typeMappings gives'.typeMappings
    rw [Policy.value?, Policy.value?, ← checked.typeMappings, option, checked'.typeMappings]
  | parallel =>
    have option := valid_unique same gives.parallel gives'.parallel
    rw [Policy.value?, Policy.value?, ← checked.parallel, option, checked'.parallel]
  | parallelChunkSize =>
    have option := valid_unique same gives.parallelChunkSize gives'.parallelChunkSize
    rw [Policy.value?, Policy.value?, ← checked.parallelChunkSize, option, checked'.parallelChunkSize]
  | respectGitignore =>
    have option := valid_unique same gives.respectGitignore gives'.respectGitignore
    rw [Policy.value?, Policy.value?, ← checked.respectGitignore, option, checked'.respectGitignore]
  | skipPatterns =>
    have option := taken_unique same gives.skipPatterns gives'.skipPatterns
    rw [Policy.value?, Policy.value?, ← checked.skipPatterns, option, checked'.skipPatterns]
  | language =>
    have option := taken_unique same gives.language gives'.language
    have known : p.language = p'.language :=
      Except.ok.inj (checked.language.symm.trans (option ▸ checked'.language))
    rw [Policy.value?, Policy.value?, known]
  | crateName =>
    have option := taken_unique same gives.crateName gives'.crateName
    rw [Policy.value?, Policy.value?, ← checked.crateName, option, checked'.crateName]

end Settings

end TestSkeleton
