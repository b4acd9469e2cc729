import TestSkeleton.Proofs.Settings.Layer
import TestSkeleton.Proofs.Settings.Policy

/-! Type overrides from several layers.

The overrides of all layers are joined by the raw spelling of their keys, where a key that a lower
layer has too keeps its place, and only then are the keys brought into normal spelling. Of several
spellings of one type the one in the last place wins. -/

namespace TestSkeleton

open Text Signature

/-- The type overrides of a load, by layer. -/
structure TypeOverrides where
  user : List (Text × Text) := []
  project : List (Text × Text) := []
  asked : List (Text × Text) := []

namespace TypeOverrides

/-- The overrides of all layers, the lowest first. -/
def pairs (t : TypeOverrides) : List (Text × Text) := t.user ++ t.project ++ t.asked

/-- Every layer maps texts to texts, and these are its pairs. -/
structure Of (t : TypeOverrides) (d : SettingDocuments) (overrides : List (Text × Value)) : Prop where
  user : (Settings.ofDocument d.user).mappings = textEntries t.user
  project : (Settings.ofDocument d.project).mappings = textEntries t.project
  asked : (Settings.ofOverrides overrides).mappings = textEntries t.asked

/-- Whether a key spells a type, up to spacing. -/
def spells (type key : Text) : Bool := normalize key == normalize type

/-- The override of a type in the highest layer that spells it: the last one there that does. -/
def highest? (t : TypeOverrides) (type : Text) : Option (Text × Text) :=
  t.pairs.reverse.find? fun entry => spells type entry.1

/-- The spelling of a type that comes up after all its other spellings, from the lowest layer on. -/
def latestSpelling? (t : TypeOverrides) (type : Text) : Option Text :=
  ((t.pairs.map (·.1)).eraseDups.filter (spells type)).getLast?

/-- The override of a key in the highest layer that has it in this very spelling. -/
def spelled? (t : TypeOverrides) (key : Text) : Option Text := t.pairs.reverse.lookup key

theorem spelled?_highest {t : TypeOverrides} {type : Text} {entry : Text × Text}
    (found : t.highest? type = some entry) : t.spelled? entry.1 = some entry.2 :=
  Table.get?_of_find? found

theorem find?_ofList (t : TypeOverrides) (type : Text) :
    ((Table.ofList t.pairs).reverse.find? fun entry => spells type entry.1).map (·.2) =
      (t.latestSpelling? type).bind t.spelled? := by
  rw [Table.find?_reverse (Table.nodup_keys_ofList _), Table.keys_ofList, latestSpelling?]
  cases ((t.pairs.map (·.1)).eraseDups.filter (spells type)).getLast? with
  | none => rfl
  | some key =>
    simp only [Option.bind_some, Table.get?_ofList, Option.map_map, spelled?]
    exact Option.map_id_apply

theorem latestSpelling?_eq_none_iff {t : TypeOverrides} {type : Text} :
    t.latestSpelling? type = none ↔ ∀ entry ∈ t.pairs, spells type entry.1 = false := by
  rw [latestSpelling?, List.getLast?_eq_none_iff, List.filter_eq_nil_iff]
  simp only [List.mem_eraseDups, List.mem_map, forall_exists_index, and_imp, Bool.not_eq_true]
  constructor
  · intro unspelled entry member
    exact unspelled entry.1 entry member rfl
  · rintro unspelled _ entry member rfl
    exact unspelled entry member

theorem spelled?_ne_none {t : TypeOverrides} {type key : Text}
    (latest : t.latestSpelling? type = some key) : t.spelled? key ≠ none := by
  have member := List.mem_eraseDups.mp (List.mem_filter.mp (List.mem_of_getLast? latest)).1
  intro absent
  apply Table.get?_eq_none_iff.mp absent
  rw [Table.keys, List.map_reverse, List.mem_reverse]
  exact member

/-- Where all layers spell a type alike, that spelling comes up last. -/
theorem highest?_eq_latest {t : TypeOverrides} {type : Text}
    (alike : ∀ entry ∈ t.pairs, ∀ other ∈ t.pairs,
      spells type entry.1 = true → spells type other.1 = true → entry.1 = other.1) :
    (t.highest? type).map (·.1) = t.latestSpelling? type := by
  cases latest : t.latestSpelling? type with
  | none =>
    have unspelled := latestSpelling?_eq_none_iff.mp latest
    have absent : t.highest? type = none := by
      apply List.find?_eq_none.mpr
      intro entry member
      simp [unspelled entry (List.mem_reverse.mp member)]
    rw [absent, Option.map_none]
  | some key =>
    obtain ⟨listed, spelled⟩ := List.mem_filter.mp (List.mem_of_getLast? latest)
    obtain ⟨other, among, rfl⟩ := List.mem_map.mp (List.mem_eraseDups.mp listed)
    cases found : t.highest? type with
    | none =>
      have missed := List.find?_eq_none.mp found other (List.mem_reverse.mpr among)
      exact absurd spelled missed
    | some entry =>
      have member := List.mem_reverse.mp (List.mem_of_find?_eq_some found)
      have fits : spells type entry.1 = true :=
        List.find?_some (p := fun entry : Text × Text => spells type entry.1) found
      have same := alike entry member other among fits spelled
      rw [Option.map_some, same]

end TypeOverrides

namespace Settings

theorem typeMappings_of_policy {settings : Settings} {t : Table Text Text} {p : Policy}
    (distinct : t.keys.Nodup) (texts : settings.mappings = textEntries t)
    (given : settings.policy = .ok p) :
    p.typeMappings = Table.ofList (t.map fun (k, v) => (normalize k, v)) := by
  obtain ⟨o, gives, checked⟩ := policy_eq_ok_iff.mp given
  rw [← checked.typeMappings, ← gives.typeMappings, taken_typeMappings distinct texts]

end Settings

namespace Policy

theorem typeMapping?_eq_find? {t : Table Text Text} {p : Policy}
    (mapped : p.typeMappings = Table.ofList (t.map fun (k, v) => (normalize k, v))) (type : Text) :
    p.typeMapping? type =
      (t.reverse.find? fun entry => TypeOverrides.spells type entry.1).map (·.2) := by
  rw [typeMapping?, mapped, Table.get?_ofList, ← List.map_reverse]
  induction t.reverse with
  | nil => rfl
  | cons entry t ih =>
    obtain ⟨k, v⟩ := entry
    rw [List.map_cons, List.lookup_cons, List.find?_cons, BEq.comm]
    cases fits : normalize k == normalize type
    · rw [TypeOverrides.spells, fits]
      exact ih
    · rw [TypeOverrides.spells, fits]
      rfl

/-- The override of a type is that of the spelling which comes up last, and there is none just where
no layer spells the type. It is the one of the highest layer that spells the type where that layer's
spelling is the one that comes up last. -/
theorem typeMapping?_of_load {w : Workspace} {root : Path} {sources : SettingSources}
    {d : SettingDocuments} {t : TypeOverrides} {p : Policy}
    (readable : SettingDocuments.read w root sources = .ok d) (texts : t.Of d sources.overrides)
    (loaded : load w root sources = .ok p) (type : Text) :
    p.typeMapping? type = (t.latestSpelling? type).bind t.spelled? ∧
    (p.typeMapping? type = none ↔ ∀ entry ∈ t.pairs, TypeOverrides.spells type entry.1 = false) ∧
    ((t.highest? type).map (·.1) = t.latestSpelling? type →
      p.typeMapping? type = (t.highest? type).map (·.2)) := by
  rw [load_of_read readable] at loaded
  have given := mapError_eq_ok.mp loaded
  have joined := Settings.mappings_layers_texts texts.user texts.project texts.asked w.environment
  have mapped := Settings.typeMappings_of_policy (Table.nodup_keys_ofList _) joined given
  have found : p.typeMapping? type = (t.latestSpelling? type).bind t.spelled? :=
    (typeMapping?_eq_find? mapped type).trans (t.find?_ofList type)
  refine ⟨found, ?_, ?_⟩
  · rw [found, ← TypeOverrides.latestSpelling?_eq_none_iff]
    cases latest : t.latestSpelling? type with
    | none => simp
    | some key => simpa using TypeOverrides.spelled?_ne_none latest
  · intro last
    rw [found, ← last]
    cases highest : t.highest? type with
    | none => rfl
    | some entry => exact TypeOverrides.spelled?_highest highest

/-- A project whose configuration file spells one type twice. -/
def spacedProject : Workspace :=
  { files := ⟨[([['p']], .folder),
      ([['p'], "auto_test.toml".toList], .file (Utf8.encode
        "[type_mappings]\n\"Vec<u8>\" = \"file()\"\n\"Vec< u8 >\" = \"spaced()\"\n".toList))]⟩
    current := [['p']]
    environment := [("HOME".toList, "/h".toList)] }

def bytesOverride : SettingSources :=
  { overrides := [("type_mappings".toList,
      .table (textEntries [("Vec<u8>".toList, "asked()".toList)]))]
    withUser := false }

def bytesOverrides : TypeOverrides :=
  { project := [("Vec<u8>".toList, "file()".toList), ("Vec< u8 >".toList, "spaced()".toList)]
    asked := [("Vec<u8>".toList, "asked()".toList)] }

/-- The override that is asked for takes the place of its spelling in the file, where the other
spelling stands behind it and wins. -/
theorem bytesOverrides_lost :
    ∃ d p, SettingDocuments.read spacedProject ⟨.slash, [['p']]⟩ bytesOverride = .ok d ∧
      bytesOverrides.Of d bytesOverride.overrides ∧
      load spacedProject ⟨.slash, [['p']]⟩ bytesOverride = .ok p ∧
      bytesOverrides.highest? "Vec<u8>".toList = some ("Vec<u8>".toList, "asked()".toList) ∧
      p.typeMapping? "Vec<u8>".toList = some "spaced()".toList := by
  have readable : SettingDocuments.read spacedProject ⟨.slash, [['p']]⟩ bytesOverride =
      .ok { project := [(.text "type_mappings".toList, .table (textEntries bytesOverrides.project))] } := by
    decide +kernel
  have texts : bytesOverrides.Of
      { project := [(.text "type_mappings".toList, .table (textEntries bytesOverrides.project))] }
      bytesOverride.overrides := by
    constructor <;> rfl
  have loads : (load spacedProject ⟨.slash, [['p']]⟩ bytesOverride).toOption.any (fun _ => true) =
      true := by decide +kernel
  obtain ⟨p, loaded, -⟩ := exists_ok_of_toOption loads
  have latest := (typeMapping?_of_load readable texts loaded "Vec<u8>".toList).1
  have spaced : (bytesOverrides.latestSpelling? "Vec<u8>".toList).bind bytesOverrides.spelled? =
      some "spaced()".toList := by decide +kernel
  exact ⟨_, p, readable, texts, loaded, by decide +kernel, latest.trans spaced⟩

end Policy

end TestSkeleton
