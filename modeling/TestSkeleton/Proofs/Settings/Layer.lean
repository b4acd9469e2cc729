import TestSkeleton.Proofs.Document.Entries
import TestSkeleton.Proofs.Outcome
import TestSkeleton.Proofs.Table
import TestSkeleton.Settings.File

/-! Settings in layers.

Apart from the type overrides, the settings of several layers are for each setting what the highest
layer says that sets it. -/

namespace TestSkeleton

namespace Setting

theorem mem_all (s : Setting) : s ∈ all := by
  cases s <;> decide

theorem nodup_all : all.Nodup := by
  decide

theorem ofName?_eq_some_iff {name : Text} {s : Setting} : ofName? name = some s ↔ name = s.name := by
  constructor
  · intro found
    rw [ofName?] at found
    have same := List.find?_some found
    exact (beq_iff_eq.mp same).symm
  · rintro rfl
    cases s <;> decide

end Setting

namespace Settings

theorem keys_collect (found : Setting → Option Value) :
    (collect found).keys = Setting.all.filter fun s => (found s).isSome := by
  rw [collect, Table.keys, List.map_filterMap, ← List.filterMap_eq_filter]
  congr 1
  funext s
  cases said : found s <;> simp [Option.guard, said]

theorem nodup_keys_collect (found : Setting → Option Value) : (collect found).keys.Nodup := by
  rw [keys_collect]
  exact Setting.nodup_all.filter _

theorem get?_collect (found : Setting → Option Value) (s : Setting) :
    (collect found).get? s = found s := by
  cases said : found s with
  | none =>
    rw [Table.get?_eq_none_iff, keys_collect, List.mem_filter, said]
    simp
  | some value =>
    rw [Table.get?_eq_some_iff (nodup_keys_collect found), collect, List.mem_filterMap]
    exact ⟨s, s.mem_all, by rw [said]; rfl⟩

/-- What overrides say about a setting: the last of that name that is not null. -/
def overridden? (overrides : List (Text × Value)) (s : Setting) : Option Value :=
  (overrides.reverse.find? fun (name, value) => name == s.name && !value.isNull).map (·.2)

theorem get?_ofOverrides (overrides : List (Text × Value)) (s : Setting) :
    (ofOverrides overrides).get? s = overridden? overrides s := by
  rw [ofOverrides, Table.get?_ofList, ← List.filterMap_reverse, overridden?]
  induction overrides.reverse with
  | nil => rfl
  | cons entry rest ih =>
    obtain ⟨name, value⟩ := entry
    by_cases null : value.isNull = true
    · simp [null, ih]
    · cases known : Setting.ofName? name with
      | none =>
        have other : (name == s.name) = false := by
          rw [beq_eq_false_iff_ne]
          intro same
          rw [Setting.ofName?_eq_some_iff.mpr same] at known
          cases known
        simp [null, known, other, ih]
      | some t =>
        obtain rfl := Setting.ofName?_eq_some_iff.mp known
        by_cases same : s = t
        · simp [null, known, same]
        · have apart : (t.name == s.name) = false := by
            rw [beq_eq_false_iff_ne]
            intro named
            rw [Setting.ofName?_eq_some_iff.mpr named] at known
            exact same (Option.some.inj known)
          have missed : (s == t) = false := by simpa using same
          simp [null, known, apart, List.lookup_cons, missed, ih]

theorem overlay_cons (below : Settings) (s : Setting) (value : Value) (rest : Settings) :
    overlay below ((s, value) :: rest) = overlay (overlaySetting below s value) rest := rfl

theorem get?_overlaySetting {below : Settings} {s t : Setting} {value : Value}
    (scalar : t ≠ .typeMappings) :
    (overlaySetting below s value).get? t = if t = s then some value else below.get? t := by
  rw [overlaySetting]
  split
  · rename_i joined
    subst joined
    rw [Table.get?_put]
    simp [scalar]
  · rw [Table.get?_put]
    simp

theorem get?_overlay {below layer : Settings} (distinct : layer.keys.Nodup) {s : Setting}
    (scalar : s ≠ .typeMappings) :
    (overlay below layer).get? s = (layer.get? s).or (below.get? s) := by
  induction layer generalizing below with
  | nil => rfl
  | cons entry rest ih =>
    obtain ⟨t, value⟩ := entry
    obtain ⟨absent, distinct⟩ := List.nodup_cons.mp distinct
    rw [overlay_cons, ih distinct, get?_overlaySetting scalar, Table.get?_cons]
    by_cases same : s = t
    · subst same
      rw [if_pos rfl, if_pos rfl, Table.get?_eq_none_iff.mpr absent]
      rfl
    · rw [if_neg same, if_neg same]

theorem mappings_overlaySetting (below : Settings) (s : Setting) (value : Value) :
    (overlaySetting below s value).mappings =
      if s = .typeMappings then Entries.putAll below.mappings value.entries else below.mappings := by
  rw [overlaySetting]
  split
  · rename_i joined
    simp [mappings, joined, Table.get?_put, Value.entries]
  · rename_i other
    have apart : (Setting.typeMappings == s) = false := by simpa using Ne.symm other
    simp [mappings, Table.get?_put, apart]

theorem mappings_overlay {below layer : Settings} (distinct : layer.keys.Nodup) :
    (overlay below layer).mappings = Entries.putAll below.mappings layer.mappings := by
  induction layer generalizing below with
  | nil => rfl
  | cons entry rest ih =>
    obtain ⟨t, value⟩ := entry
    obtain ⟨absent, distinct⟩ := List.nodup_cons.mp distinct
    rw [overlay_cons, ih distinct, mappings_overlaySetting]
    simp only [mappings, Table.get?_cons]
    by_cases joined : t = .typeMappings
    · subst joined
      rw [if_pos rfl, if_pos rfl, Table.get?_eq_none_iff.mpr absent]
      rfl
    · rw [if_neg joined, if_neg (Ne.symm joined)]

/-- What the highest layer says that sets a setting: overrides, then variables, then the document of
the project, then the one of the user. -/
def said? (d : SettingDocuments) (environment : Table Text Text) (overrides : List (Text × Value))
    (s : Setting) : Option Value :=
  (overridden? overrides s).or <| (saidBy? environment s).or <|
    (saidIn? d.project s).or (saidIn? d.user s)

/-- Where only the document of the project is given, it has the say. -/
theorem said?_project (document : Entries) (s : Setting) :
    said? { project := document } [] [] s = saidIn? document s := by
  have environ : saidBy? [] s = none := by
    rw [saidBy?]
    split <;> rfl
  have user : saidIn? [] s = none := by
    rw [saidIn?]
    split <;> rfl
  rw [said?, environ, user, Option.or_none]
  rfl

theorem nodup_keys_layers (d : SettingDocuments) (environment : Table Text Text)
    (overrides : List (Text × Value)) :
    (ofDocument d.user).keys.Nodup ∧ (ofDocument d.project).keys.Nodup ∧
      (ofVariables environment).keys.Nodup ∧ (ofOverrides overrides).keys.Nodup :=
  ⟨nodup_keys_collect _, nodup_keys_collect _, nodup_keys_collect _, Table.nodup_keys_ofList _⟩

theorem get?_layers (d : SettingDocuments) (environment : Table Text Text)
    (overrides : List (Text × Value)) {s : Setting} (scalar : s ≠ .typeMappings) :
    ((layers d environment overrides).foldl overlay []).get? s =
      said? d environment overrides s := by
  obtain ⟨user, project, environ, asked⟩ := nodup_keys_layers d environment overrides
  simp only [layers, List.foldl_cons, List.foldl_nil]
  rw [get?_overlay asked scalar, get?_overlay environ scalar, get?_overlay project scalar,
    get?_overlay user scalar, get?_ofOverrides]
  simp only [ofVariables, ofDocument, get?_collect, said?]
  exact congrArg _ (congrArg _ (congrArg _ Option.or_none))

/-- The type overrides of all layers are joined, those of a higher layer over those of a lower one. -/
theorem mappings_layers (d : SettingDocuments) (environment : Table Text Text)
    (overrides : List (Text × Value)) :
    ((layers d environment overrides).foldl overlay []).mappings =
      Entries.putAll (Entries.putAll (Entries.putAll [] (ofDocument d.user).mappings)
        (ofDocument d.project).mappings) (ofOverrides overrides).mappings := by
  obtain ⟨user, project, environ, asked⟩ := nodup_keys_layers d environment overrides
  have unsaid : (ofVariables environment).mappings = [] := by
    rw [mappings, ofVariables, get?_collect]
    rfl
  simp only [layers, List.foldl_cons, List.foldl_nil]
  rw [mappings_overlay asked, mappings_overlay environ, mappings_overlay project,
    mappings_overlay user, unsaid]
  rfl

/-- Where every layer maps texts to texts, the pairs of all layers are entered one after another. -/
theorem mappings_layers_texts {d : SettingDocuments} {overrides : List (Text × Value)}
    {user project asked : List (Text × Text)}
    (ofUser : (ofDocument d.user).mappings = textEntries user)
    (ofProject : (ofDocument d.project).mappings = textEntries project)
    (ofAsked : (ofOverrides overrides).mappings = textEntries asked)
    (environment : Table Text Text) :
    ((layers d environment overrides).foldl overlay []).mappings =
      textEntries (Table.ofList (user ++ project ++ asked)) := by
  have start : ([] : Entries) = textEntries [] := rfl
  rw [mappings_layers, ofUser, ofProject, ofAsked, start, putAll_textEntries, putAll_textEntries,
    putAll_textEntries, Table.ofList, Table.putAll_append, Table.putAll_append]

theorem mappings_layers_project {document : Entries} {t : List (Text × Text)}
    (mapped : (ofDocument document).mappings = textEntries t) :
    ((layers { project := document } [] []).foldl overlay []).mappings =
      textEntries (Table.ofList t) := by
  have user : (ofDocument []).mappings = textEntries [] := by
    rw [mappings, ofDocument, get?_collect]
    rfl
  have asked : (ofOverrides []).mappings = textEntries [] := rfl
  have joined := mappings_layers_texts (d := { project := document }) user mapped asked []
  rwa [List.nil_append, List.append_nil] at joined

end Settings

namespace Policy

/-- A load whose documents can be read comes of the layers alone. -/
theorem load_of_read {w : Workspace} {root : Path} {sources : SettingSources} {d : SettingDocuments}
    (readable : SettingDocuments.read w root sources = .ok d) :
    load w root sources =
      ((Settings.layers d w.environment sources.overrides).foldl Settings.overlay []).policy.mapError
        .config := by
  rw [load, readable, ok_bind]

end Policy

end TestSkeleton
