import TestSkeleton.Proofs.Document.Entries
import TestSkeleton.Proofs.Settings.Layer
import TestSkeleton.Proofs.Settings.Policy
import TestSkeleton.Proofs.Signature.Normal

/-! The layout of a policy as a document, and the policy that the document makes.

A document says about every setting what the policy has for it, and a policy that was checked comes of
its own values. -/

namespace TestSkeleton

open Text Signature

namespace Setting

theorem eq_of_place {s t : Setting} (group : s.group = t.group) (field : s.field = t.field) : s = t := by
  revert group field
  cases s <;> cases t <;> decide

theorem name_ne_group (s t : Setting) : s.name ≠ t.group := by
  cases s <;> cases t <;> decide

theorem field_ne_name (s : Setting) : s.field ≠ "name".toList := by
  cases s <;> decide

end Setting

namespace Settings

/-- What the section of a setting says about it. -/
def placed? (document : Entries) (s : Setting) : Option Value :=
  (sectionOf document s.group).get? s.field

theorem saidIn?_eq (document : Entries) (s : Setting) :
    saidIn? document s =
      let said := (placed? document s).or (document.get? s.name)
      if s = .crateName then
        said.or ((sectionOf document Setting.projectSection).get? "name".toList)
      else said := rfl

end Settings

namespace Policy

open Settings

theorem sectionOf_enter (sections : Entries) (s : Setting) (value : Value) (name : Text) :
    sectionOf (enter sections s value) name =
      if name = s.group then (sectionOf sections s.group).put (.text s.field) value
      else sectionOf sections name := by
  rw [sectionOf, enter, Entries.get?_put]
  split
  · rfl
  · rfl

theorem placed?_enter (sections : Entries) (s t : Setting) (value : Value) :
    placed? (enter sections s value) t = if t = s then some value else placed? sections t := by
  rw [placed?, sectionOf_enter]
  by_cases group : t.group = s.group
  · rw [if_pos group, Entries.get?_put]
    by_cases field : t.field = s.field
    · rw [if_pos field, if_pos (Setting.eq_of_place group field)]
    · rw [if_neg field, if_neg fun same => field (congrArg Setting.field same), ← group]
      rfl
  · rw [if_neg group, if_neg fun same => group (congrArg Setting.group same)]
    rfl

theorem placed?_enterOption (p : Policy) (sections : Entries) (s t : Setting) :
    placed? (p.enterOption sections s) t =
      if t = s then (p.value? s).or (placed? sections t) else placed? sections t := by
  rw [enterOption]
  cases p.value? s with
  | none => simp
  | some value => simp [placed?_enter]

theorem placed?_foldl (p : Policy) (sections : Entries) (settings : List Setting) (t : Setting) :
    placed? (settings.foldl p.enterOption sections) t =
      if t ∈ settings then (p.value? t).or (placed? sections t) else placed? sections t := by
  induction settings generalizing sections with
  | nil => rfl
  | cons s settings ih =>
    rw [List.foldl_cons, ih, placed?_enterOption]
    by_cases here : t = s
    · subst here
      cases p.value? t <;> simp
    · by_cases later : t ∈ settings <;> simp [here, later]

/-- A layout has sections only, and no section has a field for the name of the project. -/
theorem get?_foldl (p : Policy) (sections : Entries) (settings : List Setting) (s : Setting) :
    (settings.foldl p.enterOption sections).get? s.name = sections.get? s.name ∧
    (sectionOf (settings.foldl p.enterOption sections) Setting.projectSection).get? "name".toList =
      (sectionOf sections Setting.projectSection).get? "name".toList := by
  induction settings generalizing sections with
  | nil => exact ⟨rfl, rfl⟩
  | cons t settings ih =>
    rw [List.foldl_cons, (ih _).1, (ih _).2, enterOption]
    cases p.value? t with
    | none => exact ⟨rfl, rfl⟩
    | some value =>
      dsimp only
      constructor
      · rw [enter, Entries.get?_put, if_neg (Setting.name_ne_group s t)]
      · rw [sectionOf_enter]
        split
        · rename_i own
          rw [Entries.get?_put, if_neg (Ne.symm (Setting.field_ne_name t)), own]
        · rfl

theorem saidIn?_layout (p : Policy) (s : Setting) : saidIn? p.layout s = p.value? s := by
  have placed : placed? p.layout s = p.value? s := by
    rw [layout, placed?_foldl, if_pos s.mem_all]
    exact Option.or_none
  obtain ⟨flat, named⟩ := get?_foldl p [] Setting.all s
  have unsaid : p.layout.get? s.name = none := flat
  have unnamed : (sectionOf p.layout Setting.projectSection).get? "name".toList = none := named
  rw [saidIn?_eq, placed, unsaid, unnamed]
  simp

theorem layout_ne_nil (p : Policy) : p.layout ≠ [] := by
  intro empty
  have said := saidIn?_layout p .outputDir
  rw [empty] at said
  cases said

theorem storable_value? {p : Policy} (distinct : p.typeMappings.keys.Nodup) {s : Setting} {v : Value}
    (value : p.value? s = some v) : Storable v := by
  cases s with
  | outputDir => exact Option.some.inj value ▸ .text _
  | skipFunctions | skipPatterns => exact Option.some.inj value ▸ .texts _
  | includePrivate | parallel | respectGitignore => exact Option.some.inj value ▸ .flag _
  | timeoutSeconds | parallelChunkSize => exact Option.some.inj value ▸ .int _
  | typeMappings => exact Option.some.inj value ▸ .textTable distinct
  | templatesDir | crateName | language =>
    obtain ⟨t, -, rfl⟩ := Option.map_eq_some_iff.mp value
    exact .text _

theorem storable_section {document : Entries} (stored : Storable (.table document)) (name : Text) :
    Storable (.table (sectionOf document name)) := by
  rw [sectionOf]
  cases found : document.get? name with
  | none => exact .table List.nodup_nil nofun nofun
  | some v => exact (stored.of_get? found).entries

theorem storable_layout {p : Policy} (distinct : p.typeMappings.keys.Nodup) :
    Storable (.table p.layout) := by
  have each (settings : List Setting) (sections : Entries) (stored : Storable (.table sections)) :
      Storable (.table (settings.foldl p.enterOption sections)) := by
    induction settings generalizing sections with
    | nil => exact stored
    | cons s settings ih =>
      apply ih
      rw [enterOption]
      cases value : p.value? s with
      | none => exact stored
      | some v => exact stored.put ((storable_section stored s.group).put (storable_value? distinct value))
  exact each Setting.all [] (.table List.nodup_nil nofun nofun)

/-- What a policy has that reads back as itself: its type overrides have normal keys, each once, and
no text that is set is one that counts as unset. -/
structure Settled (p : Policy) : Prop where
  normal : ∀ entry ∈ p.typeMappings, normalize entry.1 = entry.1
  distinct : p.typeMappings.keys.Nodup
  crateName : p.crateName ≠ some []
  templatesDir : p.templatesDir ≠ some []

theorem settled_of_ofFields {o : PolicyFields} {p : Policy} (made : ofFields o = .ok p)
    (crateName : p.crateName ≠ some []) (templatesDir : p.templatesDir ≠ some []) : p.Settled := by
  have mapped := (checked_of_ofFields made).typeMappings
  have keys := congrArg Table.keys mapped
  rw [Table.keys_ofList] at keys
  have distinct : p.typeMappings.keys.Nodup := mapped ▸ Table.nodup_keys_ofList _
  refine ⟨?_, distinct, crateName, templatesDir⟩
  intro entry member
  have listed : entry.1 ∈ p.typeMappings.keys := List.mem_map_of_mem member
  rw [← keys, List.mem_eraseDups, List.map_map] at listed
  obtain ⟨⟨key, value⟩, -, normal⟩ := List.mem_map.mp listed
  dsimp only [Function.comp_apply] at normal
  rw [← normal]
  exact normalize_normalize key

/-- The options that a policy comes of. -/
def options (p : Policy) : PolicyFields where
  outputDir := p.outputDir
  skipFunctions := p.skipFunctions
  typeMappings := p.typeMappings
  includePrivate := p.includePrivate
  parallel := p.parallel
  parallelChunkSize := p.parallelChunkSize
  respectGitignore := p.respectGitignore
  skipPatterns := p.skipPatterns
  timeoutSeconds := p.timeoutSeconds
  language := p.language.map Language.name
  crateName := p.crateName
  templatesDir := p.templatesDir

/-- Overrides in normal spelling stay as they are. -/
theorem Settled.map_normalize {p : Policy} (settled : p.Settled) :
    p.typeMappings.map (fun (k, v) => (normalize k, v)) = p.typeMappings := by
  conv_rhs => rw [← List.map_id p.typeMappings]
  apply List.map_congr_left
  rintro ⟨key, value⟩ member
  have normal : normalize key = key := settled.normal (key, value) member
  change (normalize key, value) = (key, value)
  rw [normal]

theorem checked_options {p : Policy} (settled : p.Settled) : Checked p.options p where
  outputDir := rfl
  skipFunctions := rfl
  typeMappings :=
    (congrArg Table.ofList settled.map_normalize).trans (Table.ofList_eq_self settled.distinct)
  includePrivate := rfl
  parallel := rfl
  parallelChunkSize := rfl
  respectGitignore := rfl
  skipPatterns := rfl
  timeoutSeconds := rfl
  language := by
    rw [options]
    cases p.language with
    | none => rfl
    | some l => cases l <;> rfl
  crateName := rfl
  templatesDir := rfl

end Policy

namespace Settings

theorem textList_texts (texts : List Text) : (Value.texts texts).textList = texts := by
  rw [Value.texts, Value.textList, List.filterMap_map]
  exact List.filterMap_some

theorem filled_option {option : Option Text} (solid : option ≠ some []) :
    ((option.map Value.text).map filled).getD none = option := by
  cases option with
  | none => rfl
  | some t =>
    have written : t ≠ [] := fun empty => solid (congrArg some empty)
    have kept : (some t).filter (fun t => decide (t ≠ [])) = some t :=
      Option.filter_eq_some_iff.mpr ⟨rfl, decide_eq_true written⟩
    exact kept

/-- Settings that say what a policy has make that policy. -/
theorem policy_of_value? {settings : Settings} {p : Policy} (settled : p.Settled)
    (said : ∀ s, s ≠ .typeMappings → settings.get? s = p.value? s)
    (mapped : settings.mappings = textEntries p.typeMappings) : settings.policy = .ok p := by
  apply policy_eq_ok_iff.mpr
  refine ⟨p.options, ?_, Policy.checked_options settled⟩
  have valid {α : Type} {s : Setting} {read : Value → Option α} {absent a : α} {v : Value}
      (other : s ≠ .typeMappings) (value : p.value? s = some v) (reads : read v = some a) :
      settings.valid s read absent = .ok a := by
    rw [Settings.valid, said s other, value]
    dsimp only
    rw [reads]
  have taken {α : Type} {s : Setting} {read : Value → α} {absent a : α} (other : s ≠ .typeMappings)
      (reads : ((p.value? s).map read).getD absent = a) : settings.taken s read absent = a := by
    rw [Settings.taken, said s other]
    exact reads
  constructor
  case outputDir => exact valid (by decide) rfl rfl
  case includePrivate => exact valid (by decide) rfl rfl
  case parallel => exact valid (by decide) rfl rfl
  case parallelChunkSize => exact valid (by decide) rfl rfl
  case respectGitignore => exact valid (by decide) rfl rfl
  case timeoutSeconds => exact valid (by decide) rfl rfl
  case skipFunctions => exact taken (by decide) (textList_texts _)
  case skipPatterns => exact taken (by decide) (textList_texts _)
  case typeMappings => exact taken_typeMappings settled.distinct mapped
  case language =>
    apply taken (by decide)
    change ((p.language.map fun l => Value.text l.name).map languageName).getD none =
      p.language.map Language.name
    cases p.language with
    | none => rfl
    | some l => cases l <;> decide
  case crateName =>
    apply taken (by decide)
    exact filled_option settled.crateName
  case templatesDir =>
    apply taken (by decide)
    exact filled_option settled.templatesDir

theorem policy_ofDocument_layout {p : Policy} (settled : p.Settled) :
    (ofDocument p.layout).policy = .ok p := by
  have said (s : Setting) : (ofDocument p.layout).get? s = p.value? s := by
    rw [ofDocument, get?_collect, Policy.saidIn?_layout]
  apply policy_of_value? settled (fun s _ => said s)
  rw [mappings, said]
  rfl

end Settings

end TestSkeleton
