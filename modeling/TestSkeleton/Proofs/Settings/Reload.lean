import TestSkeleton.Proofs.Document.Printed
import TestSkeleton.Proofs.Settings.Layout
import TestSkeleton.Proofs.Text.Ascii
import TestSkeleton.Proofs.Workspace.ReadBack

/-! A policy that was written as a configuration file loads again.

The file lists the entries of a table in the order of their keys, so the type overrides may change
places; all else is as it was. -/

namespace TestSkeleton

open Text Yaml

/-- Apart from the type overrides an option is a scalar or a list of texts. -/
theorem Policy.value?_shape {p : Policy} {s : Setting} {v : Value} (single : s ≠ .typeMappings)
    (value : p.value? s = some v) : (∃ x, v = .scalar x) ∨ ∃ texts, v = .texts texts := by
  cases s with
  | outputDir | includePrivate | parallel | respectGitignore | timeoutSeconds | parallelChunkSize =>
    exact .inl ⟨_, (Option.some.inj value).symm⟩
  | skipFunctions | skipPatterns => exact .inr ⟨_, (Option.some.inj value).symm⟩
  | typeMappings => exact absurd rfl single
  | templatesDir | crateName | language =>
    obtain ⟨t, -, rfl⟩ := Option.map_eq_some_iff.mp value
    exact .inl ⟨_, rfl⟩

namespace Settings

/-! A document with its entries in another order -/

section Order

variable {t t' : Entries} (same : inOrder (.table t) = inOrder (.table t'))
  (stored : Storable (.table t'))

include same stored

theorem get?_in_order (name : Text) : (t.get? name).map inOrder = (t'.get? name).map inOrder := by
  cases stored with
  | table distinct _ _ => exact get?_of_inOrder same distinct name

theorem sectionOf_in_order (name : Text) :
    inOrder (.table (sectionOf t name)) = inOrder (.table (sectionOf t' name)) := by
  have found := get?_in_order same stored name
  rw [sectionOf, sectionOf]
  cases first : t.get? name with
  | none =>
    rw [first, Option.map_none] at found
    rw [Option.map_eq_none_iff.mp found.symm]
  | some v =>
    rw [first, Option.map_some] at found
    obtain ⟨v', second, alike⟩ := Option.map_eq_some_iff.mp found.symm
    rw [second]
    exact entries_of_inOrder alike.symm

theorem saidIn?_in_order (s : Setting) :
    (saidIn? t s).map inOrder = (saidIn? t' s).map inOrder := by
  have field (group name : Text) : ((sectionOf t group).get? name).map inOrder =
      ((sectionOf t' group).get? name).map inOrder :=
    get?_in_order (sectionOf_in_order same stored group) (Policy.storable_section stored group) name
  have flat := get?_in_order same stored s.name
  rw [saidIn?_eq, saidIn?_eq]
  dsimp only
  split
  · rw [Option.map_or, Option.map_or, Option.map_or, Option.map_or, placed?, placed?, field, flat, field]
  · rw [Option.map_or, Option.map_or, placed?, placed?, field, flat]

end Order

variable {p : Policy} {document : Entries}

theorem saidIn?_reordered (settled : p.Settled)
    (same : inOrder (.table document) = inOrder (.table p.layout)) {s : Setting}
    (single : s ≠ .typeMappings) : saidIn? document s = p.value? s := by
  have said := saidIn?_in_order same (Policy.storable_layout settled.distinct) s
  rw [Policy.saidIn?_layout] at said
  cases value : p.value? s with
  | none =>
    rw [value] at said
    exact Option.map_eq_none_iff.mp said
  | some v =>
    rw [value, Option.map_some] at said
    obtain ⟨v', found, alike⟩ := Option.map_eq_some_iff.mp said
    rw [found]
    rcases Policy.value?_shape single value with ⟨x, rfl⟩ | ⟨texts, rfl⟩
    · rw [eq_scalar_of_inOrder alike]
    · rw [eq_texts_of_inOrder alike]

theorem mappings_reordered (settled : p.Settled)
    (same : inOrder (.table document) = inOrder (.table p.layout)) :
    ∃ t : Table Text Text, t.Perm p.typeMappings ∧ (ofDocument document).mappings = textEntries t := by
  have said := saidIn?_in_order same (Policy.storable_layout settled.distinct) .typeMappings
  rw [Policy.saidIn?_layout] at said
  obtain ⟨v, found, alike⟩ := Option.map_eq_some_iff.mp said
  obtain ⟨t, perm, rfl⟩ := exists_textEntries_of_inOrder alike
  refine ⟨t, perm, ?_⟩
  rw [mappings, ofDocument, get?_collect, found]
  rfl

end Settings

namespace Policy

theorem Settled.perm {p : Policy} (settled : p.Settled) {t : Table Text Text}
    (perm : t.Perm p.typeMappings) : Settled { p with typeMappings := t } where
  normal entry member := settled.normal entry (perm.mem_iff.mp member)
  distinct := (perm.map _).nodup_iff.mpr settled.distinct
  crateName := settled.crateName
  templatesDir := settled.templatesDir

theorem printed_ascii {p : Policy} (settled : p.Settled) :
    (∀ c ∈ p.print, c.toNat < 0x80) ∧ '\r' ∉ p.print ∧ ':' ∈ p.print := by
  obtain ⟨ink, colon⟩ := print_ink (storable_layout settled.distinct) p.layout_ne_nil
  refine ⟨fun c member => ?_, fun member => ?_, colon⟩
  · have dark := ink c member
    simp only [isInk, isAsciiPrintable, Bool.or_eq_true, Bool.and_eq_true, beq_iff_eq,
      decide_eq_true_eq] at dark
    rcases dark with rfl | ⟨-, below⟩
    · decide
    · omega
  · have dark := ink _ member
    revert dark
    decide

/-- What a policy prints is read from its file as it was printed. -/
theorem readText_printed {p : Policy} (settled : p.Settled) {w : Workspace} {path : Path}
    (there : w.entry path = .ok (.file (Utf8.encode p.print))) : w.readText path = .ok p.print := by
  obtain ⟨ascii, unreturned, -⟩ := printed_ascii settled
  have bytes : w.readBytes path = .ok (Utf8.encode p.print) := by rw [Workspace.readBytes, there]
  rw [Workspace.readText, bytes, mapError_ok, ok_bind, Utf8.decode_encode_ascii ascii, mapError_ok,
    ok_bind, unifyLineEnds_eq_self unreturned]
  rfl

theorem documentAt_printed {p : Policy} (settled : p.Settled) {w : Workspace} {path : Path}
    {document : Entries} (format : Settings.Format.ofPath? path = some .yaml)
    (there : w.entry path = .ok (.file (Utf8.encode p.print)))
    (read : Yaml.read p.print = .ok (.table document)) :
    Settings.documentAt w path = .ok document := by
  obtain ⟨-, -, colon⟩ := printed_ascii settled
  have filled : (trim p.print).isEmpty = false := by
    have visible := mem_trim colon (by decide)
    simpa using List.ne_nil_of_mem visible
  rw [Settings.documentAt, readText_printed settled there]
  dsimp only
  rw [Settings.parse, filled, format, read]
  rfl

/-- From a configuration file alone its policy is loaded. -/
theorem load_printed {p : Policy} (settled : p.Settled) {w : Workspace} {path root : Path}
    {document : Value} (format : Settings.Format.ofPath? path = some .yaml)
    (there : w.entry path = .ok (.file (Utf8.encode p.print))) (unset : w.environment = [])
    (read : Yaml.read p.print = .ok document)
    (same : inOrder document = inOrder (.table p.layout)) :
    ∃ t, t.Perm p.typeMappings ∧
      load w root { asked := some path, withUser := false } = .ok { p with typeMappings := t } := by
  cases document with
  | scalar _ | list _ =>
    rw [inOrder, inOrder] at same
    cases same
  | table document =>
    obtain ⟨t, perm, mapped⟩ := Settings.mappings_reordered settled same
    refine ⟨t, perm, ?_⟩
    have present : w.isPresent path = .ok true := by
      rw [Workspace.isPresent, Workspace.entryAt?, there]
      rfl
    have readable : SettingDocuments.read w root { asked := some path, withUser := false } =
        .ok { project := document } := by
      rw [SettingDocuments.read]
      dsimp only
      rw [if_neg (by decide), pure_bind, Settings.projectDocument]
      rw [present, mapError_ok, ok_bind, if_pos rfl, documentAt_printed settled format there read]
      rfl
    rw [load_of_read readable, unset]
    apply mapError_eq_ok.mpr
    apply Settings.policy_of_value? (settled.perm perm)
    · intro s single
      rw [Settings.get?_layers _ _ _ single, Settings.said?_project,
        Settings.saidIn?_reordered settled same single]
      cases s with
      | typeMappings => exact absurd rfl single
      | _ => rfl
    · have distinct := (settled.perm perm).distinct
      exact (Settings.mappings_layers_project mapped).trans
        (congrArg textEntries (Table.ofList_eq_self distinct))

/-- A policy that was checked comes back of its own layout, and of a YAML file that it was written as,
if the file reads as what was laid out. -/
theorem load_written {o : PolicyFields} {p : Policy} (made : ofFields o = .ok p)
    (crateName : p.crateName ≠ some []) (templatesDir : p.templatesDir ≠ some []) :
    (Settings.ofDocument p.layout).policy = .ok p ∧
    ∀ (w w' : Workspace) (path root : Path) (document : Value), w.Standing →
      Settings.Format.ofPath? path = some .yaml → (p.write path).run w = (.ok (), w') →
      Yaml.read p.print = .ok document → inOrder document = inOrder (.table p.layout) →
      ∃ t, t.Perm p.typeMappings ∧
        load { w' with environment := [] } root { asked := some path, withUser := false } =
          .ok { p with typeMappings := t } := by
  have settled := settled_of_ofFields made crateName templatesDir
  refine ⟨Settings.policy_ofDocument_layout settled, ?_⟩
  intro w w' path root document standing format written read same
  obtain ⟨_, w₁, around, written⟩ := run_bind_eq_ok.mp written
  have there := Change.entry_of_writeFile (Change.standing_of_ensureFolders standing around) written
  exact load_printed settled format there rfl read same

/-- Options with type overrides that are not in order. -/
def twoOverrides : PolicyFields :=
  { typeMappings := [("B".toList, "b()".toList), ("A".toList, "x: 1\n".toList)]
    skipPatterns := [] }

def twoOverridesPolicy : Policy :=
  { default with
    typeMappings := twoOverrides.typeMappings
    skipPatterns := [] }

def emptyProject : Workspace :=
  { files := ⟨[([['p']], .folder)]⟩
    current := [['p']] }

theorem emptyProject_standing : emptyProject.Standing where
  files := FileTree.standing_of_entries (by decide)
  current := by decide

/-- The file reads as what was laid out, in order. -/
theorem twoOverrides_read :
    ∃ document, Yaml.read twoOverridesPolicy.print = .ok document ∧
      inOrder document = inOrder (.table twoOverridesPolicy.layout) := by
  refine ⟨inOrder (.table twoOverridesPolicy.layout), ?_, ?_⟩
  · decide +kernel
  · decide +kernel

/-- Written in a folder that is made for it, the policy is loaded again. -/
theorem twoOverrides_loaded : ofFields twoOverrides = .ok twoOverridesPolicy ∧
    ∃ w', (twoOverridesPolicy.write ⟨.relative, ["conf".toList, "a.YAML".toList]⟩).run emptyProject =
        (.ok (), w') ∧
      ∃ t, t.Perm twoOverridesPolicy.typeMappings ∧
        load { w' with environment := [] } ⟨.slash, [['p']]⟩
          { asked := some ⟨.relative, ["conf".toList, "a.YAML".toList]⟩, withUser := false } =
            .ok { twoOverridesPolicy with typeMappings := t } := by
  have made : ofFields twoOverrides = .ok twoOverridesPolicy := by decide +kernel
  have written : ((twoOverridesPolicy.write ⟨.relative, ["conf".toList, "a.YAML".toList]⟩).run
      emptyProject).1 = .ok () := by decide +kernel
  obtain ⟨document, read, same⟩ := twoOverrides_read
  refine ⟨made, _, Prod.ext written rfl, ?_⟩
  exact (load_written made (by decide) (by decide)).2 emptyProject _ _ _ document emptyProject_standing
    (by decide) (Prod.ext written rfl) read same

/-- A file whose name calls for another format holds the policy as YAML all the same, and does not
load. -/
theorem twoOverrides_not_loaded : ofFields twoOverrides = .ok twoOverridesPolicy ∧
    (∃ document, Yaml.read twoOverridesPolicy.print = .ok document ∧
      inOrder document = inOrder (.table twoOverridesPolicy.layout)) ∧
    ∃ w', (twoOverridesPolicy.write ⟨.relative, ["auto_test.toml".toList]⟩).run emptyProject =
        (.ok (), w') ∧
      load { w' with environment := [] } ⟨.slash, [['p']]⟩
          { asked := some ⟨.relative, ["auto_test.toml".toList]⟩, withUser := false } =
        .error (.config (.malformed "auto_test.toml".toList)) := by
  have made : ofFields twoOverrides = .ok twoOverridesPolicy := by decide +kernel
  have written : ((twoOverridesPolicy.write ⟨.relative, ["auto_test.toml".toList]⟩).run
      emptyProject).1 = .ok () := by decide +kernel
  refine ⟨made, twoOverrides_read, _, Prod.ext written rfl, ?_⟩
  decide +kernel

end Policy

end TestSkeleton
