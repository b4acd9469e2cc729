import TestSkeleton.Proofs.Discovery.Output
import TestSkeleton.Proofs.Generation.ModuleFile
import TestSkeleton.Proofs.Workspace.Change
import TestSkeleton.Proofs.Workspace.TruePath

/-! The module of a source file that a scan finds.

A scan names a file by the way from the root down. Its module comes from the true path instead: from the
names between the root and the place that the file is at, when it is below the root. A link from the
project to a file elsewhere is given its whole path, from the topmost folder on. -/

namespace TestSkeleton

open Text

namespace ModulePath

/-- Whether the names of a module come from the names of a path: between backslashes, and perhaps without the
suffix of a source file. -/
def IsMadeOf (module : ModulePath) (names : Place) : Prop :=
  ∀ part ∈ module, ∃ name ∈ names, part ∈ splitOn '\\' name ∨ part ++ ".rs".toList ∈ splitOn '\\' name

theorem slashParts_eq {name : Text} (plain : '/' ∉ name) : slashParts name = splitOn '\\' name := by
  refine splitWhere_congr fun c member => ?_
  have other : (c == '/') = false := by
    rw [beq_eq_false_iff_ne]
    rintro rfl
    exact plain member
  rw [other, Bool.false_or]

theorem mem_slashParts_join {names : Place} (plain : ∀ name ∈ names, '/' ∉ name) (filled : names ≠ [])
    {part : Text} (member : part ∈ slashParts (join ['/'] names)) :
    ∃ name ∈ names, part ∈ splitOn '\\' name := by
  induction names with
  | nil => exact absurd rfl filled
  | cons first rest ih =>
    have own := slashParts_eq (plain first List.mem_cons_self)
    by_cases last : rest = []
    · subst last
      rw [join, own] at member
      exact ⟨first, List.mem_cons_self, member⟩
    · rw [join_cons, if_neg last, List.singleton_append, slashParts, splitWhere_append _ _ rfl] at member
      rcases List.mem_append.mp member with here | later
      · exact ⟨first, List.mem_cons_self, own ▸ here⟩
      · obtain ⟨name, inside, found⟩ := ih (fun n inside => plain n (List.mem_cons_of_mem _ inside)) last later
        exact ⟨name, List.mem_cons_of_mem _ inside, found⟩

/-- A module has its names from the names of the path of its file. -/
theorem isMadeOf_ofFile {names : Place} (plain : ∀ name ∈ names, '/' ∉ name) (filled : names ≠ [])
    (l : Language) : (ofFile l (join ['/'] names)).IsMadeOf names := by
  intro part member
  rcases mem_ofFile member with whole | stem
  · obtain ⟨name, inside, found⟩ := mem_slashParts_join plain filled whole
    exact ⟨name, inside, .inl found⟩
  · obtain ⟨name, inside, found⟩ := mem_slashParts_join plain filled stem
    exact ⟨name, inside, .inr found⟩

end ModulePath

namespace Target

/-- Whether a function belongs to a module, and all its tests to the file of the module. -/
def HasModule (t : Target) (w : Workspace) (f : Function) (module : ModulePath) : Prop :=
  t.moduleOf w f = .ok module ∧
    ∀ c, t.buildCase w f = .ok c → c.module = module ∧ c.path = (t.outputPath module).text

/-- The module of a function in a file is told by the path of the file as seen from the root. -/
theorem hasModule {w : Workspace} {t : Target} {f : Function} {p : Path} {seen : Text}
    (absolute : p.isAbsolute = true) (valid : Path.AreParts p.parts) (file : f.file = p.text)
    (relative : w.relativeText t.root p = .ok seen) :
    t.HasModule w f (ModulePath.ofFile t.dialect.language seen ++ f.scope) := by
  have found : t.moduleOf w f = .ok (ModulePath.ofFile t.dialect.language seen ++ f.scope) := by
    rw [moduleOf, file, Path.read_text_of_absolute absolute valid, relative]
    rfl
  refine ⟨found, fun c built => ?_⟩
  obtain ⟨same, path⟩ := buildCase_module built
  rw [found, Except.ok.injEq] at same
  rw [same]
  exact ⟨rfl, path⟩

end Target

namespace Discovery

variable {w : Workspace} {policy : Policy} {start root : Path} {suffixes : List Text} {d : Discovery}

theorem exists_located_of_isRegular {p : Path} (regular : isRegular w p = true) :
    ∃ place content, w.locate p = .ok ⟨place, some (.file content)⟩ := by
  have isFile : w.isFile p = .ok true := by
    rw [isRegular] at regular
    split at regular
    · rw [‹w.isFile _ = _›, regular]
    · cases regular
  obtain ⟨content, found⟩ := Workspace.isFile_eq_true.mp isFile
  obtain ⟨⟨place, entry⟩, located, there⟩ := bind_eq_ok.mp found
  refine ⟨place, content, ?_⟩
  cases entry with
  | none => cases there
  | some entry => rw [located, pure_eq_ok.mp there]

/-- The files below a folder are entries of the tree that lead to files. -/
theorem entry_of_mem_filesBelow {place f : Place} (member : f ∈ filesBelow w root place) :
    root.parts ++ f ∈ w.files.entries.keys ∧ isRegular w ⟨root.root, root.parts ++ f⟩ = true := by
  induction place using filesBelow.induct w root generalizing f with
  | case1 place ih =>
    rw [filesBelow_eq] at member
    rcases List.mem_append.mp member with own | deeper
    · obtain ⟨listed, regular⟩ := List.mem_filter.mp own
      obtain ⟨name, inside, rfl⟩ := List.mem_map.mp listed
      refine ⟨?_, regular⟩
      rw [← List.append_assoc]
      exact FileTree.mem_namesIn.mp inside
    · obtain ⟨p, folder, inside⟩ := List.mem_flatMap.mp deeper
      exact ih p folder inside

/-- A scan starts from an absolute path. -/
theorem isAbsolute_of_rootOf (rooted : rootOf w start = .ok root) : root.isAbsolute = true := by
  obtain ⟨p, -, resolved⟩ := bind_eq_ok.mp (rootOf_eq_ok rooted).1
  have absolute : ∀ q, (w.absolute q).isAbsolute = true := by
    rintro ⟨root, parts⟩
    cases root <;> rfl
  rw [Workspace.resolve] at resolved
  split at resolved
  · cases resolved
  · rw [← Except.ok.inj resolved]
    exact absolute _

/-- A folder that a scan finds files in is its own true path. -/
theorem resolve_root (wellFormed : w.files.WellFormed) (addressable : w.files.Addressable)
    (rooted : rootOf w start = .ok root) (folder : w.files.entryAt? root.parts = some .folder) :
    w.resolve root = .ok ⟨.slash, root.parts⟩ := by
  have absolute := isAbsolute_of_rootOf rooted
  obtain ⟨place, located⟩ := Workspace.isFolder_eq_true.mp (rootOf_eq_ok rooted).2.2
  have valid := wellFormed.areParts folder
  have base : w.base root = [] := if_pos absolute
  have led := (Workspace.locate_eq_ok_iff.mp located).2
  rw [base, FileTree.follow_eq_ok_iff] at led
  have same := led.eq_of_solid wellFormed (addressable.isWithin folder).2 folder (by simp)
  rw [Workspace.resolve_eq_place wellFormed addressable absolute valid located, same]

/-- What a scan finds is an entry below its folder that leads to a file. -/
theorem exists_located_of_mem_files (scanned : scan w policy start suffixes = .ok d) {p : Path}
    (listed : p ∈ d.files) :
    ∃ name behind place content, p = ⟨d.root.root, d.root.parts ++ name :: behind⟩ ∧
      d.root.parts ++ name :: behind ∈ w.files.entries.keys ∧
      w.locate p = .ok ⟨place, some (.file content)⟩ := by
  obtain ⟨_, below, rfl, member, -⟩ := exists_kept_of_mem_files scanned listed
  obtain ⟨isKey, regular⟩ := entry_of_mem_filesBelow member
  obtain ⟨place, content, located⟩ := exists_located_of_isRegular regular
  obtain ⟨name, behind, rfl⟩ := prefix_of_mem_filesBelow member
  exact ⟨name, behind, place, content, rfl, isKey, located⟩

/-- A file that a scan finds is at a place of its own, which only a link makes another than its path spells.
When the place is below the root, the file is seen by the names from the root to the place, all of them
entries below the root, and the modules of its functions are made of these names and of the modules
inside the file. Otherwise the file is seen by its whole path. -/
theorem module_of_scanned (wellFormed : w.files.WellFormed) (addressable : w.files.Addressable)
    (scanned : scan w policy start suffixes = .ok d) {p : Path} (listed : p ∈ d.files) :
    ∃ below place content, p = ⟨d.root.root, d.root.parts ++ below⟩ ∧
      w.locate p = .ok ⟨place, some (.file content)⟩ ∧
      ((∀ target, w.files.entryAt? (d.root.parts ++ below) ≠ some (.link target)) →
        place = d.root.parts ++ below) ∧
      (∀ rest, place = d.root.parts ++ rest →
        w.relativeText d.root p = .ok (join ['/'] rest) ∧
        (∀ front ≠ [], front <+: rest → d.root.parts ++ front ∈ w.files.entries.keys) ∧
        ∀ (t : Target) (f : Function), t.root = d.root → f.file = p.text →
          (ModulePath.ofFile t.dialect.language (join ['/'] rest)).IsMadeOf rest ∧
          t.HasModule w f (ModulePath.ofFile t.dialect.language (join ['/'] rest) ++ f.scope)) ∧
      (¬ d.root.parts <+: place →
        w.relativeText d.root p = .ok p.text ∧ p.isAbsolute = true ∧
        ∀ (t : Target) (f : Function), t.root = d.root → f.file = p.text →
          t.HasModule w f (ModulePath.ofFile t.dialect.language p.text ++ f.scope)) := by
  obtain ⟨name, behind, place, content, rfl, isKey, located⟩ := exists_located_of_mem_files scanned listed
  obtain ⟨_, rooted, -, -⟩ := files_eq_plainFiles scanned
  have absolute : (⟨d.root.root, d.root.parts ++ name :: behind⟩ : Path).isAbsolute = true :=
    (isAbsolute_of_rootOf rooted :)
  obtain ⟨entry, there⟩ : ∃ entry, w.files.entryAt? (d.root.parts ++ name :: behind) = some entry :=
    Option.ne_none_iff_exists'.mp fun missing =>
      (FileTree.entryAt?_eq_none_iff (by simp)).mp missing isKey
  have folder := wellFormed.around (by simp) there
  have valid := wellFormed.areParts there
  have relative := Workspace.relativeText_eq wellFormed addressable
    (resolve_root wellFormed addressable rooted folder) absolute valid located
  refine ⟨name :: behind, place, content, rfl, located, ?_, ?_, ?_⟩
  · intro solid
    have base : w.base ⟨d.root.root, d.root.parts ++ name :: behind⟩ = [] := if_pos absolute
    have led := (Workspace.locate_eq_ok_iff.mp located).2
    rw [base, FileTree.follow_eq_ok_iff] at led
    exact led.eq_of_solid wellFormed (addressable _ isKey).2 there fun target link =>
      solid target (by rw [there, link])
  · rintro rest rfl
    have found : w.files.entryAt? (d.root.parts ++ rest) = some (.file content) :=
      (Workspace.entry_of_locate located).symm
    have filled : rest ≠ [] := by
      rintro rfl
      rw [List.append_nil, folder] at found
      cases found
    have plain : ∀ n ∈ rest, '/' ∉ n := fun n inside =>
      (wellFormed.areParts found n (List.mem_append_right _ inside)).2.2
    rw [if_pos (List.prefix_append _ _), List.drop_left, Path.text_relative filled] at relative
    refine ⟨relative, ?_, ?_⟩
    · rintro front named ⟨others, rfl⟩
      rw [← List.append_assoc] at found
      exact wellFormed.isKey_of_append (by simp [named]) found
    · intro t f same file
      exact ⟨ModulePath.isMadeOf_ofFile plain filled _, Target.hasModule absolute valid file (same ▸ relative)⟩
  · intro outside
    rw [if_neg outside] at relative
    refine ⟨relative, absolute, ?_⟩
    intro t f same file
    exact Target.hasModule absolute valid file (same ▸ relative)

/-- A project with a link to a file elsewhere. -/
def linked : Workspace :=
  { files := ⟨[([['p']], .folder), ([['p'], "src".toList], .folder),
      ([['p'], "src".toList, "a.rs".toList], .link "/o/b.rs".toList), ([['o']], .folder),
      ([['o'], "b.rs".toList], .file [])]⟩
    current := [['p']]
    environment := [("HOME".toList, "/h".toList)] }

def linkedRoot : Path := ⟨.slash, [['p']]⟩

def linkedFile : Path := ⟨.slash, [['p'], "src".toList, "a.rs".toList]⟩

def linkedTarget : Target := ⟨linkedRoot, Policy.default, .rust ⟨"demo".toList, none⟩⟩

def linkedFunction : Function := { name := ['f'], parameters := [], returns := [], file := linkedFile.text }

/-- The link is found below `src`, and its functions have a module that starts at the topmost folder. -/
theorem linked_hasModule :
    ∃ d, scan linked Policy.default linkedRoot [".rs".toList] = .ok d ∧ linkedFile ∈ d.files ∧
      linked.relativeText linkedRoot linkedFile = .ok "/p/src/a.rs".toList ∧
      linkedTarget.HasModule linked linkedFunction [['p'], "src".toList, ['a']] := by
  have wellFormed : linked.files.WellFormed := ⟨by decide, by decide, by decide, by decide⟩
  have ends : (scan linked Policy.default linkedRoot [".rs".toList]).toOption.any
      (fun d => d.root == linkedRoot && d.files.contains linkedFile) = true := by decide +kernel
  obtain ⟨d, scanned, found⟩ := exists_ok_of_toOption ends
  obtain ⟨rooted, listed⟩ := (Bool.and_eq_true _ _).mp found
  have member := List.contains_iff_mem.mp listed
  obtain ⟨_, place, _, -, located, -, -, elsewhere⟩ :=
    module_of_scanned wellFormed (by decide) scanned member
  have led : linked.locate linkedFile = .ok ⟨[['o'], "b.rs".toList], some (.file [])⟩ := by decide +kernel
  obtain ⟨rfl, -⟩ := Spot.mk.inj (Except.ok.inj (located.symm.trans led))
  rw [beq_iff_eq.mp rooted] at elsewhere
  obtain ⟨seen, -, modules⟩ := elsewhere (by decide)
  exact ⟨d, scanned, member, seen, modules linkedTarget linkedFunction rfl rfl⟩

end Discovery

end TestSkeleton
