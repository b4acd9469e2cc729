import TestSkeleton.Discovery
import TestSkeleton.Proofs.Workspace.Tree
import Mathlib.Data.List.Induction
import Mathlib.Data.List.Infix

/-! All files of a project in the order of the walk, by recursion on what lies below a folder. -/

namespace TestSkeleton

namespace FileTree

theorem mem_keys_of_entryAt? {t : FileTree} {place : Place} {entry : Entry} (filled : place ≠ [])
    (found : t.entryAt? place = some entry) : (place, entry) ∈ t.entries := by
  rw [entryAt?, if_neg filled, Table.get?, List.lookup_eq_some_iff] at found
  obtain ⟨front, back, shape, -⟩ := found
  rw [shape]
  simp

/-- Whether an entry lies below a folder. -/
def isBelow (folder : Place) (entry : Place × Entry) : Bool :=
  folder.isPrefixOf entry.1 && entry.1 ≠ folder

theorem length_below (t : FileTree) (folder : Place) :
    (t.below folder).length = (t.entries.filter (isBelow folder)).length := by
  rw [below]
  induction t.entries with
  | nil => rfl
  | cons entry rest ih =>
    obtain ⟨place, entry⟩ := entry
    by_cases inside : isBelow folder (place, entry) = true
    · have both : folder.isPrefixOf place ∧ place ≠ folder := by simpa [isBelow] using inside
      simp only [List.filterMap_cons, if_pos both, List.filter_cons_of_pos inside, List.length_cons, ih]
    · have neither : ¬(folder.isPrefixOf place ∧ place ≠ folder) := by simpa [isBelow] using inside
      simp only [List.filterMap_cons, if_neg neither, List.filter_cons_of_neg inside, ih]

theorem isBelow_of_isBelow_append {folder : Place} {name : Text} {entry : Place × Entry}
    (inside : isBelow (folder ++ [name]) entry = true) : isBelow folder entry = true := by
  simp only [isBelow, Bool.and_eq_true, List.isPrefixOf_iff_prefix, decide_eq_true_eq] at inside ⊢
  refine ⟨(List.prefix_append folder [name]).trans inside.1, ?_⟩
  intro same
  have longer := inside.1.length_le
  rw [same, List.length_append, List.length_singleton] at longer
  omega

/-- The entries below a folder in a folder are fewer than those below the outer one. -/
theorem length_below_lt {t : FileTree} {folder : Place} {name : Text} {entry : Entry}
    (found : t.entryAt? (folder ++ [name]) = some entry) :
    (t.below (folder ++ [name])).length < (t.below folder).length := by
  have listed := mem_keys_of_entryAt? (by simp) found
  have here : isBelow folder (folder ++ [name], entry) = true := by simp [isBelow]
  have notHere : isBelow (folder ++ [name]) (folder ++ [name], entry) = false := by simp [isBelow]
  have nested : t.entries.filter (isBelow (folder ++ [name])) =
      (t.entries.filter (isBelow folder)).filter (isBelow (folder ++ [name])) := by
    rw [List.filter_filter]
    apply List.filter_congr
    intro e member
    cases inside : isBelow (folder ++ [name]) e with
    | false => rfl
    | true => rw [isBelow_of_isBelow_append inside, Bool.and_self]
  rw [length_below, length_below, nested, List.length_filter_lt_length_iff_exists]
  exact ⟨_, List.mem_filter.mpr ⟨listed, here⟩, by simp [notHere]⟩

theorem length_below_le (t : FileTree) (folder : Place) :
    (t.below folder).length ≤ t.entries.length :=
  List.length_filterMap_le _ _

end FileTree

namespace Discovery

/-- Whether a path leads to a file. -/
def isRegular (w : Workspace) (p : Path) : Bool :=
  match w.isFile p with
  | .ok b => b
  | .error _ => false

/-- The entries of a folder, by name. -/
def entriesIn (w : Workspace) (root : Path) (place : Place) : List Place :=
  (w.files.namesIn (root.parts ++ place)).map fun name => place ++ [name]

def foldersIn (w : Workspace) (root : Path) (place : Place) : List Place :=
  (entriesIn w root place).filter fun p => w.files.entryAt? (root.parts ++ p) == some .folder

theorem length_below_lt_of_mem_foldersIn {w : Workspace} {root : Path} {place p : Place}
    (member : p ∈ foldersIn w root place) :
    (w.files.below (root.parts ++ p)).length < (w.files.below (root.parts ++ place)).length := by
  obtain ⟨listed, found⟩ := List.mem_filter.mp member
  obtain ⟨name, -, rfl⟩ := List.mem_map.mp listed
  rw [← List.append_assoc] at found ⊢
  exact FileTree.length_below_lt (beq_iff_eq.mp found)

/-- All files below a folder: its own by name, then those of its folders by name. -/
def filesBelow (w : Workspace) (root : Path) (place : Place) : List Place :=
  (entriesIn w root place).filter (fun p => isRegular w ⟨root.root, root.parts ++ p⟩) ++
    (foldersIn w root place).attach.flatMap fun ⟨p, _⟩ => filesBelow w root p
termination_by (w.files.below (root.parts ++ place)).length
decreasing_by exact length_below_lt_of_mem_foldersIn ‹_›

theorem filesBelow_eq (w : Workspace) (root : Path) (place : Place) :
    filesBelow w root place =
      (entriesIn w root place).filter (fun p => isRegular w ⟨root.root, root.parts ++ p⟩) ++
        (foldersIn w root place).flatMap (filesBelow w root) := by
  rw [filesBelow]
  congr 1
  have plain : (foldersIn w root place).attach.flatMap (fun p => filesBelow w root p.1) =
      ((foldersIn w root place).attach.map Subtype.val).flatMap (filesBelow w root) := by
    rw [List.flatMap_map]
  rw [List.attach_map_subtype_val] at plain
  exact plain

theorem mem_entriesIn {w : Workspace} {root : Path} {place : Place} {name : Text} :
    place ++ [name] ∈ entriesIn w root place ↔
      root.parts ++ place ++ [name] ∈ w.files.entries.keys := by
  rw [entriesIn, List.mem_map, ← FileTree.mem_namesIn]
  constructor
  · rintro ⟨n, listed, same⟩
    rwa [← List.singleton_inj.mp (List.append_cancel_left same)]
  · exact fun listed => ⟨name, listed, rfl⟩

theorem mem_filesBelow_of_file {w : Workspace} {root : Path} {place : Place} (name : Text)
    (listed : root.parts ++ place ++ [name] ∈ w.files.entries.keys)
    (regular : isRegular w ⟨root.root, root.parts ++ (place ++ [name])⟩ = true) :
    place ++ [name] ∈ filesBelow w root place := by
  rw [filesBelow_eq]
  exact List.mem_append_left _ (List.mem_filter.mpr ⟨mem_entriesIn.mpr listed, regular⟩)

theorem mem_filesBelow_of_folder {w : Workspace} {root : Path} {place f : Place} (name : Text)
    (listed : root.parts ++ place ++ [name] ∈ w.files.entries.keys)
    (folder : w.files.entryAt? (root.parts ++ (place ++ [name])) = some .folder)
    (inside : f ∈ filesBelow w root (place ++ [name])) : f ∈ filesBelow w root place := by
  rw [filesBelow_eq]
  refine List.mem_append_right _ (List.mem_flatMap.mpr ⟨_, List.mem_filter.mpr ⟨?_, ?_⟩, inside⟩)
  · exact mem_entriesIn.mpr listed
  · exact beq_iff_eq.mpr folder

/-- What is below a folder begins with the folder and goes on. -/
theorem prefix_of_mem_filesBelow {w : Workspace} {root : Path} {place f : Place}
    (member : f ∈ filesBelow w root place) : ∃ name rest, f = place ++ name :: rest := by
  induction place using filesBelow.induct w root generalizing f with
  | case1 place ih =>
    rw [filesBelow_eq] at member
    rcases List.mem_append.mp member with own | deeper
    · obtain ⟨name, -, rfl⟩ := List.mem_map.mp (List.mem_filter.mp own).1
      exact ⟨name, [], rfl⟩
    · obtain ⟨p, folder, inside⟩ := List.mem_flatMap.mp deeper
      obtain ⟨name, rest, rfl⟩ := ih p folder inside
      obtain ⟨first, -, rfl⟩ := List.mem_map.mp (List.mem_filter.mp folder).1
      exact ⟨first, name :: rest, by simp⟩

end Discovery

/-! Which files a walk keeps: the ones that nothing on the way from the root leaves out. -/

open Text

namespace Discovery

section Plain

variable (w : Workspace) (policy : Policy) (root : Path) (user : Option Path)

/-- The ignore files that count inside a folder: the user's, that of the repository, and those of
the folders from the root down. -/
def ruleFiles (place : Place) : List (Text × Path) :=
  user.toList.map (([], ·)) ++ [([], root.child ".git/info/exclude".toList)] ++
    place.inits.map fun folder =>
      (join ['/'] folder, (⟨root.root, root.parts ++ folder⟩ : Path).child ".gitignore".toList)

def rulesFor (place : Place) : List IgnoreRule :=
  if policy.respectGitignore then
    (ruleFiles root user place).flatMap fun (base, p) => (rulesAt w base p).1
  else []

/-- Whether the last of the rules that admit a path leaves it out. -/
def lastDecides (rules : List IgnoreRule) (path : Text) (isFolder : Bool) : Bool :=
  (rules.filter (·.admits path isFolder)).getLast?.any (!·.negated)

/-- Whether the rules around a place leave it out. -/
def isIgnoredAt (place : Place) (isFolder : Bool) : Bool :=
  lastDecides (rulesFor w policy root user place.dropLast) (join ['/'] place) isFolder

/-- Whether the files in a folder can count. -/
def isOpen (place : Place) : Bool :=
  !(place.getLast?.any closedFolders.contains) &&
    !(outputFolder policy ≠ [] && join ['/'] place == outputFolder policy) &&
    !matchesSkipPattern policy.skipPatterns (join ['/'] place) &&
    !isIgnoredAt w policy root user place true

/-- The folders between the root and a place. -/
def between (place : Place) : List Place := place.dropLast.inits.tail

/-- Whether nothing leaves out a file or a folder around it. -/
def isKept (place : Place) : Bool :=
  (between place).all (isOpen w policy root user) &&
    !matchesSkipPattern policy.skipPatterns (join ['/'] place) &&
    !isIgnoredAt w policy root user place false

end Plain

theorem isIgnored_eq_lastDecides (rules : List IgnoreRule) (path : Text) (isFolder : Bool) :
    isIgnored rules path isFolder = lastDecides rules path isFolder := by
  induction rules using List.reverseRecOn with
  | nil => rfl
  | append_singleton rules r ih =>
    rw [isIgnored] at ih
    by_cases admits : r.admits path isFolder
    · simp [isIgnored, lastDecides, admits]
    · simp [isIgnored, lastDecides, admits, ih]

theorem inits_append_singleton (place : Place) (name : Text) :
    (place ++ [name]).inits = place.inits ++ [place ++ [name]] := by
  simp [List.inits_append]

theorem between_append (place : Place) (name : Text) :
    between (place ++ [name]) = place.inits.tail := by
  simp [between]

theorem mem_between_of_append {place : Place} (filled : place ≠ []) (name : Text) (rest : Place) :
    place ∈ between (place ++ name :: rest) := by
  have shorter : place <+: (place ++ name :: rest).dropLast := by
    rw [List.dropLast_append_of_ne_nil (by simp)]
    exact List.prefix_append _ _
  have listed := (List.mem_inits _ _).mpr shorter
  rw [between]
  cases lead : (place ++ name :: rest).dropLast with
  | nil =>
    rw [lead] at shorter
    exact absurd (List.prefix_nil.mp shorter) filled
  | cons first others =>
    rw [lead, List.inits_cons] at listed
    rw [List.inits_cons, List.tail_cons]
    exact (List.mem_cons.mp listed).resolve_left filled

section Plain

variable {w : Workspace} {policy : Policy} {root : Path} {user : Option Path}

/-- The rules of the ignore file in a folder. -/
def ownRules (w : Workspace) (policy : Policy) (root : Path) (place : Place) : List IgnoreRule :=
  if policy.respectGitignore then
    (rulesAt w (join ['/'] place)
      ((⟨root.root, root.parts ++ place⟩ : Path).child ".gitignore".toList)).1
  else []

/-- A folder adds its own rules to those around it. -/
theorem rulesFor_append (place : Place) (name : Text) :
    rulesFor w policy root user (place ++ [name]) =
      rulesFor w policy root user place ++ ownRules w policy root (place ++ [name]) := by
  by_cases respected : policy.respectGitignore
  · simp [rulesFor, ownRules, respected, ruleFiles]
  · simp [rulesFor, ownRules, respected]

theorem isEntered_eq_isOpen (place : Place) (name : Text) :
    isEntered policy (rulesFor w policy root user place) (place ++ [name]) =
      isOpen w policy root user (place ++ [name]) := by
  simp only [isEntered, isOpen, isLeftOut, isIgnoredAt, isIgnored_eq_lastDecides, List.dropLast_concat,
    Bool.not_or, Bool.and_assoc]
  rw [Bool.and_comm (!lastDecides _ _ _)]

/-- In a folder that is reached, a file is kept unless it is left out itself. -/
theorem isKept_append {place : Place} (reached : place.inits.tail.all (isOpen w policy root user) = true)
    (name : Text) : isKept w policy root user (place ++ [name]) =
      !isLeftOut policy (rulesFor w policy root user place) (place ++ [name]) false := by
  simp only [isKept, between_append, reached, isLeftOut, isIgnoredAt, isIgnored_eq_lastDecides,
    List.dropLast_concat, Bool.not_or, Bool.true_and]
  rw [Bool.and_comm]

/-- Below a folder that is not open nothing is kept. -/
theorem isKept_eq_false {place f : Place} (filled : place ≠ [])
    (closed : isOpen w policy root user place = false) (inside : f ∈ filesBelow w root place) :
    isKept w policy root user f = false := by
  obtain ⟨name, rest, rfl⟩ := prefix_of_mem_filesBelow inside
  have shut : (between (place ++ name :: rest)).all (isOpen w policy root user) = false := by
    rw [List.all_eq_false]
    exact ⟨place, mem_between_of_append filled name rest, by simp [closed]⟩
  simp [isKept, shut]

end Plain

end Discovery

end TestSkeleton
