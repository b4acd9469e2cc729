import TestSkeleton.Proofs.Discovery.Walk
import TestSkeleton.Proofs.Outcome

/-! The scan of a project against its plain definition. -/

namespace TestSkeleton

open Text

namespace Visit

def place? : Visit → Option Place
  | file place => some place
  | warning _ => none

end Visit

namespace Discovery

theorem filterMap_place?_rulesAt (w : Workspace) (base : Text) (p : Path) :
    (rulesAt w base p).2.filterMap Visit.place? = [] := by
  unfold rulesAt
  split <;> rfl

theorem filterMap_place?_map (places : List Place) :
    (places.map Visit.file).filterMap Visit.place? = places := by
  rw [List.filterMap_map]
  exact List.filterMap_some

/-- Elements that give nothing need not be looked at. -/
theorem flatMap_filter_of_nil {α β : Type} {p : α → Bool} {f : α → List β} {l : List α}
    (none : ∀ a ∈ l, p a = false → f a = []) : (l.filter p).flatMap f = l.flatMap f := by
  induction l with
  | nil => rfl
  | cons a l ih =>
    have later := ih fun b member => none b (List.mem_cons_of_mem a member)
    cases kept : p a with
    | false => simp [kept, none a (by simp) kept, later]
    | true => simp [kept, later]

theorem leadsToFolder_of_isRegular {w : Workspace} {p : Path} (regular : isRegular w p = true) :
    leadsToFolder w p = false := by
  unfold isRegular Workspace.isFile at regular
  unfold leadsToFolder Workspace.isFolder
  cases found : w.entryAt? p with
  | error e => rfl
  | ok entry =>
    rw [found] at regular
    cases entry with
    | none => rfl
    | some entry =>
      cases entry with
      | folder => cases regular
      | file content => rfl
      | link target => rfl

/-- The warnings about the ignore file in a folder. -/
def ownWarnings (w : Workspace) (policy : Policy) (root : Path) (place : Place) : List Visit :=
  if policy.respectGitignore then
    (rulesAt w (join ['/'] place)
      ((⟨root.root, root.parts ++ place⟩ : Path).child ".gitignore".toList)).2
  else []

theorem filterMap_place?_ownWarnings (w : Workspace) (policy : Policy) (root : Path) (place : Place) :
    (ownWarnings w policy root place).filterMap Visit.place? = [] := by
  unfold ownWarnings
  split
  · exact filterMap_place?_rulesAt _ _ _
  · rfl

/-- One step of the walk: the files of a folder, then its folders with the rules so far. -/
theorem visit_succ (w : Workspace) (policy : Policy) (root : Path) (depth : Nat) (place : Place)
    (outer : List IgnoreRule) :
    visit w policy root (depth + 1) place outer = ownWarnings w policy root place ++
      ((entriesIn w root place).filter fun p =>
        !leadsToFolder w ⟨root.root, root.parts ++ p⟩ &&
          !isLeftOut policy (outer ++ ownRules w policy root place) p false).map .file ++
      ((foldersIn w root place).filter
        (isEntered policy (outer ++ ownRules w policy root place))).flatMap fun p =>
          visit w policy root depth p (outer ++ ownRules w policy root place) := by
  have order : ∀ p : Place → Bool, (entriesIn w root place).filter (fun q =>
      w.files.entryAt? (root.parts ++ q) == some .folder && p q) =
        (foldersIn w root place).filter p := by
    intro p
    rw [foldersIn, List.filter_filter]
    exact List.filter_congr fun q _ => Bool.and_comm _ _
  rw [← order, visit, ownRules, ownWarnings]
  by_cases respected : policy.respectGitignore
  · simp only [respected, if_true]
    rfl
  · simp only [respected]
    rfl

section Walk

variable {w : Workspace} {policy : Policy} {root : Path} {user : Option Path}

/-- The places of the files that a walk meets. -/
def metFiles (w : Workspace) (root : Path) (visits : List Visit) : List Place :=
  (visits.filterMap Visit.place?).filter fun p => isRegular w ⟨root.root, root.parts ++ p⟩

theorem metFiles_append (front back : List Visit) :
    metFiles w root (front ++ back) = metFiles w root front ++ metFiles w root back := by
  simp [metFiles]

theorem metFiles_flatMap {α : Type} (l : List α) (f : α → List Visit) :
    metFiles w root (l.flatMap f) = l.flatMap fun a => metFiles w root (f a) := by
  induction l with
  | nil => rfl
  | cons a l ih => rw [List.flatMap_cons, List.flatMap_cons, metFiles_append, ih]

/-- In a folder that is reached, the files that are met are those of its files that are kept. -/
theorem metFiles_own {place : Place}
    (reached : place.inits.tail.all (isOpen w policy root user) = true) :
    metFiles w root (((entriesIn w root place).filter fun p =>
        !leadsToFolder w ⟨root.root, root.parts ++ p⟩ &&
          !isLeftOut policy (rulesFor w policy root user place) p false).map .file) =
      ((entriesIn w root place).filter fun p => isRegular w ⟨root.root, root.parts ++ p⟩).filter
        (isKept w policy root user) := by
  rw [metFiles, filterMap_place?_map, List.filter_filter, List.filter_filter]
  apply List.filter_congr
  intro p member
  obtain ⟨name, -, rfl⟩ := List.mem_map.mp member
  rw [isKept_append reached]
  cases regular : isRegular w ⟨root.root, root.parts ++ (place ++ [name])⟩ with
  | false => simp
  | true => simp [leadsToFolder_of_isRegular regular]

/-- The walk, which prunes folders and hands rules down, meets the files that are kept of all files.
The rules it is given and those of the folder are the rules of all folders on the way. -/
theorem metFiles_visit {depth : Nat} {place : Place} {outer : List IgnoreRule}
    (deep : (w.files.below (root.parts ++ place)).length < depth)
    (handed : outer ++ ownRules w policy root place = rulesFor w policy root user place)
    (reached : place.inits.tail.all (isOpen w policy root user) = true) :
    metFiles w root (visit w policy root depth place outer) =
      (filesBelow w root place).filter (isKept w policy root user) := by
  induction depth generalizing place outer with
  | zero => exact absurd deep (Nat.not_lt_zero _)
  | succ depth ih =>
    have quiet : metFiles w root (ownWarnings w policy root place) = [] := by
      rw [metFiles, filterMap_place?_ownWarnings, List.filter_nil]
    -- a folder is handed the rules of its parent, so the invariant holds again one level down
    have inner : ∀ p ∈ foldersIn w root place, isOpen w policy root user p = true →
        metFiles w root (visit w policy root depth p (rulesFor w policy root user place)) =
          (filesBelow w root p).filter (isKept w policy root user) := by
      intro p member entered
      have smaller := length_below_lt_of_mem_foldersIn member
      obtain ⟨name, -, rfl⟩ := List.mem_map.mp (List.mem_filter.mp member).1
      apply ih (by omega) (rulesFor_append place name).symm
      have rooted : place.inits ≠ [] := List.ne_nil_of_mem ((List.mem_inits _ _).mpr List.nil_prefix)
      rw [inits_append_singleton, List.tail_append_of_ne_nil rooted, List.all_append, reached]
      simp [entered]
    have entered : (foldersIn w root place).filter
        (isEntered policy (rulesFor w policy root user place)) =
        (foldersIn w root place).filter (isOpen w policy root user) := by
      apply List.filter_congr
      intro p member
      obtain ⟨name, -, rfl⟩ := List.mem_map.mp (List.mem_filter.mp member).1
      exact isEntered_eq_isOpen place name
    have closed : ∀ p ∈ foldersIn w root place, isOpen w policy root user p = false →
        (filesBelow w root p).filter (isKept w policy root user) = [] := by
      intro p member shut
      obtain ⟨name, -, rfl⟩ := List.mem_map.mp (List.mem_filter.mp member).1
      rw [List.filter_eq_nil_iff]
      intro f inside
      simp [isKept_eq_false (by simp) shut inside]
    rw [visit_succ, handed, metFiles_append, metFiles_append, quiet, metFiles_own reached, metFiles_flatMap,
      filesBelow_eq, List.filter_append, List.nil_append, entered, List.filter_flatMap,
      ← flatMap_filter_of_nil closed]
    congr 1
    apply List.flatMap_congr
    intro p member
    obtain ⟨listed, opened⟩ := List.mem_filter.mp member
    exact inner p listed opened

end Walk

/-- The elements of a list whose keys no earlier element has. -/
def firstOf {α κ : Type} [BEq κ] (key : α → κ) : List α → List α
  | [] => []
  | a :: rest => a :: (firstOf key rest).filter fun b => key b != key a

theorem mem_of_mem_firstOf {α κ : Type} [BEq κ] {key : α → κ} {l : List α} {a : α}
    (first : a ∈ firstOf key l) : a ∈ l := by
  induction l with
  | nil => exact first
  | cons b l ih =>
    rcases List.mem_cons.mp first with rfl | later
    · exact List.mem_cons_self
    · exact List.mem_cons_of_mem b (ih (List.mem_filter.mp later).1)

/-- The path of a file without links. -/
def truePath (w : Workspace) (p : Path) : Path := (w.resolve p).toOption.getD p

/-- The files with a suffix among those that a walk meets. -/
def candidates (root : Path) (suffixes : List Text) (places : List Place) : List Path :=
  (places.map fun place => ⟨root.root, root.parts ++ place⟩).filter fun p =>
    hasSuffix suffixes p.name

/-- Whether a met file is a candidate. -/
theorem candidates_metFiles_cons (w : Workspace) (root : Path) (suffixes : List Text) (place : Place)
    (visits : List Visit) :
    candidates root suffixes (metFiles w root (.file place :: visits)) =
      if hasSuffix suffixes (⟨root.root, root.parts ++ place⟩ : Path).name &&
          isRegular w ⟨root.root, root.parts ++ place⟩ then
        ⟨root.root, root.parts ++ place⟩ :: candidates root suffixes (metFiles w root visits)
      else candidates root suffixes (metFiles w root visits) := by
  have met : metFiles w root (.file place :: visits) =
      if isRegular w ⟨root.root, root.parts ++ place⟩ then place :: metFiles w root visits
      else metFiles w root visits := by
    have shape : (Visit.file place :: visits).filterMap Visit.place? =
        place :: visits.filterMap Visit.place? := rfl
    rw [metFiles, shape, List.filter_cons]
    rfl
  rw [met]
  cases isRegular w ⟨root.root, root.parts ++ place⟩ with
  | false => simp
  | true => simp [candidates, List.filter_cons]

/-- What a scan finds in a met file, given the files seen so far. -/
theorem files_sift_cons (w : Workspace) (root : Path) (suffixes : List Text) (seen : List Path)
    (place : Place) (visits : List Visit) {p : Path} (here : ⟨root.root, root.parts ++ place⟩ = p) :
    (sift w root suffixes seen (.file place :: visits)).filterMap Finding.file? =
      if hasSuffix suffixes p.name && isRegular w p then
        if seen.contains (truePath w p) then
          (sift w root suffixes seen visits).filterMap Finding.file?
        else
          p :: (sift w root suffixes (truePath w p :: seen) visits).filterMap Finding.file?
      else (sift w root suffixes seen visits).filterMap Finding.file? := by
  have unfolded : truePath w p = (w.resolve p).toOption.getD p := rfl
  cases suffix : hasSuffix suffixes p.name with
  | false => simp [sift, here, suffix]
  | true =>
    cases found : w.isFile p with
    | error cause =>
      have silent : Finding.file? (.warning (warn p ("cannot stat file: ".toList ++ cause.message))) =
          none := rfl
      simp only [sift, here, suffix, found, isRegular, Bool.not_true, Bool.false_eq_true, if_false,
        Bool.and_false, List.filterMap_cons_none silent]
    | ok regular =>
      cases regular with
      | false => simp [sift, here, suffix, found, isRegular]
      | true =>
        simp only [sift, here, suffix, found, isRegular, Bool.not_true, Bool.false_eq_true, if_false,
          Bool.and_self, if_true, ← unfolded]
        split <;> rfl

/-- Of all names of one file the first is found, unless it was seen before. -/
theorem files_sift (w : Workspace) (root : Path) (suffixes : List Text) (seen : List Path)
    (visits : List Visit) :
    (sift w root suffixes seen visits).filterMap Finding.file? =
      (firstOf (truePath w) (candidates root suffixes (metFiles w root visits))).filter fun p =>
        !seen.contains (truePath w p) := by
  induction visits generalizing seen with
  | nil => rfl
  | cons visit visits ih =>
    cases visit with
    | warning d => exact ih seen
    | file place =>
      rw [candidates_metFiles_cons]
      generalize here : (⟨root.root, root.parts ++ place⟩ : Path) = p
      rw [files_sift_cons w root suffixes seen place visits here]
      split
      · rw [firstOf, List.filter_cons, List.filter_filter]
        split
        · rename_i known
          rw [known, Bool.not_true, if_neg (by simp), ih]
          apply List.filter_congr
          intro q _
          cases fresh : seen.contains (truePath w q) with
          | true => rfl
          | false =>
            have apart : truePath w q ≠ truePath w p := by
              intro same
              rw [same, known] at fresh
              cases fresh
            simp [apart]
        · rename_i unknown
          rw [Bool.eq_false_iff.mpr unknown, Bool.not_false, if_pos rfl, ih]
          congr 1
          apply List.filter_congr
          intro q _
          rw [List.contains_cons, Bool.not_or, Bool.and_comm]
          rfl
      · exact ih seen

/-- The files of a project, in plain words: all files in order, those that nothing leaves out, those
with a suffix, and of all names of one file the first. -/
def plainFiles (w : Workspace) (policy : Policy) (root : Path) (user : Option Path)
    (suffixes : List Text) : List Path :=
  firstOf (truePath w) <| candidates root suffixes <|
    (filesBelow w root []).filter (isKept w policy root user)

/-- The folder that a scan starts from. -/
def rootOf (w : Workspace) (start : Path) : Except Failure Path := do
  let root ← w.resolve (← w.expandHome start)
  if !(← (w.isPresent root).mapError .file) then throw (.root (.notFound start.text))
  if !(← (w.isFolder root).mapError .file) then throw (.root (.notFolder start.text))
  return root

/-- The user's ignore file, when ignore files count. -/
def userRules? (w : Workspace) (policy : Policy) : Except Failure (Option Path) :=
  if policy.respectGitignore then IgnoreSource.userFile? w else .ok none

/-- The rules from outside the folders of a project, with the warnings about them. -/
def outerRules (w : Workspace) (policy : Policy) (root : Path) (user : Option Path) :
    List IgnoreRule × List Visit :=
  let found := (user.toList ++ [root.child ".git/info/exclude".toList]).map (rulesAt w [])
  if policy.respectGitignore then (found.flatMap (·.1), found.flatMap (·.2)) else ([], [])

theorem sharedRules_eq (w : Workspace) (policy : Policy) (root : Path) :
    sharedRules w policy root = (userRules? w policy).map (outerRules w policy root) := by
  unfold sharedRules userRules? outerRules
  cases policy.respectGitignore with
  | false => rfl
  | true =>
    simp only [Bool.not_true, Bool.false_eq_true, if_false, if_true]
    cases IgnoreSource.userFile? w <;> rfl

/-- The rules of the root are those from outside and its own. -/
theorem outerRules_append (w : Workspace) (policy : Policy) (root : Path) (user : Option Path) :
    (outerRules w policy root user).1 ++ ownRules w policy root [] =
      rulesFor w policy root user [] := by
  by_cases respected : policy.respectGitignore
  · simp [outerRules, ownRules, rulesFor, ruleFiles, respected, List.flatMap_map, join]
  · simp [outerRules, ownRules, rulesFor, respected]

theorem filterMap_place?_outerRules (w : Workspace) (policy : Policy) (root : Path)
    (user : Option Path) : (outerRules w policy root user).2.filterMap Visit.place? = [] := by
  by_cases respected : policy.respectGitignore
  · simp only [outerRules, respected, if_true, List.flatMap_map, List.filterMap_flatMap]
    exact List.flatMap_eq_nil_iff.mpr fun p _ => filterMap_place?_rulesAt w [] p
  · simp [outerRules, respected]

/-- From the root down, the walk meets the files that are kept. -/
theorem metFiles_walk (w : Workspace) (policy : Policy) (root : Path) (user : Option Path) :
    metFiles w root ((outerRules w policy root user).2 ++
        visit w policy root (depthLimit w) [] (outerRules w policy root user).1) =
      (filesBelow w root []).filter (isKept w policy root user) := by
  have deep : (w.files.below (root.parts ++ [])).length < depthLimit w :=
    Nat.lt_succ_of_le (FileTree.length_below_le _ _)
  have quiet : metFiles w root (outerRules w policy root user).2 = [] := by
    rw [metFiles, filterMap_place?_outerRules, List.filter_nil]
  rw [metFiles_append, quiet, List.nil_append]
  exact metFiles_visit deep (outerRules_append w policy root user) rfl

/-- A scan starts from the true path of its folder. -/
theorem rootOf_eq_ok {w : Workspace} {start root : Path} (rooted : rootOf w start = .ok root) :
    w.expandHome start >>= w.resolve = .ok root ∧ w.isPresent root = .ok true ∧
      w.isFolder root = .ok true := by
  obtain ⟨p, expanded, rooted⟩ := bind_eq_ok.mp rooted
  obtain ⟨whole, resolved, rooted⟩ := bind_eq_ok.mp rooted
  obtain ⟨isPresent, present, rooted⟩ := bind_eq_ok.mp rooted
  cases isPresent with
  | false => cases rooted
  | true =>
    rw [Bool.not_true, if_neg (by simp)] at rooted
    obtain ⟨isFolder, folder, rooted⟩ := bind_eq_ok.mp rooted
    cases isFolder with
    | false => cases rooted
    | true =>
      rw [Bool.not_true, if_neg (by simp), pure_eq_ok] at rooted
      subst rooted
      exact ⟨by rw [expanded, ok_bind, resolved], mapError_eq_ok.mp present, mapError_eq_ok.mp folder⟩

theorem scan_eq_rootOf (w : Workspace) (policy : Policy) (start : Path) (suffixes : List Text) :
    scan w policy start suffixes = (do
      let root ← rootOf w start
      let (rules, warnings) ← sharedRules w policy root
      return ⟨root, sift w root suffixes []
        (warnings ++ visit w policy root (depthLimit w) [] rules)⟩) := by
  simp only [scan, rootOf, bind_assoc]
  refine bind_congr fun whole => bind_congr fun root => bind_congr fun there => ?_
  cases there with
  | false => rfl
  | true =>
    simp only [Bool.not_true, Bool.false_eq_true, if_false, bind_assoc]
    refine bind_congr fun isFolder => ?_
    cases isFolder <;> rfl

/-- A scan finds the files of the plain definition, and fails only where its folder or the user's
settings cannot be read. -/
theorem scan_eq_plainFiles (w : Workspace) (policy : Policy) (start : Path) (suffixes : List Text) :
    (scan w policy start suffixes).map (fun d => (d.root, d.files)) = do
      let root ← rootOf w start
      let user ← userRules? w policy
      return (root, plainFiles w policy root user suffixes) := by
  have found : ∀ root user, ((sift w root suffixes [] ((outerRules w policy root user).2 ++
      visit w policy root (depthLimit w) [] (outerRules w policy root user).1)).filterMap
        Finding.file?) = plainFiles w policy root user suffixes := by
    intro root user
    rw [files_sift, metFiles_walk, plainFiles]
    exact List.filter_eq_self.mpr fun p _ => rfl
  rw [scan_eq_rootOf]
  cases rootOf w start with
  | error e => rfl
  | ok root =>
    simp only [sharedRules_eq]
    cases userRules? w policy with
    | error e => rfl
    | ok user => exact congrArg (fun files => Except.ok (root, files)) (found root user)

/-- What a scan finds, it finds from the folder that it starts from. -/
theorem files_eq_plainFiles {w : Workspace} {policy : Policy} {start : Path} {suffixes : List Text}
    {d : Discovery} (scanned : scan w policy start suffixes = .ok d) :
    ∃ user, rootOf w start = .ok d.root ∧ userRules? w policy = .ok user ∧
      d.files = plainFiles w policy d.root user suffixes := by
  have plain := scan_eq_plainFiles w policy start suffixes
  rw [scanned, map_ok] at plain
  obtain ⟨root, rooted, plain⟩ := bind_eq_ok.mp plain.symm
  obtain ⟨user, settings, plain⟩ := bind_eq_ok.mp plain
  obtain ⟨rfl, files⟩ := Prod.mk.inj (pure_eq_ok.mp plain)
  exact ⟨user, rooted, settings, files.symm⟩

/-- No warning of the walk is left out of what is found. -/
theorem warning_mem_sift {w : Workspace} {root : Path} {suffixes : List Text} {seen : List Path}
    {visits : List Visit} {d : Diagnostic} (warned : .warning d ∈ visits) :
    .warning d ∈ sift w root suffixes seen visits := by
  induction visits generalizing seen with
  | nil => cases warned
  | cons visit visits ih =>
    rcases List.mem_cons.mp warned with rfl | later
    · exact List.mem_cons_self
    cases visit with
    | warning other => exact List.mem_cons_of_mem _ (ih later)
    | file place =>
      rw [sift]
      dsimp only
      split
      · exact ih later
      · split
        · exact List.mem_cons_of_mem _ (ih later)
        · exact ih later
        · split <;> exact List.mem_cons_of_mem _ (ih later)

/-- A scan reports that the ignore file of its folder cannot be read. -/
theorem mem_diagnostics_of_ownWarnings {w : Workspace} {policy : Policy} {start root : Path}
    {suffixes : List Text} {found : Discovery} {d : Diagnostic} (rooted : rootOf w start = .ok root)
    (scanned : scan w policy start suffixes = .ok found)
    (warned : .warning d ∈ ownWarnings w policy root []) : d ∈ found.diagnostics := by
  rw [scan_eq_rootOf, rooted, ok_bind] at scanned
  obtain ⟨⟨rules, warnings⟩, -, whole⟩ := bind_eq_ok.mp scanned
  rw [← pure_eq_ok.mp whole]
  have met : .warning d ∈ visit w policy root (depthLimit w) [] rules := by
    rw [depthLimit, visit_succ]
    exact List.mem_append_left _ (List.mem_append_left _ warned)
  exact List.mem_filterMap.mpr ⟨_, warning_mem_sift (List.mem_append_right _ met), rfl⟩

end Discovery

end TestSkeleton
