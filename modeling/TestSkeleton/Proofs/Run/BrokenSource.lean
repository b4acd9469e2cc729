import TestSkeleton.Proofs.Discovery.Without
import TestSkeleton.Proofs.Run.Saved

/-! A source file that cannot be read or parsed: it costs its own functions and one warning, and
nothing else. -/

namespace TestSkeleton

open Text Workspace

namespace Discovery

theorem nodup_firstOf {α κ : Type} [BEq κ] [LawfulBEq κ] (key : α → κ) (l : List α) :
    ((firstOf key l).map key).Nodup := by
  induction l with
  | nil => exact List.nodup_nil
  | cons a l ih =>
    rw [firstOf, List.map_cons, List.nodup_cons]
    refine ⟨?_, ih.sublist (List.filter_sublist.map key)⟩
    intro member
    obtain ⟨b, kept, same⟩ := List.mem_map.mp member
    have other := (List.mem_filter.mp kept).2
    rw [same, bne_self_eq_false] at other
    cases other

/-- What a scan finds are files that its walk met. -/
theorem exists_visited_of_mem_files {w : Workspace} {policy : Policy} {root x : Path}
    {suffixes : List Text} {d : Discovery} (rooted : rootOf w root = .ok root)
    (found : scan w policy root suffixes = .ok d) (listed : x ∈ d.files) :
    w.isFile x = .ok true ∧ ∃ place depth rules, x = ⟨root.root, root.parts ++ place⟩ ∧
      .file place ∈ visit w policy root depth [] rules := by
  rw [scan_eq_rootOf, rooted, ok_bind] at found
  obtain ⟨⟨rules, warnings⟩, shared, whole⟩ := bind_eq_ok.mp found
  rw [← pure_eq_ok.mp whole] at listed
  have first := files_sift w root suffixes [] (warnings ++ visit w policy root (depthLimit w) [] rules)
  rw [files, first] at listed
  have candidate := mem_of_mem_firstOf (List.mem_filter.mp listed).1
  obtain ⟨place, met, rfl⟩ := List.mem_map.mp (List.mem_filter.mp candidate).1
  obtain ⟨visited, regular⟩ := List.mem_filter.mp met
  refine ⟨?_, place, depthLimit w, rules, rfl, ?_⟩
  · rw [isRegular] at regular
    split at regular
    · rw [‹w.isFile _ = _›, regular]
    · cases regular
  · rw [sharedRules_eq] at shared
    obtain ⟨user, -, outer⟩ := map_eq_ok.mp shared
    have silent := filterMap_place?_outerRules w policy root user
    rw [outer] at silent
    rw [List.filterMap_append, silent, List.nil_append] at visited
    obtain ⟨v, inside, named⟩ := List.mem_filterMap.mp visited
    cases v with
    | file q =>
      cases named
      exact inside
    | warning e => cases named

/-- No file is found under two names. -/
theorem nodup_files {w : Workspace} {policy : Policy} {start : Path} {suffixes : List Text}
    {d : Discovery} (found : scan w policy start suffixes = .ok d) :
    (d.files.map (truePath w)).Nodup := by
  obtain ⟨user, -, -, files⟩ := files_eq_plainFiles found
  rw [files]
  exact nodup_firstOf _ _

/-- Without a finding that is no warning, the warnings are the same. -/
theorem diagnostics_filter (root : Path) (findings : List Finding) (p : Path) :
    (⟨root, findings.filter fun f => f ≠ .file p ∧ f ≠ .duplicate p⟩ : Discovery).diagnostics =
      (⟨root, findings⟩ : Discovery).diagnostics := by
  simp only [diagnostics]
  induction findings with
  | nil => rfl
  | cons f findings ih =>
    cases f with
    | warning d =>
      rw [List.filter_cons_of_pos (by simp)]
      exact congrArg (d :: ·) ih
    | file q =>
      rw [List.filter_cons]
      split <;> exact ih
    | duplicate q =>
      rw [List.filter_cons]
      split <;> exact ih

theorem files_filter (root : Path) (findings : List Finding) (p : Path) :
    (⟨root, findings.filter fun f => f ≠ .file p ∧ f ≠ .duplicate p⟩ : Discovery).files =
      (⟨root, findings⟩ : Discovery).files.filter (· ≠ p) := by
  simp only [files]
  induction findings with
  | nil => rfl
  | cons f findings ih =>
    cases f with
    | warning d =>
      rw [List.filter_cons_of_pos (by simp)]
      exact ih
    | file q =>
      have here : (Finding.file q :: findings).filterMap Finding.file? =
          q :: findings.filterMap Finding.file? := rfl
      rw [here]
      by_cases same : q = p
      · rw [List.filter_cons_of_neg (by simp [same]), List.filter_cons_of_neg (by simp [same]), ih]
      · rw [List.filter_cons_of_pos (by simp [same]), List.filter_cons_of_pos (by simp [same]), ← ih]
        rfl
    | duplicate q =>
      rw [List.filter_cons]
      split <;> exact ih

end Discovery

open Discovery

/-- The user's ignore file is found and read as before, when it is neither the file that is gone nor
looked for behind it. -/
theorem SourceAt.userKept {w : Workspace} {policy : Policy} {root : Path} {place : Place}
    {content : Bytes} (s : SourceAt w root place content)
    (apart : policy.respectGitignore = true → ∀ home, IgnoreSource.homeOf w = .ok home →
      root.parts ++ place ∉ w.way (IgnoreSource.namedFile w home)) :
    OutputSaved.UserKept w (w.without (root.parts ++ place)) policy := by
  intro respected
  have unread : ∀ {v : Workspace} {p : Path} {fault}, v.entry p = .error fault →
      v.readText p = .error (.file ⟨fault, p.text, none⟩) := by
    intro v p fault failed
    simp only [readText, readBytes, failed]
    rfl
  have configured : ∀ home, IgnoreSource.configured? (w.without (root.parts ++ place)) home =
      IgnoreSource.configured? w home := by
    intro home
    have isName : Path.IsName ".gitconfig".toList := by decide
    have last : (home.child ".gitconfig".toList).parts.getLast? = some ".gitconfig".toList := by
      rw [isName.child]
      exact List.getLast?_concat ..
    rw [IgnoreSource.configured?, IgnoreSource.configured?]
    rcases entry_without s.linkless s.file (home.child ".gitconfig".toList)
      with same | ⟨⟨there, -⟩ | there, gone⟩
    · rw [readText_congr same]
    · -- the file cannot be the settings file, which has another name
      rw [locate_eq_reach s.linkless, ← locate_eq_reach s.linkless _ false] at there
      have ends := getLast?_place_of_locate last isName.2.1 isName.2.2.1 there
      obtain ⟨l, accepted⟩ := s.source
      rw [Path.name, ends, Option.getD_some, l.acceptsName_ruleNames _ (by decide)] at accepted
      cases accepted
    · rw [unread there, unread gone]
  have named : ∀ home, IgnoreSource.namedFile (w.without (root.parts ++ place)) home =
      IgnoreSource.namedFile w home := by
    intro home
    rw [IgnoreSource.namedFile, IgnoreSource.namedFile, configured]
    rfl
  have homes : IgnoreSource.homeOf (w.without (root.parts ++ place)) = IgnoreSource.homeOf w := rfl
  have kept : ∀ home, IgnoreSource.homeOf w = .ok home →
      (w.without (root.parts ++ place)).entry (IgnoreSource.namedFile w home) =
        w.entry (IgnoreSource.namedFile w home) := fun home known =>
    entry_without_of_way s.linkless s.file (apart respected home known)
  rw [IgnoreSource.userFile?_eq, IgnoreSource.userFile?_eq, homes]
  constructor
  · refine bind_congr_ok fun home known => ?_
    rw [IgnoreSource.lookFor, IgnoreSource.lookFor, configured, named, isFile_congr (kept home known)]
  · intro p found
    obtain ⟨home, known, looked⟩ := bind_eq_ok.mp found
    rw [IgnoreSource.eq_namedFile looked, kept home known]

/-- A path that is given as text leads to a true path from the topmost folder. -/
theorem Workspace.root_of_given {w : Workspace} (linkless : w.files.Linkless) {t : Text} {root : Path}
    (whole : w.expandHome (Path.read t) >>= w.resolve = .ok root) : root.root = .slash := by
  obtain ⟨p, expanded, resolved⟩ := bind_eq_ok.mp whole
  refine root_of_resolve linkless ?_ resolved
  have valid : Path.AreParts (Path.read t).parts := Path.areParts_names t
  rw [expandHome] at expanded
  split at expanded
  · rename_i r rest _ shape
    dsimp only at expanded
    split at expanded
    · cases expanded
    · cases expanded
      refine List.forall_mem_append.mpr ⟨Path.areParts_names _, fun name member => valid name ?_⟩
      rw [shape]
      exact List.mem_cons_of_mem _ member
  · cases expanded
    exact valid

namespace Analysis

section Asked

variable {w : Workspace} {policy : Policy} {asked : Text} {l : Language}

theorem filled_of_extractionLanguage (language : extractionLanguage asked = .ok l) : asked ≠ [] := by
  rintro rfl
  have none : extractionLanguage [] = .error (.language ⟨.extraction, []⟩) := by decide
  rw [none] at language
  cases language

/-- What an analysis in a given language does. -/
theorem analyze_asked (language : extractionLanguage asked = .ok l) (start : Path) :
    analyze w policy start (some asked) = do
      let root ← w.expandHome start >>= w.resolve
      if !(← (w.isFolder root).mapError .file) then throw (.root (.notUsable start.text))
      let d ← Discovery.scan w policy root [l.fileSuffix]
      return ⟨asked, [], d,
        (d.files.filter fun p => l.acceptsName p.name).map (readSource w policy l)⟩ := by
  have given : (some asked).filter (· ≠ []) = some asked := by
    simp [Option.filter, filled_of_extractionLanguage language]
  rw [analyze, given, bind_assoc]
  refine bind_congr fun p => bind_congr fun root => bind_congr fun isFolder => ?_
  cases isFolder with
  | false => rfl
  | true =>
    dsimp only
    rw [Bool.not_true, if_neg (by simp), if_neg (by simp), pure_bind, language]
    rfl

/-- The source files among those that a scan found. -/
def sources (l : Language) (d : Discovery) : List Path := d.files.filter fun p => l.acceptsName p.name

/-- The warning about a source file, if it cannot be read or parsed. -/
def warning? (w : Workspace) (policy : Policy) (l : Language) (p : Path) : Option Diagnostic :=
  (readSource w policy l p).diagnostic?

/-- The functions of a source file, none if it cannot be read or parsed. -/
def functionsOf (w : Workspace) (policy : Policy) (l : Language) (p : Path) : List Function :=
  (readSource w policy l p).functions

theorem functions_mk (name : Text) (searches : List Discovery) (d : Discovery) (files : List Path) :
    (⟨name, searches, d, files.map (readSource w policy l)⟩ : Analysis).functions =
      files.flatMap (functionsOf w policy l) :=
  List.flatMap_map ..

theorem diagnostics_mk (name : Text) (searches : List Discovery) (d : Discovery) (files : List Path) :
    (⟨name, searches, d, files.map (readSource w policy l)⟩ : Analysis).diagnostics =
      d.diagnostics ++ files.filterMap (warning? w policy l) := by
  rw [diagnostics, List.filterMap_map]
  rfl

/-- An analysis in a given language that succeeds has scanned the project for its sources. -/
theorem analyze_asked_eq_ok (language : extractionLanguage asked = .ok l) {start : Path} {a : Analysis}
    (analyzed : analyze w policy start (some asked) = .ok a) : ∃ root d,
      w.expandHome start >>= w.resolve = .ok root ∧ Discovery.scan w policy root [l.fileSuffix] = .ok d ∧
      a = ⟨asked, [], d, (sources l d).map (readSource w policy l)⟩ := by
  rw [analyze_asked language] at analyzed
  obtain ⟨root, whole, analyzed⟩ := bind_eq_ok.mp analyzed
  obtain ⟨isFolder, -, analyzed⟩ := bind_eq_ok.mp analyzed
  cases isFolder with
  | false => cases analyzed
  | true =>
    rw [Bool.not_true, if_neg (by simp)] at analyzed
    obtain ⟨d, scanned, analyzed⟩ := bind_eq_ok.mp analyzed
    exact ⟨root, d, whole, scanned, (pure_eq_ok.mp analyzed).symm⟩

/-- Where a project can be scanned for its sources, its analysis succeeds. -/
theorem analyze_asked_of_scan (language : extractionLanguage asked = .ok l) {start root : Path}
    {d : Discovery} (whole : w.expandHome start >>= w.resolve = .ok root)
    (isFolder : w.isFolder root = .ok true)
    (scanned : Discovery.scan w policy root [l.fileSuffix] = .ok d) :
    analyze w policy start (some asked) =
      .ok ⟨asked, [], d, (sources l d).map (readSource w policy l)⟩ := by
  rw [analyze_asked language, whole, ok_bind, isFolder, scanned]
  rfl

end Asked

/-- A source file that a scan finds in a project without links, and that cannot be read or parsed. -/
structure BrokenSource (w : Workspace) (policy : Policy) (start : Text) (l : Language) (d : Discovery)
    (x : Path) (cause : ExtractionError) : Prop where
  linkless : w.files.Linkless
  wellFormed : w.files.WellFormed
  current : w.files.entryAt? w.current = some .folder
  scanned : ∃ root, w.expandHome (Path.read start) >>= w.resolve = .ok root ∧
    Discovery.scan w policy root [l.fileSuffix] = .ok d
  found : x ∈ d.files
  accepted : l.acceptsName x.name = true
  broken : (readSource w policy l x).result = .error cause
  /-- The user's own ignore file is neither this file nor looked for behind it. -/
  user : policy.respectGitignore = true → ∀ home, IgnoreSource.homeOf w = .ok home →
    x.parts ∉ w.way (IgnoreSource.namedFile w home)

namespace BrokenSource

variable {w : Workspace} {policy : Policy} {start : Text} {l : Language} {d : Discovery} {x : Path}
  {cause : ExtractionError} (b : BrokenSource w policy start l d x cause)

include b

/-- The file lies below the root of the project. -/
theorem exists_sourceAt : ∃ root place content,
    w.expandHome (Path.read start) >>= w.resolve = .ok ⟨.slash, root⟩ ∧
    w.isFolder ⟨.slash, root⟩ = .ok true ∧
    Discovery.scan w policy ⟨.slash, root⟩ [l.fileSuffix] = .ok d ∧
    x = ⟨.slash, root ++ place⟩ ∧ SourceAt w ⟨.slash, root⟩ place content := by
  obtain ⟨⟨begins, root⟩, whole, scanned⟩ := b.scanned
  obtain rfl : begins = .slash := Workspace.root_of_given b.linkless whole
  have resolved : w.expandHome ⟨.slash, root⟩ >>= w.resolve = .ok ⟨.slash, root⟩ := by
    obtain ⟨p, -, resolved⟩ := bind_eq_ok.mp whole
    exact resolve_place b.linkless
      (isName_of_resolve b.linkless (b.wellFormed.isName (by simp [b.current])) resolved)
  obtain ⟨top, rooted, -⟩ := bind_eq_ok.mp (Discovery.scan_eq_rootOf w policy _ _ ▸ scanned)
  obtain ⟨same, -, isFolder⟩ := rootOf_eq_ok rooted
  obtain rfl := Except.ok.inj (resolved.symm.trans same)
  obtain ⟨isFile, place, depth, rules, rfl, met⟩ := exists_visited_of_mem_files rooted scanned b.found
  have there := SourceAt.there_of_visited met
  have isStep : ∀ name ∈ root ++ place, FileTree.IsStep name := fun name member =>
    ⟨(b.wellFormed.isName there name member).2.1, (b.wellFormed.isName there name member).2.2.1⟩
  have top : w.files.entryAt? root = some .folder :=
    ((isFolder_place b.linkless fun name member =>
      isStep name (List.mem_append_left _ member)).mp isFolder).2 root List.prefix_rfl
  obtain ⟨content, entry⟩ := isFile_eq_true.mp isFile
  obtain ⟨spot, located⟩ := entry_eq_ok_iff.mp entry
  obtain ⟨-, -, same⟩ := (locate_place b.linkless isStep true).mp located
  refine ⟨root, place, content, whole, isFolder, scanned, rfl, ?_⟩
  constructor
  case linkless => exact b.linkless
  case wellFormed => exact b.wellFormed
  case absolute => rfl
  case rooted => exact top
  case file => exact (Spot.mk.inj same).2.symm
  case regular => exact isFile
  case source => exact ⟨l, b.accepted⟩

/-- The other files are read as before. -/
theorem readSource_eq {p : Path} (listed : p ∈ d.files) (other : p ≠ x) :
    readSource (w.without x.parts) policy l p = readSource w policy l p := by
  obtain ⟨root, place, content, -, -, scanned, rfl, s⟩ := b.exists_sourceAt
  obtain ⟨top, rooted, -⟩ := bind_eq_ok.mp (Discovery.scan_eq_rootOf w policy _ _ ▸ scanned)
  have resolved : w.expandHome ⟨.slash, root⟩ >>= w.resolve = .ok ⟨.slash, root⟩ :=
    resolve_place s.linkless (s.wellFormed.isName (by simp [s.rooted]))
  obtain rfl := Except.ok.inj (resolved.symm.trans (rootOf_eq_ok rooted).1)
  obtain ⟨-, q, depth, rules, rfl, met⟩ := exists_visited_of_mem_files rooted scanned listed
  have there := SourceAt.there_of_visited met
  obtain ⟨entry, found⟩ := Option.ne_none_iff_exists'.mp there
  refine OutputSaved.readSource_congr (entry_without_of_steps s.linkless s.file rfl (s.isStep there) ?_) l
  exact s.not_prefix found fun same => other (congrArg (Path.mk .slash) same)

omit b in
theorem sources_filter (findings : List Finding) (root : Path) :
    sources l ⟨root, findings.filter fun f => f ≠ .file x ∧ f ≠ .duplicate x⟩ =
      (sources l ⟨root, findings⟩).filter (· ≠ x) := by
  rw [sources, sources, files_filter, List.filter_filter, List.filter_filter]
  exact List.filter_congr fun q _ => Bool.and_comm _ _

theorem analyze_eq {asked : Text} (language : extractionLanguage asked = .ok l) :
    analyze w policy (Path.read start) (some asked) =
      .ok ⟨asked, [], d, (sources l d).map (readSource w policy l)⟩ := by
  obtain ⟨root, place, content, whole, isFolder, scanned, -, -⟩ := b.exists_sourceAt
  exact analyze_asked_of_scan language whole isFolder scanned

/-- Without the file the other sources give what they gave. -/
theorem analyze_without {asked : Text} (language : extractionLanguage asked = .ok l) :
    ∃ d', d'.diagnostics = d.diagnostics ∧
      analyze (w.without x.parts) policy (Path.read start) (some asked) =
        .ok ⟨asked, [], d', ((sources l d).filter (· ≠ x)).map (readSource w policy l)⟩ := by
  obtain ⟨root, place, content, whole, isFolder, scanned, rfl, s⟩ := b.exists_sourceAt
  have whole' : (w.without (root ++ place)).expandHome (Path.read start) >>=
      (w.without (root ++ place)).resolve = .ok ⟨.slash, root⟩ := by
    rw [expandHome_without, ← whole]
    exact bind_congr fun p => resolve_without s.linkless s.file p
  have isFolder' := (isFolder_without s.linkless s.file ⟨.slash, root⟩).trans isFolder
  refine ⟨_, diagnostics_filter d.root d.findings ⟨.slash, root ++ place⟩, ?_⟩
  rw [analyze_asked_of_scan language whole' isFolder' (s.scan_eq (s.userKept b.user) scanned), sources_filter]
  refine congrArg (fun outcomes => Except.ok (⟨asked, [], _, outcomes⟩ : Analysis))
    (List.map_congr_left fun p listed => ?_)
  obtain ⟨member, other⟩ := List.mem_filter.mp listed
  exact b.readSource_eq (List.mem_filter.mp member).1 (of_decide_eq_true other)

/-- Among the sources the file stands once. -/
theorem exists_sources_eq : ∃ front back, sources l d = front ++ x :: back ∧ x ∉ front ++ back := by
  obtain ⟨root, place, content, -, -, scanned, -, -⟩ := b.exists_sourceAt
  have listed : x ∈ sources l d := List.mem_filter.mpr ⟨b.found, b.accepted⟩
  have distinct : (sources l d).Nodup := ((nodup_files scanned).of_map _).sublist List.filter_sublist
  obtain ⟨front, back, parted⟩ := List.append_of_mem listed
  rw [parted] at distinct
  exact ⟨front, back, parted, (List.nodup_cons.mp (List.nodup_middle.mp distinct)).1⟩

end BrokenSource

/-- A project with one function, and a source file with a bracket that is not closed. -/
def unclosed : Workspace :=
  { files := ⟨[([['p']], .folder),
      ([['p'], "a.v".toList], .file (Utf8.encode "pub fn f() \x7b\n\x7d\n".toList)),
      ([['p'], "x.v".toList], .file (Utf8.encode "(\n".toList))]⟩
    current := [['p']]
    environment := [("HOME".toList, "/h".toList)] }

/-- A project whose user keeps the ignore rules for all projects in one of its source files. -/
def selfIgnoring : Workspace :=
  { files := ⟨[([['p']], .folder), ([['h']], .folder),
      ([['p'], "b.v".toList], .file (Utf8.encode "pub fn f() \x7b\n\x7d\n".toList)),
      ([['p'], "x.v".toList], .file (Utf8.encode "b.v\n(\n".toList)),
      ([['h'], ".gitconfig".toList],
        .file (Utf8.encode "[core]\n\texcludesfile = /p/x.v\n".toList))]⟩
    current := [['p']]
    environment := [("HOME".toList, "/h".toList)] }

def brokenPath : Path := ⟨.slash, [['p'], "x.v".toList]⟩

theorem unclosed_scan : ∃ d,
    Discovery.scan unclosed Policy.default ⟨.slash, [['p']]⟩ [Language.v.fileSuffix] = .ok d ∧
      d.files = [⟨.slash, [['p'], "a.v".toList]⟩, brokenPath] := by
  have rooted : rootOf unclosed ⟨.slash, [['p']]⟩ = .ok ⟨.slash, [['p']]⟩ := by decide +kernel
  have shared : sharedRules unclosed Policy.default ⟨.slash, [['p']]⟩ = .ok ([], []) := by decide +kernel
  have names : unclosed.files.namesIn ([['p']] ++ []) = ["a.v".toList, "x.v".toList] := by
    rw [FileTree.namesIn, List.mergeSort_of_pairwise (by decide +kernel)]
    decide +kernel
  rw [scan_eq_rootOf, rooted, ok_bind, shared, ok_bind]
  dsimp only
  rw [depthLimit, visit_succ, foldersIn, entriesIn, names]
  exact ⟨_, rfl, by decide +kernel⟩

theorem selfIgnoring_scan : ∃ d,
    Discovery.scan selfIgnoring Policy.default ⟨.slash, [['p']]⟩ [Language.v.fileSuffix] = .ok d ∧
      d.files = [brokenPath] := by
  have rooted : rootOf selfIgnoring ⟨.slash, [['p']]⟩ = .ok ⟨.slash, [['p']]⟩ := by decide +kernel
  have shared : sharedRules selfIgnoring Policy.default ⟨.slash, [['p']]⟩ =
      .ok ([⟨"b.v".toList, false, false, false, false, []⟩, ⟨['('], false, false, false, false, []⟩], []) := by
    decide +kernel
  have names : selfIgnoring.files.namesIn ([['p']] ++ []) = ["b.v".toList, "x.v".toList] := by
    rw [FileTree.namesIn, List.mergeSort_of_pairwise (by decide +kernel)]
    decide +kernel
  rw [scan_eq_rootOf, rooted, ok_bind, shared, ok_bind]
  dsimp only
  rw [depthLimit, visit_succ, foldersIn, entriesIn, names]
  exact ⟨_, rfl, by decide +kernel⟩

end Analysis

end TestSkeleton
