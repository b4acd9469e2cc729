import TestSkeleton.Proofs.Outcome
import TestSkeleton.Proofs.Workspace.Linkless
import TestSkeleton.Proofs.Workspace.Tree
import TestSkeleton.Workspace.Change

/-! Changes to a workspace, run: what making folders leaves of what was there. -/

namespace TestSkeleton

theorem FileTree.Linkless.put {t : FileTree} (linkless : t.Linkless) {place : Place} {entry : Entry}
    (filled : place ≠ []) (plain : entry.isLink = false) : (t.put place entry).Linkless := by
  intro other target found
  rw [entryAt?_put filled] at found
  split at found
  · rw [Option.some.inj found] at plain
    cases plain
  · exact linkless other target found

namespace Workspace

/-- A workspace with one more entry, or another one in its place. -/
def put (w : Workspace) (place : Place) (entry : Entry) : Workspace :=
  { w with files := w.files.put place entry }

theorem entryAt?_put {w : Workspace} {place : Place} {entry : Entry} (filled : place ≠ [])
    (q : Place) : (w.put place entry).files.entryAt? q =
      if q = place then some entry else w.files.entryAt? q :=
  FileTree.entryAt?_put filled q

theorem put_put (w : Workspace) (place : Place) (entry later : Entry) :
    (w.put place entry).put place later = w.put place later := by
  rw [put, put, put, FileTree.put_put]

theorem isFolder_eq_true {w : Workspace} {p : Path} :
    w.isFolder p = .ok true ↔ ∃ place, w.locate p = .ok ⟨place, some .folder⟩ := by
  unfold isFolder entryAt? entry
  cases w.locate p with
  | error fault => cases fault <;> simp [leadsNowhere, bind, Except.bind, pure, Except.pure]
  | ok spot =>
    obtain ⟨place, entry⟩ := spot
    cases entry with
    | none => simp [leadsNowhere, bind, Except.bind, pure, Except.pure, throw, throwThe,
        MonadExceptOf.throw]
    | some entry => cases entry <;> simp [bind, Except.bind, pure, Except.pure]

theorem isFile_eq_true {w : Workspace} {p : Path} :
    w.isFile p = .ok true ↔ ∃ content, w.entry p = .ok (.file content) := by
  rw [isFile, entryAt?]
  cases w.entry p with
  | error fault => cases fault <;> simp [leadsNowhere, bind, Except.bind, pure, Except.pure]
  | ok entry => cases entry <;> simp [bind, Except.bind, pure, Except.pure]

theorem isFolder_place {w : Workspace} (linkless : w.files.Linkless) {place : Place}
    (steps : ∀ name ∈ place, FileTree.IsStep name) :
    w.isFolder ⟨.slash, place⟩ = .ok true ↔
      IsWithin place ∧ ∀ front, front <+: place → w.files.entryAt? front = some .folder := by
  rw [isFolder_eq_true]
  constructor
  · rintro ⟨end_, located⟩
    obtain ⟨within, around, same⟩ := (locate_place linkless steps true).mp located
    refine ⟨within, ?_⟩
    rintro front ⟨rest, rfl⟩
    by_cases last : rest = []
    · rw [last, List.append_nil] at same
      exact (Spot.mk.inj same).2.symm
    · exact around front rest rfl last
  · rintro ⟨within, folders⟩
    refine ⟨place, (locate_place linkless steps true).mpr ⟨within, ?_, ?_⟩⟩
    · intro front rest shape _
      exact folders front ⟨rest, shape.symm⟩
    · rw [folders place List.prefix_rfl]

end Workspace

namespace Change

theorem run_locate (p : Path) (followLast : Bool) (w : Workspace) :
    (locate p followLast).run w = ((w.locate p followLast).mapError (faultAt p), w) := by
  rw [locate, run_bind, run_get]
  dsimp only
  cases w.locate p followLast <;> rfl

theorem run_refuse (refusal : Option FileError) (w : Workspace) :
    (refuse refusal).run w = (match refusal with | none => .ok () | some e => .error e, w) := by
  cases refusal <;> rfl

section Folders

variable {p : Path} {refusal : FolderRefusal} {w w' : Workspace}

/-- Making a folder makes one entry, or changes nothing. -/
theorem run_makeFolder (p : Path) (refusal : FolderRefusal) (w : Workspace) :
    (makeFolder p refusal).run w =
      match p.parts.getLast?, w.locate p false with
      | none, _ => (.error (faultAt p .alreadyExists), w)
      | some _, .error fault => (.error (faultAt p fault), w)
      | some last, .ok spot =>
        if last = Path.up ∨ spot.entry.isSome then (.error (faultAt p .alreadyExists), w)
        else match refusal p with
          | some e => (.error e, w)
          | none => (.ok (), w.put spot.place .folder) := by
  rw [makeFolder]
  cases p.parts.getLast? with
  | none => rfl
  | some last =>
    dsimp only
    rw [run_bind, run_locate]
    cases w.locate p false with
    | error fault => rfl
    | ok spot =>
      have rest : ∀ filled : Prop, [Decidable filled] →
          (if filled then throw (faultAt p .alreadyExists)
            else do refuse (refusal p); putEntry spot.place .folder : Change Unit).run w =
          if filled then (.error (faultAt p .alreadyExists), w)
          else match refusal p with
            | some e => (.error e, w)
            | none => (.ok (), w.put spot.place .folder) := by
        intro filled _
        split
        · rfl
        · cases refusal p <;> rfl
      exact rest _

theorem makeFolder_eq_ok (made : (makeFolder p refusal).run w = (.ok (), w')) :
    ∃ last spot, p.parts.getLast? = some last ∧ last ≠ Path.up ∧ w.locate p false = .ok spot ∧
      spot.entry = none ∧ w' = w.put spot.place .folder := by
  rw [run_makeFolder] at made
  split at made
  · cases made
  · cases made
  · rename_i last spot ends located
    split at made
    · cases made
    · rename_i new
      split at made
      · cases made
      · obtain ⟨step, missing⟩ := not_or.mp new
        exact ⟨last, spot, ends, step, located, Option.not_isSome_iff_eq_none.mp missing,
          (Prod.mk.inj made).2.symm⟩

theorem run_makeFolder_error {e : FileError}
    (failed : (makeFolder p refusal).run w = (.error e, w')) : w' = w := by
  rw [run_makeFolder] at failed
  split at failed
  · exact (Prod.mk.inj failed).2.symm
  · exact (Prod.mk.inj failed).2.symm
  · split at failed
    · exact (Prod.mk.inj failed).2.symm
    · split at failed
      · exact (Prod.mk.inj failed).2.symm
      · cases failed

/-- A folder that cannot be made is there already, or its failure stands. -/
theorem run_ensureFolder (p : Path) (refusal : FolderRefusal) (w : Workspace) :
    (ensureFolder p refusal).run w =
      match (makeFolder p refusal).run w with
      | (.ok (), w) => (.ok (), w)
      | (.error e, w) =>
        if e.fault ≠ .notFound ∧ w.isFolder p = .ok true then (.ok (), w) else (.error e, w) := by
  rw [ensureFolder, run_tryCatch]
  rcases (makeFolder p refusal).run w with ⟨result, w₁⟩
  cases result with
  | ok _ => rfl
  | error e =>
    dsimp only
    rw [run_bind, run_get]
    dsimp only
    split
    · rename_i missing
      simp [missing, run_throw]
    · rename_i folder other
      rw [if_pos ⟨other, folder⟩]
      rfl
    · rename_i other closed
      rw [if_neg fun both => closed both.2, run_throw]

theorem ensureFolder_eq_ok (done : (ensureFolder p refusal).run w = (.ok (), w')) :
    (makeFolder p refusal).run w = (.ok (), w') ∨ (w' = w ∧ w.isFolder p = .ok true) := by
  rw [run_ensureFolder] at done
  cases made : (makeFolder p refusal).run w with
  | mk result w₁ =>
    rw [made] at done
    cases result with
    | ok _ => exact .inl done
    | error e =>
      dsimp only at done
      split at done
      · rename_i there
        obtain ⟨-, rfl⟩ := Prod.mk.inj done
        obtain rfl := run_makeFolder_error made
        exact .inr ⟨rfl, there.2⟩
      · cases done

theorem run_ensureFolder_error {e : FileError}
    (failed : (ensureFolder p refusal).run w = (.error e, w')) : w' = w := by
  rw [run_ensureFolder] at failed
  cases made : (makeFolder p refusal).run w with
  | mk result w₁ =>
    rw [made] at failed
    cases result with
    | ok _ => cases failed
    | error e' =>
      dsimp only at failed
      split at failed
      · cases failed
      · rw [← (Prod.mk.inj failed).2, run_makeFolder_error made]

/-- Whatever the making of one folder leads to, in any number of steps, the making of a folder and
those around it leads to, also where it fails on the way. -/
theorem ensureFolders_leads (Leads : Workspace → Workspace → Prop) (stays : ∀ w, Leads w w)
    (further : ∀ {w w₁ w₂}, Leads w w₁ → Leads w₁ w₂ → Leads w w₂)
    (step : ∀ {w w' : Workspace} {parts : List Text}, parts <+: p.parts →
      (makeFolder ⟨p.root, parts⟩ refusal).run w = (.ok (), w') → Leads w w')
    {result : Except FileError Unit} (done : (ensureFolders p refusal).run w = (result, w')) :
    Leads w w' := by
  have single : ∀ {parts : List Text} {w w' : Workspace} {result : Except FileError Unit},
      parts <+: p.parts → (ensureFolder ⟨p.root, parts⟩ refusal).run w = (result, w') →
      Leads w w' := by
    intro parts w w' result around done
    cases result with
    | ok _ =>
      rcases ensureFolder_eq_ok done with made | ⟨rfl, -⟩
      · exact step around made
      · exact stays _
    | error e =>
      rw [run_ensureFolder_error done]
      exact stays w
  have around : p.parts.reverse.reverse <+: p.parts := by simp
  rw [ensureFolders] at done
  generalize p.parts.reverse = back at around done
  induction back generalizing w w' result with
  | nil => exact single around done
  | cons name outer ih =>
    have above : outer.reverse <+: p.parts := by
      rw [List.reverse_cons] at around
      exact (List.prefix_append _ _).trans around
    rw [ensureFoldersBack, run_tryCatch] at done
    cases first : (ensureFolder ⟨p.root, (name :: outer).reverse⟩ refusal).run w with
    | mk made w₁ =>
      rw [first] at done
      cases made with
      | ok _ =>
        obtain ⟨-, rfl⟩ := Prod.mk.inj done
        exact single around first
      | error e =>
        obtain rfl := run_ensureFolder_error first
        dsimp only at done
        split at done
        · rw [run_bind] at done
          cases outside : (ensureFoldersBack refusal p.root outer).run w₁ with
          | mk made w₂ =>
            rw [outside] at done
            cases made with
            | ok _ => exact further (ih above outside) (single around done)
            | error e =>
              obtain ⟨-, rfl⟩ := Prod.mk.inj done
              exact ih above outside
        · obtain ⟨-, rfl⟩ := Prod.mk.inj done
          exact stays _

end Folders

/-- What the saving of named files in a folder leaves: the folder and those around it are there, and
apart from the files all else is as it was. -/
structure Grown (place : Place) (names : List Text) (w w' : Workspace) : Prop where
  current : w'.current = w.current
  environment : w'.environment = w.environment
  linkless : w'.files.Linkless
  wellFormed : w'.files.WellFormed
  folders : ∀ q, q <+: place → w'.files.entryAt? q = some .folder
  before : ∀ q, q <+: place → w.files.entryAt? q = some .folder ∨ w.files.entryAt? q = none
  apart : ∀ q, ¬q <+: place → (∀ n ∈ names, q ≠ place ++ [n]) →
    w'.files.entryAt? q = w.files.entryAt? q
  saved : ∀ n ∈ names, ∃ content, w'.files.entryAt? (place ++ [n]) = some (.file content)
  closed : ∀ n ∈ names, w.files.entryAt? (place ++ [n]) ≠ some .folder

theorem not_deeper_inside {place : Place} (n : Text) : ¬place ++ [n] <+: place := by
  intro inside
  have long := inside.length_le
  rw [List.length_append, List.length_singleton] at long
  omega

theorem Grown.deeper {outer place : Place} {names : List Text} {w w₁ w₂ : Workspace}
    (around : outer <+: place) (first : Grown outer [] w w₁) (second : Grown place names w₁ w₂) :
    Grown place names w w₂ where
  current := second.current.trans first.current
  environment := second.environment.trans first.environment
  linkless := second.linkless
  wellFormed := second.wellFormed
  folders := second.folders
  before q inside := by
    by_cases above : q <+: outer
    · exact first.before q above
    · rw [← first.apart q above (by simp)]
      exact second.before q inside
  apart q outside other := by
    rw [second.apart q outside other, first.apart q (fun above => outside (above.trans around)) (by simp)]
  saved := second.saved
  closed n member := by
    have beside : ¬place ++ [n] <+: outer := fun above => not_deeper_inside n (above.trans around)
    rw [← first.apart _ beside (by simp)]
    exact second.closed n member

theorem Grown.trans {place : Place} {names more : List Text} {w w₁ w₂ : Workspace}
    (first : Grown place names w w₁) (second : Grown place more w₁ w₂) :
    Grown place (names ++ more) w w₂ where
  current := second.current.trans first.current
  environment := second.environment.trans first.environment
  linkless := second.linkless
  wellFormed := second.wellFormed
  folders := second.folders
  before := first.before
  apart q outside other := by
    rw [second.apart q outside fun n member => other n (List.mem_append_right _ member),
      first.apart q outside fun n member => other n (List.mem_append_left _ member)]
  saved n member := by
    by_cases again : n ∈ more
    · exact second.saved n again
    · have earlier := (List.mem_append.mp member).resolve_right again
      rw [second.apart _ (not_deeper_inside n) fun m listed same =>
        again (List.singleton_inj.mp (List.append_cancel_left same) ▸ listed)]
      exact first.saved n earlier
  closed n member := by
    by_cases early : n ∈ names
    · exact first.closed n early
    · have later := (List.mem_append.mp member).resolve_left early
      rw [← first.apart _ (not_deeper_inside n) fun m listed same =>
        early (List.singleton_inj.mp (List.append_cancel_left same) ▸ listed)]
      exact second.closed n later

section Folders

variable {w w' : Workspace}

/-- A folder that is there counts as made. -/
theorem Grown.refl (linkless : w.files.Linkless) (wellFormed : w.files.WellFormed) {place : Place}
    (folders : ∀ q, q <+: place → w.files.entryAt? q = some .folder) :
    Grown place [] w w where
  current := rfl
  environment := rfl
  linkless := linkless
  wellFormed := wellFormed
  folders := folders
  before q inside := .inl (folders q inside)
  apart _ _ _ := rfl
  saved _ member := absurd member List.not_mem_nil
  closed _ member := absurd member List.not_mem_nil

variable {place : Place} {refusal : FolderRefusal} (linkless : w.files.Linkless)
  (wellFormed : w.files.WellFormed) (names : ∀ name ∈ place, Path.IsName name)

include linkless wellFormed names

theorem grown_of_makeFolder (made : (makeFolder ⟨.slash, place⟩ refusal).run w = (.ok (), w')) :
    Grown place [] w w' := by
  have steps : ∀ name ∈ place, FileTree.IsStep name :=
    fun name member => ⟨(names name member).2.1, (names name member).2.2.1⟩
  obtain ⟨last, spot, ends, -, located, missing, rfl⟩ := makeFolder_eq_ok made
  obtain ⟨-, around, rfl⟩ := (Workspace.locate_place linkless steps false).mp located
  obtain ⟨outer, rfl⟩ := List.getLast?_eq_some_iff.mp ends
  have outerFolder := around outer [last] rfl (by simp)
  have filled : outer ++ [last] ≠ [] := by simp
  constructor
  case current => rfl
  case environment => rfl
  case linkless => exact linkless.put filled rfl
  case wellFormed => exact wellFormed.put (names last (by simp)) outerFolder fun _ => rfl
  case folders =>
    rintro q ⟨rest, shape⟩
    rw [Workspace.entryAt?_put filled]
    split
    · rfl
    · rename_i other
      apply around q rest shape.symm
      rintro rfl
      exact other (by rw [← shape, List.append_nil])
  case before =>
    rintro q ⟨rest, shape⟩
    by_cases whole : rest = []
    · rw [whole, List.append_nil] at shape
      exact .inr (shape ▸ missing)
    · exact .inl (around q rest shape.symm whole)
  case apart =>
    intro q outside _
    have other : q ≠ outer ++ [last] := by
      rintro rfl
      exact outside List.prefix_rfl
    rw [Workspace.entryAt?_put filled, if_neg other]
  case saved => exact fun _ member => absurd member List.not_mem_nil
  case closed => exact fun _ member => absurd member List.not_mem_nil

theorem grown_of_ensureFolder (done : (ensureFolder ⟨.slash, place⟩ refusal).run w = (.ok (), w')) :
    Grown place [] w w' := by
  have steps : ∀ name ∈ place, FileTree.IsStep name :=
    fun name member => ⟨(names name member).2.1, (names name member).2.2.1⟩
  rcases ensureFolder_eq_ok done with made | ⟨rfl, there⟩
  · exact grown_of_makeFolder linkless wellFormed names made
  · exact Grown.refl linkless wellFormed ((Workspace.isFolder_place linkless steps).mp there).2

/-- Making a folder with those around it makes what is missing on the way. -/
theorem grown_of_ensureFolders
    (done : (ensureFolders ⟨.slash, place⟩ refusal).run w = (.ok (), w')) :
    Grown place [] w w' := by
  rw [ensureFolders] at done
  have turned : place = place.reverse.reverse := (List.reverse_reverse place).symm
  rw [turned] at names ⊢
  dsimp only at done
  generalize place.reverse = back at names done
  induction back generalizing w w' with
  | nil => exact grown_of_ensureFolder linkless wellFormed names done
  | cons name outer ih =>
    rw [ensureFoldersBack, run_tryCatch] at done
    cases first : (ensureFolder ⟨.slash, (name :: outer).reverse⟩ refusal).run w with
    | mk result w₁ =>
      rw [first] at done
      cases result with
      | ok _ =>
        obtain ⟨-, rfl⟩ := Prod.mk.inj done
        exact grown_of_ensureFolder linkless wellFormed names first
      | error e =>
        obtain rfl := run_ensureFolder_error first
        dsimp only at done
        split at done
        · obtain ⟨_, w₂, above, last⟩ := run_bind_eq_ok.mp done
          have outerGrown := ih linkless wellFormed
            (fun n member => names n (by simpa using .inl (by simpa using member))) above
          exact outerGrown.deeper (by simp)
            (grown_of_ensureFolder outerGrown.linkless outerGrown.wellFormed names last)
        · cases done

end Folders

/-- Making a folder that is there changes nothing. -/
theorem run_ensureFolder_again {w : Workspace} (linkless : w.files.Linkless) {place : Place}
    (steps : ∀ name ∈ place, FileTree.IsStep name)
    (folders : ∀ q, q <+: place → w.files.entryAt? q = some .folder)
    (within : Workspace.IsWithin place) (refusal : FolderRefusal) :
    (ensureFolder ⟨.slash, place⟩ refusal).run w = (.ok (), w) := by
  have folder := (Workspace.isFolder_place linkless steps).mpr ⟨within, folders⟩
  have located : w.locate ⟨.slash, place⟩ false = .ok ⟨place, some .folder⟩ := by
    refine (Workspace.locate_place linkless steps false).mpr ⟨within, ?_, ?_⟩
    · exact fun front rest shape _ => folders front ⟨rest, shape.symm⟩
    · rw [folders place List.prefix_rfl]
  have made : (makeFolder ⟨.slash, place⟩ refusal).run w =
      (.error (faultAt ⟨.slash, place⟩ .alreadyExists), w) := by
    rw [run_makeFolder, located]
    cases place.getLast? with
    | none => rfl
    | some last =>
      dsimp only
      rw [if_pos (.inr rfl)]
  rw [run_ensureFolder, made]
  dsimp only
  rw [if_pos ⟨by simp [faultAt], folder⟩]

theorem run_ensureFolders_again {w : Workspace} (linkless : w.files.Linkless) {place : Place}
    (steps : ∀ name ∈ place, FileTree.IsStep name)
    (folders : ∀ q, q <+: place → w.files.entryAt? q = some .folder)
    (within : Workspace.IsWithin place) (refusal : FolderRefusal) :
    (ensureFolders ⟨.slash, place⟩ refusal).run w = (.ok (), w) := by
  have again := run_ensureFolder_again linkless steps folders within refusal
  have turned : place = place.reverse.reverse := (List.reverse_reverse place).symm
  rw [ensureFolders]
  rw [turned] at again
  dsimp only
  cases back : place.reverse with
  | nil => rwa [back] at again
  | cons name outer =>
    rw [back] at again
    rw [ensureFoldersBack, run_tryCatch, again]

end Change

end TestSkeleton
