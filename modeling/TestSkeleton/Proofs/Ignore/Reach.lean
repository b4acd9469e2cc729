import TestSkeleton.Ignore.Rule
import TestSkeleton.Proofs.Pattern.Path
import TestSkeleton.Proofs.Text.Basic

/-! What ignore rules name, and how far they reach beyond it. -/

namespace TestSkeleton

open Text

namespace IgnoreRule

/-- Whether a rule names a path, as ignore files are documented: without a slash it names the last
name of the path, with one the whole path, and with a slash and `**` at its end only what lies
inside. -/
def names (r : IgnoreRule) (path : Text) (isFolder : Bool) : Bool :=
  if r.pattern.isEmpty || (r.foldersOnly && !isFolder) then false
  else match r.inner? path with
    | none => false
    | some inner =>
      if r.anchored || r.hasSlash then
        match dropSuffix? PathPattern.insideMark r.pattern with
        | some folder => (PathPattern.foldersAround inner).any (PathPattern.read folder).admits
        | none => (PathPattern.read r.pattern).admits inner
      else (splitOn '/' inner).getLast?.any (NamePattern.read r.pattern).admits

/-- Whether a rule fits a path that it does not name: by a name of a folder around it, or as the
folder whose inside it names. -/
def overreaches (r : IgnoreRule) (path : Text) : Bool :=
  match r.inner? path with
  | none => false
  | some inner =>
    if r.anchored || r.hasSlash then
      match dropSuffix? PathPattern.insideMark r.pattern with
      | some folder => (PathPattern.read folder).admits inner
      | none => false
    else (splitOn '/' inner).dropLast.any (NamePattern.read r.pattern).admits

theorem not_mem_inner {r : IgnoreRule} {path inner : Text} {c : Char} (below : r.inner? path = some inner)
    (absent : c ∉ path) : c ∉ inner := by
  unfold inner? at below
  split at below
  · rwa [← Option.some.inj below]
  · rw [dropPrefix?_eq_some.mp below] at absent
    exact fun member => absent (List.mem_append_right _ member)

/-- Of the names of a path the last one is looked at first. -/
theorem any_splitOn (p : Text → Bool) (t : Text) :
    (splitOn '/' t).any p = ((splitOn '/' t).getLast?.any p || (splitOn '/' t).dropLast.any p) := by
  have filled := splitWhere_ne_nil (· == '/') t
  rw [← splitOn] at filled
  generalize splitOn '/' t = pieces at filled
  have parted := congrArg (List.any · p) (List.dropLast_concat_getLast filled)
  rw [← parted, List.getLast?_eq_some_getLast filled]
  simp [Bool.or_comm]

/-- On a path of one line, a rule that does not overreach admits what it names. -/
theorem admits_eq_names {r : IgnoreRule} {path : Text} (isFolder : Bool) (oneLine : '\n' ∉ path)
    (within : r.overreaches path = false) : r.admits path isFolder = r.names path isFolder := by
  unfold admits names
  split
  · rfl
  unfold overreaches at within
  cases below : r.inner? path with
  | none => rfl
  | some inner =>
    have clean := not_mem_inner below oneLine
    rw [below] at within
    dsimp only at within ⊢
    split
    · rename_i slash
      rw [if_pos slash] at within
      cases ends : dropSuffix? PathPattern.insideMark r.pattern with
      | none => rfl
      | some folder =>
        rw [ends] at within
        dsimp only at within ⊢
        have deepened := PathPattern.deepened_read folder
        rw [dropSuffix?_eq_some.mp ends, Bool.eq_iff_iff]
        constructor
        · intro admitted
          have either := PathPattern.foldersAround_of_admits deepened admitted
          exact either.resolve_left (by simp [within])
        · exact PathPattern.admits_of_foldersAround deepened clean
    · rename_i slash
      rw [if_neg slash] at within
      rw [any_splitOn, within, Bool.or_false]

end IgnoreRule

end TestSkeleton
