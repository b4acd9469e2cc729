import TestSkeleton.Literal.Rust
import TestSkeleton.Literal.V
import TestSkeleton.Proofs.Extraction.Parameter
import TestSkeleton.Proofs.Settings.Policy
import TestSkeleton.Proofs.Signature.Normal

/-! Types in normal spelling, from the source to the override that is looked up.

A type is spelled normally where it is found, where it is a key of the overrides, and where a literal
is asked for. Since a normal spelling stays as it is, all three speak of the same text. -/

namespace TestSkeleton

open Text Signature

namespace Signature

theorem filter_solid_normalize (t : Text) : (normalize t).filter solid = t.filter solid := by
  rw [normalize_eq_spaceFrom, filter_solid_spaceFrom]

theorem normalize_receiver (isReference isMutable : Bool) :
    normalize (receiver isReference isMutable).type = (receiver isReference isMutable).type := by
  cases isReference <;> cases isMutable <;> decide

theorem normalize_parameter (name type : Text) :
    normalize (parameter name type).type = (parameter name type).type := by
  simp only [parameter, normalize_normalize]

end Signature

/-- Whether every type of a signature is in normal spelling. -/
def Function.IsNormal (f : Function) : Prop := ∀ type ∈ f.types, normalize type = type

theorem Function.isNormal_of_parameters {f : Function}
    (parameters : ∀ p ∈ f.parameters, normalize p.type = p.type)
    (returns : normalize f.returns = f.returns) : f.IsNormal := by
  intro type member
  rcases List.mem_append.mp member with listed | last
  · rcases List.mem_map.mp listed with ⟨p, declared, rfl⟩
    exact parameters p declared
  · rw [List.mem_singleton.mp last, returns]

namespace Rust

theorem normalize_parameterOf (place : Nat) (t : Tree) :
    normalize (parameterOf place t).type = (parameterOf place t).type := by
  unfold parameterOf
  split
  · exact normalize_receiver _ _
  · dsimp only
    split
    · split
      · exact normalize_receiver _ _
      · exact normalize_parameter _ _
    · exact normalize_parameter _ _

theorem isNormal_functionOf (file : Text) (scope : List Text) (owner : Option Text) (t : Tree) :
    (functionOf file scope owner t).IsNormal := by
  apply Function.isNormal_of_parameters ?_ (by simp only [functionOf, normalize_normalize])
  intro p member
  have declared : p ∈ parametersOf t := member
  rw [parametersOf_eq] at declared
  rcases List.mem_map.mp declared with ⟨c, -, rfl⟩
  exact normalize_parameterOf c.2 c.1

theorem isNormal_of_extract {policy : Policy} {file source : Text} {functions : List Function}
    (found : extract policy file source = .ok functions) {f : Function} (member : f ∈ functions) :
    f.IsNormal := by
  rcases map_eq_ok.mp found with ⟨trees, -, rfl⟩
  rcases exists_tree_collectAll policy file [] none [] trees f member with
    ⟨t, scope, owner, -, -, rfl⟩
  exact isNormal_functionOf file scope owner t

end Rust

namespace V

theorem normalize_parameters {inside : Text} {p : Parameter} (member : p ∈ parameters inside) :
    normalize p.type = p.type := by
  rcases List.mem_mapIdx.mp member with ⟨place, inRange, rfl⟩
  exact normalize_parameter _ _

theorem isNormal_functionOf? {file rest : Text} {h : Header} {f : Function}
    (found : functionOf? file h rest = some f) : f.IsNormal := by
  rcases Option.map_eq_some_iff.mp found with ⟨cut, -, rfl⟩
  apply Function.isNormal_of_parameters ?_ (by simp only [normalize_normalize])
  intro p member
  rcases List.mem_append.mp member with receiver | declared
  · rcases Option.map_eq_some_iff.mp (Option.mem_toList.mp receiver) with ⟨r, -, rfl⟩
    exact normalize_receiver _ _
  · exact normalize_parameters declared

theorem isNormal_of_extract {policy : Policy} {file source : Text} {functions : List Function}
    (found : extract policy file source = .ok functions) {f : Function} (member : f ∈ functions) :
    f.IsNormal := by
  unfold extract at found
  dsimp only at found
  split at found
  · cases found
  · cases found
    rcases List.mem_filterMap.mp member with ⟨⟨h, rest⟩, -, kept⟩
    dsimp only at kept
    split at kept
    · exact isNormal_functionOf? kept
    · cases kept

end V

theorem Language.isNormal_of_extract {l : Language} {policy : Policy} {file source : Text}
    {functions : List Function} (found : l.extract policy file source = .ok functions) {f : Function}
    (member : f ∈ functions) : f.IsNormal := by
  cases l with
  | rust => exact Rust.isNormal_of_extract found member
  | v => exact V.isNormal_of_extract found member

namespace Policy

variable {o : PolicyFields} {p : Policy}

/-- Of the entries whose keys are spelled like a type, the last one is its override. -/
theorem typeMapping?_of_last (made : ofFields o = .ok p) {front back : List (Text × Text)}
    {key value type : Text} (entries : o.typeMappings = front ++ (key, value) :: back)
    (same : normalize key = normalize type)
    (last : ∀ entry ∈ back, normalize entry.1 ≠ normalize type) :
    p.typeMapping? type = some value := by
  rw [typeMapping?, ← (checked_of_ofFields made).typeMappings, entries, List.map_append,
    List.map_cons]
  simp only [same]
  apply Table.get?_ofList_of_last
  intro entry member
  rcases List.mem_map.mp member with ⟨⟨k, v⟩, listed, rfl⟩
  simpa only using last (k, v) listed

theorem typeMapping?_normalize (p : Policy) (type : Text) :
    p.typeMapping? (normalize type) = p.typeMapping? type := by
  rw [typeMapping?, typeMapping?, normalize_normalize]

/-- An override is the literal in either language, before any rule is tried. -/
theorem literal_of_typeMapping? {type value : Text} (found : p.typeMapping? type = some value) :
    Rust.literal p.typeMapping? type = .ok value ∧ V.literal p.typeMapping? type = .ok value := by
  have spelled : p.typeMapping? (normalize type) = some value :=
    (p.typeMapping?_normalize type).trans found
  constructor
  · simp [Rust.literal, Literal.levels, Rust.literalWithin, spelled]
  · simp [V.literal, Literal.levels, V.literalWithin, spelled]

end Policy

/-- The normal spelling of a text is spelled normally and has the same characters but for blanks.
Extracted types have it, and the last override whose key has the same one is the literal. -/
theorem normal_spelling :
    (∀ t, normalize (normalize t) = normalize t ∧ (normalize t).filter solid = t.filter solid) ∧
    (∀ (l : Language) policy file source functions, l.extract policy file source = .ok functions →
      ∀ f ∈ functions, ∀ type ∈ f.types, normalize type = type) ∧
    ∀ o policy, Policy.ofFields o = .ok policy → ∀ front key value back type,
      o.typeMappings = front ++ (key, value) :: back → normalize key = normalize type →
      (∀ entry ∈ back, normalize entry.1 ≠ normalize type) →
        Rust.literal policy.typeMapping? type = .ok value ∧
        V.literal policy.typeMapping? type = .ok value := by
  refine ⟨?_, ?_, ?_⟩
  · intro t
    exact ⟨normalize_normalize t, filter_solid_normalize t⟩
  · intro l policy file source functions found f member
    exact Language.isNormal_of_extract found member
  · intro o policy made front key value back type entries same last
    exact Policy.literal_of_typeMapping? (Policy.typeMapping?_of_last made entries same last)

def vectorSource : Text := "pub fn f(x Vec[ u8 ]) \x7b\n\x7d\n".toList

def vectorFunction : Function :=
  { name := ['f']
    parameters := [⟨['x'], "Vec[u8]".toList⟩]
    returns := []
    file := [] }

/-- Two keys for one type, and one more key. -/
def vectorFields : PolicyFields :=
  { typeMappings := [("Vec<u8>".toList, "a()".toList), ("Vec< u8 >".toList, "b()".toList),
      ("u8".toList, "c()".toList)] }

theorem normal_spelling_vector :
    Language.v.extract Policy.default [] vectorSource = .ok [vectorFunction] ∧
      normalize "Vec[u8]".toList = "Vec[u8]".toList ∧
      ∃ policy, Policy.ofFields vectorFields = .ok policy ∧
        Rust.literal policy.typeMapping? "Vec <u8 >".toList = .ok "b()".toList := by
  have extracted : Language.v.extract Policy.default [] vectorSource = .ok [vectorFunction] := by
    decide +kernel
  have made : ∃ policy, Policy.ofFields vectorFields = .ok policy := ⟨_, rfl⟩
  rcases made with ⟨policy, made⟩
  refine ⟨extracted, ?_, policy, made, ?_⟩
  · apply normal_spelling.2.1 .v Policy.default [] vectorSource [vectorFunction] extracted
      vectorFunction List.mem_cons_self
    exact List.mem_cons_self
  · have spelled := normal_spelling.2.2 vectorFields policy made [("Vec<u8>".toList, "a()".toList)]
      "Vec< u8 >".toList "b()".toList [("u8".toList, "c()".toList)] "Vec <u8 >".toList rfl
      (by decide) (by decide)
    exact spelled.1

end TestSkeleton
