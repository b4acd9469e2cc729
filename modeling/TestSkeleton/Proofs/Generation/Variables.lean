import TestSkeleton.Proofs.Generation.Arity
import TestSkeleton.Proofs.Rust.Receiver

/-! The variables of a test: the instance, the locals of the arguments, and the result of the call. -/

namespace TestSkeleton

open Text

section Built

variable {w : Workspace} {t : Target} {f : Function} {c : Case}

theorem Target.buildCase_instance (built : t.buildCase w f = .ok c) :
    ∀ b ∈ c.receiver, b.name = Case.instanceName := by
  obtain ⟨literal, bound⟩ := (Target.builds_of_buildCase built).receiver
  obtain ⟨-, named⟩ := Rust.bindReceiver_eq_ok bound
  exact fun b here => (named b here).1

end Built

namespace Case

theorem resultName_reserved : "result".toList ∈ Naming.reservedLocals := by decide

theorem instanceName_reserved : instanceName ∈ Naming.reservedLocals := by decide

/-- With locals that tests do not use themselves, all variables of a test differ. -/
theorem nodup_variables {c : Case} {names : List Text} (receiver : ∀ b ∈ c.receiver, b.name = instanceName)
    (bound : c.bindings.map (·.name) = Naming.locals names) :
    (c.locals.map (·.name) ++ ["result".toList]).Nodup := by
  have free : ∀ name ∈ c.bindings.map (·.name), name ∉ Naming.reservedLocals := by
    intro name member
    rw [bound] at member
    exact (Naming.isIdentifier_of_mem_locals member).2
  have distinct : (c.locals.map (·.name)).Nodup := by
    have plain : (c.bindings.map (·.name)).Nodup := bound ▸ Naming.nodup_locals names
    rw [locals, List.map_append]
    cases held : c.receiver with
    | none => exact plain
    | some b =>
      refine List.nodup_cons.mpr ⟨fun again => free _ again ?_, plain⟩
      change b.name ∈ Naming.reservedLocals
      rw [receiver b held]
      exact instanceName_reserved
  refine List.concat_eq_append ▸ distinct.concat fun again => ?_
  rw [locals, List.map_append, List.mem_append] at again
  rcases again with instanceVariable | argument
  · obtain ⟨b, held, same⟩ := List.mem_map.mp instanceVariable
    rw [receiver b (Option.mem_toList.mp held)] at same
    exact absurd same (by decide)
  · exact free _ argument resultName_reserved

/-- There is one local for each argument. It is the declared name or the number of the argument with the fewest
underscores that make it new, so no two locals are alike, and it is an identifier that tests do not use themselves.
In a test the instance, the locals of the arguments and the result are therefore different variables. -/
theorem variables_never_collide :
    (∀ names : List Text,
      (Naming.locals names).length = names.length ∧ (Naming.locals names).Nodup ∧
      (∀ (i : Nat) (name : Text), names[i]? = some name → ∃ k,
        Naming.IsFirstFree ((Naming.locals names).take i)
          (Naming.underscored (Naming.wanted names i name)) 0 k ∧
        (Naming.locals names)[i]? = some (Naming.underscored (Naming.wanted names i name) k)) ∧
      ∀ chosen ∈ Naming.locals names, isIdentifier chosen = true ∧
        ∀ reserved ∈ ["result", "instance", "self", "_"], chosen ≠ reserved.toList) ∧
    ∀ (w : Workspace) (t : Target) (f : Function) (c : Case), t.buildCase w f = .ok c →
      c.bindings.map (·.name) = Naming.locals (f.arguments.map (·.name)) ∧
      (∀ b ∈ c.receiver, b.name = "instance".toList) ∧
      (c.locals.map (·.name) ++ ["result".toList]).Nodup := by
  constructor
  · intro names
    refine ⟨Naming.length_locals names, Naming.nodup_locals names, fun i name => Naming.getElem?_locals, ?_⟩
    intro chosen member
    obtain ⟨identifier, free⟩ := Naming.isIdentifier_of_mem_locals member
    refine ⟨identifier, fun reserved listed same => free ?_⟩
    exact List.mem_map.mpr ⟨reserved, listed, same.symm⟩
  · intro w t f c built
    obtain ⟨names, -, -⟩ := Target.buildCase_call built
    have receiver := Target.buildCase_instance built
    exact ⟨names, receiver, nodup_variables receiver names⟩

/-- A method whose arguments are called like the variables of a test, like numbers, and like each other. -/
def crowdedMethod : Function :=
  { name := ['f']
    parameters := [⟨"self".toList, "&Self".toList⟩, ⟨"result".toList, "u8".toList⟩,
      ⟨"param_0".toList, "u8".toList⟩, ⟨"param_0_".toList, "u8".toList⟩, ⟨['x'], "u8".toList⟩, ⟨['x'], "u8".toList⟩]
    returns := []
    file := "/p/src/a.rs".toList
    owner := some ['A'] }

def crowdedTarget : Target := ⟨⟨.slash, [['p']]⟩, Policy.default, .rust ⟨['k'], none⟩⟩

theorem crowdedMethod_variables :
    crowdedMethod.arguments.length = 5 ∧
    (crowdedMethod.arguments.map (·.name))[2]? = some "param_0_".toList ∧
    (∃ k, Naming.IsFirstFree
        ((Naming.locals (crowdedMethod.arguments.map (·.name))).take 2)
        (Naming.underscored (Naming.wanted (crowdedMethod.arguments.map (·.name)) 2 "param_0_".toList)) 0 k ∧
      (Naming.locals (crowdedMethod.arguments.map (·.name)))[2]? = some (Naming.underscored
        (Naming.wanted (crowdedMethod.arguments.map (·.name)) 2 "param_0_".toList) k)) ∧
    ∃ c, crowdedTarget.buildCase {} crowdedMethod = .ok c ∧
      c.locals.map (·.name) = ["instance", "param_0", "param_0_", "param_0__", "param_3", "param_4"].map String.toList ∧
      (c.locals.map (·.name) ++ ["result".toList]).Nodup := by
  have third : (crowdedMethod.arguments.map (·.name))[2]? = some "param_0_".toList := by decide
  have ends : (crowdedTarget.buildCase {} crowdedMethod).toOption.any (fun c => c.locals.map (·.name) ==
      ["instance", "param_0", "param_0_", "param_0__", "param_3", "param_4"].map String.toList) = true := by
    decide +kernel
  obtain ⟨c, built, names⟩ := exists_ok_of_toOption ends
  obtain ⟨-, -, searched, -⟩ := variables_never_collide.1 (crowdedMethod.arguments.map (·.name))
  obtain ⟨-, -, distinct⟩ := variables_never_collide.2 {} crowdedTarget crowdedMethod c built
  exact ⟨by decide, third, searched 2 _ third, c, built, beq_iff_eq.mp names, distinct⟩

end Case

end TestSkeleton
