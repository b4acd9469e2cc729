import TestSkeleton.Case
import TestSkeleton.Proofs.Outcome

/-! What the case of a function holds, in either language. -/

namespace TestSkeleton

open Text

namespace Language

/-- Whether a parameter is passed as mutable. -/
def isMutable : Language → Parameter → Bool
  | rust => fun _ => false
  | v => V.isMutable

end Language

namespace Dialect

/-- The call of a function of a module with some arguments. -/
def call : Dialect → ModulePath → Function → List Binding → Text
  | rust crate => Rust.call crate
  | v => V.call

/-- The literal of an argument of a function. -/
def argumentLiteral (overrides : Literal.Overrides) (f : Function) (p : Parameter) :
    Dialect → Except LiteralError Text
  | rust _ => Rust.literal overrides (Rust.withOwner f p.type)
  | v => V.literal overrides p.type

/-- The literal of the type that owns the functions of a module. -/
def ownerLiteral (overrides : Literal.Overrides) (module : ModulePath) (owner : Text) :
    Dialect → Except LiteralError Text
  | rust crate => Rust.literal overrides (Rust.qualified crate module owner)
  | v => V.literal overrides (V.qualifier module ++ owner)

/-- The assertion on the result of a function. -/
def assertion (f : Function) : Dialect → Text
  | rust _ => Rust.assertion (Rust.withOwner f f.returns)
  | v => V.assertion f.returns

end Dialect

namespace Case

variable {policy : Policy} {f : Function} {literal : Text → Except LiteralError Text}

/-- The instance of a method is bound to the override of its owner, or to the owner's literal. -/
theorem value_of_bindReceiver {bound : Option Binding} (made : bindReceiver policy f literal = .ok bound) :
    ∀ b ∈ bound, b.name = instanceName ∧ ∃ owner,
      policy.typeMapping? owner = some b.value ∨ literal owner = .ok b.value := by
  unfold bindReceiver at made
  split at made
  · rename_i p owner _ _
    dsimp only at made
    split at made
    · rename_i value known
      cases made
      rintro b ⟨⟩
      exact ⟨rfl, owner, .inl known⟩
    · obtain ⟨value, found, made⟩ := bind_eq_ok.mp made
      cases made
      rintro b ⟨⟩
      exact ⟨rfl, owner, .inr found⟩
  · cases made
    exact nofun

end Case

namespace Target

/-- All that a case has from its function, but for what its literals and its assertion say. -/
structure Builds (w : Workspace) (t : Target) (f : Function) (c : Case) : Prop where
  module : t.moduleOf w f = .ok c.module
  path : c.path = (t.outputPath c.module).text
  name : c.name = Case.testName f
  receiver : ∃ literal, Case.bindReceiver t.policy f literal = .ok c.receiver
  bindings : ∃ literal, Case.bind f literal t.dialect.language.isMutable = .ok c.bindings
  call : c.call = t.dialect.call c.module f c.bindings

/-- What a case binds and asserts, by the literals and the assertion of its dialect. -/
structure Fills (t : Target) (f : Function) (c : Case) : Prop where
  function : c.function = f
  bindings : Case.bind f (fun p => t.dialect.argumentLiteral t.policy.typeMapping? f p)
    t.dialect.language.isMutable = .ok c.bindings
  receiver : Case.bindReceiver t.policy f (fun owner =>
    t.dialect.ownerLiteral t.policy.typeMapping? c.module owner) = .ok c.receiver
  assertion : c.assertion = t.dialect.assertion f

/-- A case piece by piece, in either language. -/
theorem exists_of_buildCase {w : Workspace} {t : Target} {f : Function} {c : Case}
    (built : t.buildCase w f = .ok c) : ∃ module receiver bindings, t.moduleOf w f = .ok module ∧
      Case.bind f (fun p => t.dialect.argumentLiteral t.policy.typeMapping? f p) t.dialect.language.isMutable =
        .ok bindings ∧
      Case.bindReceiver t.policy f (fun owner => t.dialect.ownerLiteral t.policy.typeMapping? module owner) =
        .ok receiver ∧
      c = {
        function := f
        path := (t.outputPath module).text
        module
        name := Case.testName f
        receiver
        bindings
        call := t.dialect.call module f bindings
        assertion := t.dialect.assertion f } := by
  obtain ⟨module, found, rest⟩ := bind_eq_ok.mp built
  have made := mapError_eq_ok.mp rest
  -- The two languages differ in their literals, their calls and what they assert.
  cases dialect : t.dialect <;>
    · simp only [dialect] at made
      obtain ⟨bindings, bound, made⟩ := bind_eq_ok.mp made
      obtain ⟨receiver, taken, made⟩ := bind_eq_ok.mp made
      cases made
      exact ⟨module, receiver, bindings, found, bound, taken, rfl⟩

variable {w : Workspace} {t : Target} {f : Function} {c : Case}

theorem builds_of_buildCase (built : t.buildCase w f = .ok c) : t.Builds w f c := by
  obtain ⟨module, receiver, bindings, found, bound, taken, rfl⟩ := exists_of_buildCase built
  exact ⟨found, rfl, rfl, ⟨_, taken⟩, ⟨_, bound⟩, rfl⟩

theorem fills_of_buildCase (built : t.buildCase w f = .ok c) : t.Fills f c := by
  obtain ⟨module, receiver, bindings, -, bound, taken, rfl⟩ := exists_of_buildCase built
  exact ⟨rfl, bound, taken, rfl⟩

end Target

end TestSkeleton
