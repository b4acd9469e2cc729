import TestSkeleton.Case
import TestSkeleton.Proofs.Extraction.Parameter
import TestSkeleton.Proofs.Generation.BuiltCase
import TestSkeleton.Proofs.Naming.Local

/-! The arguments of a rendered call against the parameters that the source declares. -/

namespace TestSkeleton

open Text

/-- Whether a source declares a function with certain parameters beside the instance of a method. -/
inductive Declares (source : Text) (f : Function) : Language → List Explicit → Prop where
  | rust {trees : List Rust.Tree} {t : Rust.Tree} (parsed : Rust.parse source = .ok trees)
      (inside : t.Inside trees) (isFunction : t.isKind .function = true) (named : f.name = Rust.nameOf t)
      (parameters : f.parameters = Rust.parametersOf t) : Declares source f .rust (Rust.explicit t)
  | v {h : V.Header} {rest inside after : Text} (found : (h, rest) ∈ V.headers (V.blank source))
      (cut : V.cutAtClosing? 0 rest = some (inside, after)) (named : f.name = h.name)
      (parameters : f.parameters = (h.receiver.map V.Receiver.parameter).toList ++ V.parameters inside) :
      Declares source f .v (V.explicit inside)

/-- Whether the type of a parameter leaves a marker in front of it as it is. -/
def Explicit.IsPlain (e : Explicit) : Prop :=
  (∀ c ∈ e.type.head?, Signature.keepsBlank 't' c = true) ∧ startsWith "mut".toList e.type = false

namespace Language

/-- A local as it is passed to a call. -/
def passed : Language → Binding → Text
  | rust => Binding.name
  | v => V.passed

end Language

namespace Case

/-- What can stand behind a call. -/
def tails : List Text := [[], ".await".toList, " or \x7b panic(err) \x7d".toList]

/-- Whether a text calls a function with arguments. -/
def IsCall (f : Function) (arguments : List Text) (call : Text) : Prop :=
  ∃ callee tail, call = callee ++ argumentList arguments ++ tail ∧ f.name <:+ callee ∧ tail ∈ tails

/-- A call that may have something behind it. -/
theorem isCall_ite {f : Function} {call tail : Text} {arguments : List Text}
    (shape : ∃ front, call = front ++ f.name ++ argumentList arguments) (known : tail ∈ tails)
    (marked : Bool) : IsCall f arguments (if marked then call ++ tail else call) := by
  obtain ⟨front, rfl⟩ := shape
  have suffix : f.name <:+ front ++ f.name := List.suffix_append front f.name
  cases marked with
  | true => exact ⟨front ++ f.name, tail, rfl, suffix, known⟩
  | false => exact ⟨front ++ f.name, [], (List.append_nil _).symm, suffix, List.mem_cons_self⟩

theorem forall₂_of_mapM {ε α β : Type} {f : α → Except ε β} {l : List α} {bs : List β}
    (made : l.mapM f = .ok bs) : List.Forall₂ (fun a b => f a = .ok b) l bs := by
  induction l generalizing bs with
  | nil =>
    cases made
    exact .nil
  | cons a l ih =>
    rw [List.mapM_cons] at made
    obtain ⟨b, first, made⟩ := bind_eq_ok.mp made
    obtain ⟨rest, others, made⟩ := bind_eq_ok.mp made
    cases made
    exact .cons first (ih others)

theorem map_eq_map_of_forall₂ {α β γ : Type} {R : α → β → Prop} {g : β → γ} {h : α → γ} {as : List α}
    {bs : List β} (each : List.Forall₂ R as bs) (same : ∀ a b, R a b → g b = h a) :
    bs.map g = as.map h := by
  induction each with
  | nil => rfl
  | cons here _ ih => rw [List.map_cons, List.map_cons, same _ _ here, ih]

/-- There is one local for each argument, in order. -/
theorem bind_eq_ok_locals {f : Function} {literal : Parameter → Except LiteralError Text}
    {isMutable : Parameter → Bool} {bs : List Binding} (bound : bind f literal isMutable = .ok bs) :
    bs.map (·.name) = Naming.locals (f.arguments.map (·.name)) ∧
      bs.map (·.isMutable) = f.arguments.map isMutable := by
  have length : (Naming.locals (f.arguments.map (·.name))).length = f.arguments.length := by
    rw [Naming.length_locals, List.length_map]
  have each := forall₂_of_mapM bound
  have names : bs.map (·.name) =
      ((Naming.locals (f.arguments.map (·.name))).zip f.arguments).map Prod.fst := by
    refine map_eq_map_of_forall₂ each fun named b made => ?_
    obtain ⟨value, -, made⟩ := bind_eq_ok.mp made
    cases made
    rfl
  have marks : bs.map (·.isMutable) =
      (((Naming.locals (f.arguments.map (·.name))).zip f.arguments).map Prod.snd).map isMutable := by
    rw [List.map_map]
    refine map_eq_map_of_forall₂ each fun named b made => ?_
    obtain ⟨value, -, made⟩ := bind_eq_ok.mp made
    cases made
    rfl
  rw [List.map_fst_zip (Nat.le_of_eq length)] at names
  rw [List.map_snd_zip (Nat.le_of_eq length.symm)] at marks
  exact ⟨names, marks⟩

/-- Every local is bound to the literal of an argument. -/
theorem value_of_bind {f : Function} {literal : Parameter → Except LiteralError Text}
    {isMutable : Parameter → Bool} {bs : List Binding} (bound : bind f literal isMutable = .ok bs) :
    ∀ b ∈ bs, ∃ p, literal p = .ok b.value := by
  have each := forall₂_of_mapM bound
  intro b member
  obtain ⟨place, here, rfl⟩ := List.getElem_of_mem member
  obtain ⟨value, made, whole⟩ := bind_eq_ok.mp (each.get (each.length_eq ▸ here) here)
  refine ⟨_, made.trans (congrArg Except.ok ?_)⟩
  exact congrArg Binding.value (pure_eq_ok.mp whole)

end Case

section Call

variable {t : Target} {module : ModulePath} {f : Function} {c : Case}

theorem Rust.call_isCall (crate : Crate) (module : ModulePath) (f : Function) (bs : List Binding) :
    Case.IsCall f (bs.map (·.name)) (call crate module f bs) := by
  refine Case.isCall_ite ?_ (by decide) f.isAsync
  split
  · exact ⟨Case.instanceName ++ ['.'], rfl⟩
  · split
    · exact ⟨_, rfl⟩
    · exact ⟨_, by rw [qualified, join_append_singleton]⟩

theorem V.call_isCall (module : ModulePath) (f : Function) (bs : List Binding) :
    Case.IsCall f (bs.map passed) (call module f bs) := by
  refine Case.isCall_ite ?_ (by decide) (mayFail f)
  split
  · exact ⟨Case.instanceName ++ ['.'], rfl⟩
  · exact ⟨_, rfl⟩

/-- A case binds its arguments and calls the function with them. -/
theorem Target.buildCase_call {w : Workspace} (built : t.buildCase w f = .ok c) :
    c.bindings.map (·.name) = Naming.locals (f.arguments.map (·.name)) ∧
      c.bindings.map (·.isMutable) = f.arguments.map t.dialect.language.isMutable ∧
      Case.IsCall f (c.bindings.map t.dialect.language.passed) c.call := by
  obtain ⟨-, -, -, -, ⟨literal, bound⟩, called⟩ := builds_of_buildCase built
  obtain ⟨names, marks⟩ := Case.bind_eq_ok_locals bound
  refine ⟨names, marks, ?_⟩
  rw [called]
  cases t.dialect with
  | rust crate => exact Rust.call_isCall crate c.module f c.bindings
  | v => exact V.call_isCall c.module f c.bindings

end Call

section Explicit

variable {policy : Policy} {file source : Text} {functions : List Function} {f : Function}

theorem Rust.declares_of_extract (extracted : extract policy file source = .ok functions)
    (member : f ∈ functions) : ∃ explicit, Declares source f .rust explicit ∧
      explicit.map (·.parameter) = f.arguments ∧
      ∀ e ∈ explicit, e.parameter.isReceiver = false ∧ e.isMutable = false := by
  obtain ⟨trees, parsed, rfl⟩ := map_eq_ok.mp extracted
  obtain ⟨t, scope, owner, isFunction, inside, rfl⟩ :=
    exists_tree_collectAll policy file [] none [] trees f member
  refine ⟨explicit t, .rust parsed inside isFunction rfl rfl, explicit_parameters t, fun e listed => ?_⟩
  refine ⟨isReceiver_explicit listed, ?_⟩
  obtain ⟨c, -, rfl⟩ := List.mem_map.mp listed
  rfl

theorem V.declares_of_extract (extracted : extract policy file source = .ok functions)
    (member : f ∈ functions) : ∃ inside, Declares source f .v (explicit inside) ∧
      ((explicit inside).map (·.parameter)).filter (fun p => !p.isReceiver) = f.arguments := by
  unfold extract at extracted
  dsimp only at extracted
  split at extracted
  · cases extracted
  · cases extracted
    obtain ⟨⟨h, rest⟩, found, kept⟩ := List.mem_filterMap.mp member
    dsimp only at kept
    split at kept
    · obtain ⟨⟨inside, after⟩, cut, rfl⟩ := Option.map_eq_some_iff.mp kept
      refine ⟨inside, .v found cut rfl rfl, ?_⟩
      have receiver : ((h.receiver.map Receiver.parameter).toList).filter (fun p => !p.isReceiver) = [] := by
        cases h.receiver with
        | none => rfl
        | some r =>
          have self : r.parameter.isReceiver = true := Signature.isReceiver_receiver _ _
          simp [self]
      rw [explicit_parameters, Function.arguments, List.filter_append, receiver, List.nil_append]
    · cases kept

theorem V.isMutable_explicit {inside : Text} {e : Explicit} (member : e ∈ explicit inside)
    (plain : e.IsPlain) : isMutable e.parameter = e.isMutable := by
  obtain ⟨i, here, rfl⟩ := List.mem_mapIdx.mp member
  have visible : Visible (slots ((partsOf inside).map pieceOf))[i].type := by
    refine visible_slots (fun p listed => ?_) _ (List.getElem_mem here)
    obtain ⟨part, inParts, rfl⟩ := List.mem_map.mp listed
    exact visible_partsOf inParts
  exact isMutable_parameter visible plain.1 plain.2 i

/-- Of the parameters that a function declares, a call passes those that do not pass for a receiver. -/
theorem Language.declares_of_extract {l : Language} (extracted : l.extract policy file source = .ok functions)
    (member : f ∈ functions) : ∃ explicit, Declares source f l explicit ∧
      (l = .rust → ∀ e ∈ explicit, e.parameter.isReceiver = false) ∧
      (explicit.filter fun e => !e.parameter.isReceiver).map (·.parameter) = f.arguments ∧
      ∀ e ∈ explicit, e.IsPlain → l.isMutable e.parameter = e.isMutable := by
  cases l with
  | rust =>
    obtain ⟨explicit, declares, same, others⟩ := Rust.declares_of_extract extracted member
    refine ⟨explicit, declares, fun _ e listed => (others e listed).1, ?_, fun e listed _ => ?_⟩
    · have all : explicit.filter (fun e => !e.parameter.isReceiver) = explicit :=
        List.filter_eq_self.mpr fun e listed => by simp [others e listed]
      rw [all, same]
    · exact (others e listed).2.symm
  | v =>
    obtain ⟨inside, declares, same⟩ := V.declares_of_extract extracted member
    refine ⟨V.explicit inside, declares, fun other => ?_, ?_, fun e listed plain => ?_⟩
    · cases other
    · rw [← same, List.filter_map]
      rfl
    · exact V.isMutable_explicit listed plain

/-- A case has one local for each declared parameter that does not pass for a receiver, in order, no two
alike, and its call passes exactly these locals in order, with a marker where the parameter has one. So
it has one local for each declared parameter exactly when none passes for a receiver, and in Rust none
does. -/
theorem Case.passes_explicit {l : Language} {w : Workspace} {t : Target} {c : Case}
    (extracted : l.extract policy file source = .ok functions) (member : f ∈ functions)
    (language : t.dialect.language = l) (built : t.buildCase w f = .ok c) :
    ∃ explicit, Declares source f l explicit ∧
      (l = .rust → ∀ e ∈ explicit, e.parameter.isReceiver = false) ∧
      (c.bindings.length = explicit.length ↔ ∀ e ∈ explicit, e.parameter.isReceiver = false) ∧
      c.bindings.map (·.name) = Naming.locals
        ((explicit.filter fun e => !e.parameter.isReceiver).map (·.parameter.name)) ∧
      (c.bindings.map (·.name)).Nodup ∧
      List.Forall₂ (fun b e => e.IsPlain → b.isMutable = e.isMutable) c.bindings
        (explicit.filter fun e => !e.parameter.isReceiver) ∧
      IsCall f (c.bindings.map l.passed) c.call := by
  obtain ⟨explicit, declares, rust, kept, marks⟩ := Language.declares_of_extract extracted member
  obtain ⟨names, mutable, call⟩ := Target.buildCase_call built
  rw [language] at mutable call
  have locals : c.bindings.map (·.name) = Naming.locals
      ((explicit.filter fun e => !e.parameter.isReceiver).map (·.parameter.name)) := by
    rw [names, ← kept, List.map_map]
    rfl
  have count : c.bindings.length = (explicit.filter fun e => !e.parameter.isReceiver).length := by
    have same := congrArg List.length locals
    rwa [List.length_map, Naming.length_locals, List.length_map] at same
  refine ⟨explicit, declares, rust, ?_, locals, locals ▸ Naming.nodup_locals _, ?_, call⟩
  · rw [count, List.length_filter_eq_length_iff]
    simp
  · have each : List.Forall₂ (fun b e => b.isMutable = l.isMutable e.parameter) c.bindings
        (explicit.filter fun e => !e.parameter.isReceiver) := by
      rw [← kept, List.map_map, ← List.forall₂_eq_eq_eq, List.forall₂_map_left_iff,
        List.forall₂_map_right_iff] at mutable
      exact mutable
    rw [List.forall₂_iff_zip] at each ⊢
    refine ⟨each.1, fun {b e} paired plain => ?_⟩
    rw [each.2 paired]
    exact marks e (List.mem_filter.mp (List.of_mem_zip paired).2).1 plain

end Explicit

/-- A source in V whose first parameter passes for a receiver by its name and the end of its type. -/
def selfish : Text := "pub fn f(self MySelf, mut x []int) int \x7b\n\treturn 1\n\x7d\n".toList

def selfishFunction : Function :=
  { name := ['f']
    parameters := [⟨"self".toList, "MySelf".toList⟩, ⟨['x'], "mut []int".toList⟩]
    returns := "int".toList
    file := "/p/a.v".toList }

def selfishTarget : Target := ⟨⟨.slash, [['p']]⟩, Policy.default, .v⟩

/-- The call passes one of the two declared parameters. -/
theorem Case.selfish_loses : ∃ c explicit,
    selfishTarget.buildCase {} selfishFunction = .ok c ∧
      Declares selfish selfishFunction .v explicit ∧
      explicit.length = 2 ∧ c.bindings.length = 1 ∧ c.call = "f(mut x)".toList := by
  have extracted : Language.v.extract Policy.default "/p/a.v".toList selfish = .ok [selfishFunction] := by
    decide +kernel
  have ends : (selfishTarget.buildCase {} selfishFunction).toOption.any
      (fun c => c.call == "f(mut x)".toList && c.bindings.length == 1) = true := by decide +kernel
  obtain ⟨c, built, call⟩ := exists_ok_of_toOption ends
  obtain ⟨explicit, declares, -, -, -, -, -, -⟩ :=
    passes_explicit extracted List.mem_cons_self rfl built
  have headers : V.headers (V.blank selfish) = [(⟨true, none, ['f']⟩,
      "self MySelf, mut x []int) int \x7b\n\treturn 1\n\x7d\n".toList)] := by decide +kernel
  simp only [Bool.and_eq_true, beq_iff_eq] at call
  refine ⟨c, explicit, built, declares, ?_, call.2, call.1⟩
  cases declares with
  | v found cut named parameters =>
    rw [headers, List.mem_singleton] at found
    cases found
    have inside : V.cutAtClosing? 0 "self MySelf, mut x []int) int \x7b\n\treturn 1\n\x7d\n".toList =
        some ("self MySelf, mut x []int".toList, " int \x7b\n\treturn 1\n\x7d\n".toList) := by
      decide +kernel
    rw [inside] at cut
    cases cut
    decide +kernel

end TestSkeleton
