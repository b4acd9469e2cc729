import Mathlib.Data.Finset.Card
import TestSkeleton.Extraction
import TestSkeleton.Proofs.Outcome

/-! Calls that share a table of types.

The types of a function go through the table while its source is still being read. What is in the table
after any number of calls is nevertheless told by their answers alone. -/

namespace TestSkeleton

open Text

namespace Interner

theorem mem_intern {i : Interner} {t u : Text} : u ∈ (i.intern t).texts ↔ u ∈ i.texts ∨ u = t := by
  unfold intern
  split
  · rename_i known
    constructor
    · exact .inl
    · rintro (before | rfl)
      · exact before
      · exact List.contains_iff_mem.mp known
  · rw [List.mem_append, List.mem_singleton]

theorem nodup_intern {i : Interner} (distinct : i.texts.Nodup) (t : Text) : (i.intern t).texts.Nodup := by
  unfold intern
  split
  · exact distinct
  · rename_i unknown
    refine List.nodup_append.mpr ⟨distinct, List.nodup_singleton t, ?_⟩
    rintro u member v here rfl
    exact unknown (List.contains_iff_mem.mpr (List.mem_singleton.mp here ▸ member))

theorem mem_foldl_intern {i : Interner} {ts : List Text} {t : Text} :
    t ∈ (ts.foldl intern i).texts ↔ t ∈ i.texts ∨ t ∈ ts := by
  induction ts generalizing i with
  | nil => simp
  | cons u ts ih => rw [List.foldl_cons, ih, mem_intern, List.mem_cons, or_assoc]

theorem nodup_foldl_intern {i : Interner} (distinct : i.texts.Nodup) (ts : List Text) :
    (ts.foldl intern i).texts.Nodup := by
  induction ts generalizing i with
  | nil => exact distinct
  | cons u ts ih => exact ih (nodup_intern distinct u)

/-- A table that starts empty has as many texts as it was given different ones. -/
theorem size_foldl_intern (ts : List Text) :
    (ts.foldl intern ({} : Interner)).size = ts.toFinset.card := by
  have same : (ts.foldl intern ({} : Interner)).texts.toFinset = ts.toFinset := by
    ext t
    simp [mem_foldl_intern]
  rw [← same, List.toFinset_card_of_nodup (nodup_foldl_intern List.nodup_nil ts), size]

end Interner

namespace Interning

variable {α β : Type} {c : Interning α} {a : α} {b : β} {ts us : List Text}

/-- Whether a computation gives `a` and puts the texts `ts` into the table, whatever is in it. -/
def Adds (c : Interning α) (a : α) (ts : List Text) : Prop :=
  ∀ i, c.run i = (a, ts.foldl Interner.intern i)

namespace Adds

theorem pure (a : α) : Adds (Pure.pure a) a [] := fun _ => rfl

theorem bind {next : α → Interning β} (first : Adds c a ts) (second : Adds (next a) b us) :
    Adds (c >>= next) b (ts ++ us) := by
  intro i
  have step : (c >>= next).run i = (next (c.run i).1).run (c.run i).2 := rfl
  rw [step, first i, second, List.foldl_append]

/-- What is made of the result adds nothing. -/
theorem bind_pure (first : Adds c a ts) (g : α → β) : Adds (c >>= fun a => Pure.pure (g a)) (g a) ts := by
  rw [← List.append_nil ts]
  exact first.bind (pure (g a))

theorem mapM {g : α → Interning β} {h : α → β} {added : α → List Text} {l : List α}
    (each : ∀ a ∈ l, Adds (g a) (h a) (added a)) : Adds (l.mapM g) (l.map h) (l.flatMap added) := by
  induction l with
  | nil => exact pure []
  | cons a l ih =>
    rw [List.mapM_cons, List.flatMap_cons, List.map_cons]
    have later := ih fun b member => each b (List.mem_cons_of_mem a member)
    exact (each a List.mem_cons_self).bind (later.bind_pure _)

end Adds

theorem adds_keep (t : Text) : Adds (keep t) t [t] := fun _ => rfl

theorem adds_keepParameter (p : Parameter) : Adds (keepParameter p) p [p.type] := fun _ => rfl

/-- The types of a function are kept in the order of its signature, and the function is not changed. -/
theorem adds_keepFunction (f : Function) : Adds (keepFunction f) f f.types := by
  have parameters := Adds.mapM fun p (_ : p ∈ f.parameters) => adds_keepParameter p
  rw [List.map_id'] at parameters
  have types : f.types = f.parameters.flatMap (fun p => [p.type]) ++ [f.returns] := by
    rw [Function.types, List.map_eq_flatMap]
  rw [types]
  exact parameters.bind ((adds_keep f.returns).bind_pure _)

end Interning

/-- The functions of an answer. One that raises has none. -/
def returned {ε : Type} : Except ε (List Function) → List Function
  | .ok functions => functions
  | .error _ => []

/-- Whether a computation has an answer, whatever is in the table, and adds just the types of its
functions. -/
def Answers {ε : Type} (c : ExceptT ε Interning (List Function))
    (answer : Except ε (List Function)) : Prop :=
  ∀ i, c.run i = (answer, i.internAll (returned answer))

theorem Answers.lift {ε : Type} {c : Interning (List Function)} {functions : List Function}
    (adds : Interning.Adds c functions (functions.flatMap Function.types)) :
    Answers (liftM c : ExceptT ε Interning (List Function)) (.ok functions) := by
  intro i
  have step : (liftM c : ExceptT ε Interning (List Function)).run i = (.ok (c.run i).1, (c.run i).2) := rfl
  rw [step, adds i]
  rfl

theorem Answers.adapt {ε ε' : Type} {c : ExceptT ε Interning (List Function)}
    {answer : Except ε (List Function)} (answers : Answers c answer) (wrap : ε → ε') :
    Answers (c.adapt wrap) (answer.mapError wrap) := by
  intro i
  have step : (c.adapt wrap).run i = ((c.run i).1.mapError wrap, (c.run i).2) := rfl
  rw [step, answers i]
  cases answer <;> rfl

namespace Rust

open Interning Signature

variable {policy : Policy} {file : Text}

/-- A function gives its types to the table exactly when it is collected. -/
theorem adds_keepFunction_ite (dropped : Bool) (f : Function) :
    Adds (if dropped then return [] else return [← keepFunction f]) (if dropped then [] else [f])
      ((if dropped then [] else [f]).flatMap Function.types) := by
  cases dropped with
  | true => exact .pure []
  | false =>
    rw [if_neg Bool.false_ne_true, if_neg Bool.false_ne_true, List.flatMap_singleton]
    exact (adds_keepFunction f).bind_pure _

mutual

theorem adds_keepTree (scope : List Text) (owner : Option Text) (attributes : List Text) : ∀ t : Tree,
    Adds (keepTree policy file scope owner attributes t) (collect policy file scope owner attributes t)
      ((collect policy file scope owner attributes t).flatMap Function.types)
  | .leaf _ => .pure []
  | .comment _ => .pure []
  | .node kind children => by
    -- Only a function adds types itself, the other nodes leave that to what stands inside them.
    have body := fun scope owner => adds_keepBody scope owner children
    cases kind with
    | function =>
      rw [keepTree, collect]
      exact adds_keepFunction_ite _ _
    | implementation =>
      rw [keepTree, collect]
      exact body _ _
    | module =>
      rw [keepTree, collect]
      split
      · exact .pure []
      · exact body _ _
    | _ => exact .pure []

theorem adds_keepBody (scope : List Text) (owner : Option Text) : ∀ l : List Tree,
    Adds (keepBody policy file scope owner l) (collectBody policy file scope owner l)
      ((collectBody policy file scope owner l).flatMap Function.types)
  | [] => .pure []
  | t :: rest => by
    have later := adds_keepBody scope owner rest
    cases t with
    | comment text => exact later
    | leaf token => exact later
    | node kind children =>
      have here := adds_keepAll scope owner [] children
      cases kind with
      | declarations => exact here
      | _ => exact later

theorem adds_keepAll (scope : List Text) (owner : Option Text) (attributes : List Text) : ∀ l : List Tree,
    Adds (keepAll policy file scope owner attributes l) (collectAll policy file scope owner attributes l)
      ((collectAll policy file scope owner attributes l).flatMap Function.types)
  | [] => .pure []
  | .comment _ :: rest => adds_keepAll scope owner attributes rest
  | .leaf _ :: rest => adds_keepAll scope owner [] rest
  | .node kind children :: rest => by
    have here := adds_keepTree scope owner attributes (.node kind children)
    have behind := fun attributes => adds_keepAll scope owner attributes rest
    rw [collectAll, List.flatMap_append]
    exact here.bind ((behind _).bind_pure _)

end

theorem answers_keepSource (source : Text) :
    Answers (keepSource policy file source) (extract policy file source) := by
  intro i
  rw [extract, keepSource]
  cases parse source with
  | error cause => rfl
  | ok trees =>
    exact Answers.lift (adds_keepAll [] none [] trees) i

end Rust

namespace V

open Interning Signature

variable {policy : Policy} {file : Text}

/-- The function of a header, when the policy keeps it. -/
def kept? (policy : Policy) (file : Text) : Header × Text → Option Function
  | (h, rest) => if policy.retains h.name h.isPublic then functionOf? file h rest else none

theorem adds_keepHeader (entry : Header × Text) :
    Adds (keepHeader policy file entry) (kept? policy file entry)
      ((kept? policy file entry).toList.flatMap Function.types) := by
  obtain ⟨h, rest⟩ := entry
  rw [keepHeader, kept?]
  split
  · cases functionOf? file h rest with
    | none => exact .pure none
    | some f => 
      rw [Option.toList_some, List.flatMap_singleton]
      exact (adds_keepFunction f).bind_pure _
  · exact .pure none

theorem answers_keepSource (source : Text) :
    Answers (keepSource policy file source) (extract policy file source) := by
  intro i
  unfold extract keepSource
  dsimp only
  cases nestingFault? (blank source) with
  | some fault => rfl
  | none =>
    have each : ∀ entry ∈ headers (blank source), Adds (keepHeader policy file entry) _ _ :=
      fun entry _ => adds_keepHeader entry
    have found := (Adds.mapM each).bind_pure (·.filterMap id)
    rw [List.filterMap_map, Function.id_comp, ← List.flatMap_assoc,
      ← List.filterMap_eq_flatMap_toList] at found
    exact Answers.lift found i

end V

theorem Language.answers_keepSource (l : Language) (policy : Policy) (file source : Text) :
    Answers (l.keepSource policy file source) (l.extract policy file source) := by
  cases l with
  | rust => exact Rust.answers_keepSource source
  | v => exact V.answers_keepSource source

namespace ExtractionCall

/-- The answer to a call without a table. -/
def plainAnswer (c : ExtractionCall) : Except Failure (List Function) := do
  let l ← extractionLanguage c.language
  (l.extract c.policy c.file c.source).mapError (.extraction c.file)

theorem answers (c : ExtractionCall) : Answers c.answer c.plainAnswer := by
  intro i
  rw [answer, plainAnswer]
  cases extractionLanguage c.language with
  | error cause => rfl
  | ok l =>
    exact ((l.answers_keepSource c.policy c.file c.source).adapt (Failure.extraction c.file)) i

end ExtractionCall

theorem extractInSession_eq (i : Interner) (c : ExtractionCall) :
    extractInSession i c.language c.policy c.file c.source =
      c.plainAnswer.map fun functions => (functions, i.internAll functions) := by
  have step : extractInSession i c.language c.policy c.file c.source =
      (c.answer.run i).1.map fun functions => (functions, (c.answer.run i).2) := rfl
  rw [step, c.answers]
  cases c.plainAnswer <;> rfl

/-- The answers to calls that share a table, one after another. -/
def session (calls : List ExtractionCall) : Interning (List (Except Failure (List Function))) :=
  calls.mapM fun c => c.answer.run

theorem adds_session (calls : List ExtractionCall) :
    Interning.Adds (session calls) (calls.map ExtractionCall.plainAnswer)
      ((calls.map ExtractionCall.plainAnswer).flatMap fun answer =>
        (returned answer).flatMap Function.types) := by
  rw [List.flatMap_map]
  exact Interning.Adds.mapM fun c _ => c.answers

/-- After any calls the table holds the types of the functions that were returned and no others, each once.
The answers are those of calls without a table, and a call that raises leaves the table as it is. -/
theorem session_table (calls : List ExtractionCall) :
    ∃ answers table, (session calls).run {} = (answers, table) ∧
      answers = calls.map ExtractionCall.plainAnswer ∧
      (∀ t, table.contains t = true ↔
        ∃ functions, Except.ok functions ∈ answers ∧ ∃ f ∈ functions, t ∈ f.types) ∧
      table.size = ((answers.flatMap returned).flatMap Function.types).toFinset.card ∧
      ∀ (c : ExtractionCall) (e : Failure), (c.answer.run table).1 = .error e →
        (c.answer.run table).2 = table := by
  refine ⟨_, _, adds_session calls {}, rfl, ?_, ?_, ?_⟩
  · intro t
    rw [Interner.contains, List.contains_iff_mem, Interner.mem_foldl_intern]
    constructor
    · rintro (before | given)
      · cases before
      · obtain ⟨answer, listed, given⟩ := List.mem_flatMap.mp given
        cases answer with
        | error e => cases given
        | ok functions => exact ⟨functions, listed, List.mem_flatMap.mp given⟩
    · rintro ⟨functions, listed, given⟩
      exact .inr (List.mem_flatMap.mpr ⟨_, listed, List.mem_flatMap.mpr given⟩)
  · rw [Interner.size_foldl_intern, List.flatMap_assoc]
  · intro c e raised
    rw [c.answers] at raised ⊢
    rw [show c.plainAnswer = .error e from raised]
    rfl

def readCall : ExtractionCall :=
  ⟨"rust".toList, Policy.default, "a.rs".toList,
    "pub fn f(a: u8, b: i8) -> u8 \x7b\x7d fn g(a: i16) \x7b\x7d".toList⟩

def brokenCall : ExtractionCall := ⟨['V'], Policy.default, "a.v".toList, "pub fn f(a i32) \x7b".toList⟩

/-- A function that is not public gives no type to the table, and a source that is broken gives none. -/
theorem broken_session : ∃ answers table, (session [readCall, brokenCall]).run {} = (answers, table) ∧
    table.size = 2 ∧ brokenCall.plainAnswer.toOption = none ∧ (brokenCall.answer.run table).2 = table := by
  obtain ⟨answers, table, ran, same, -, size, unchanged⟩ := session_table [readCall, brokenCall]
  have types : (answers.flatMap returned).flatMap Function.types = ["u8", "i8", "u8"].map String.toList := by
    rw [same]
    decide +kernel
  obtain ⟨e, fault⟩ : ∃ e, brokenCall.plainAnswer = .error e :=
    ⟨.extraction "a.v".toList (.unclosedBracket '\x7b' 1), by decide +kernel⟩
  have raised : (brokenCall.answer.run table).1 = .error e := by rw [brokenCall.answers, fault]
  rw [types] at size
  refine ⟨answers, table, ran, size.trans (by decide), ?_, unchanged brokenCall e raised⟩
  rw [fault]
  rfl

end TestSkeleton
