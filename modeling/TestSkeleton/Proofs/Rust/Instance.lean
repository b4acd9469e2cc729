import TestSkeleton.Proofs.Extraction.NormalTypes
import TestSkeleton.Proofs.Generation.BuiltCase
import TestSkeleton.Proofs.Rust.TypeRules

/-! The instance that a method is called on.

The full path of the owner is given to the rules for types, which see no more of a path than its last
segment. So a type of the project with the name of a library type is given an instance of the other one. -/

namespace TestSkeleton

open Text Signature

namespace Crate

/-- The characters of a crate's name belong to words. -/
theorem isWord_identifier (name : Text) : ∀ c ∈ identifier name, isWord c = true := by
  unfold identifier
  split
  · decide
  · intro c member
    obtain ⟨d, -, rfl⟩ := List.mem_map.mp member
    split
    · assumption
    · decide

theorem identifier_ne_nil (name : Text) : identifier name ≠ [] := by
  unfold identifier
  split
  · decide
  · rename_i filled
    simpa using filled

end Crate

namespace Rust

open TypeTerm

/-- The default value of the type of a path. -/
def defaultOf (path : Text) : Text := path ++ "::default()".toList

/-- Whether the rules read the path of a type as that type: nothing of its spelling changes, it has no
arguments, and the segment before its first bracket is capitalized and not that of a library type.
With a bracket behind it only one library type is known. -/
structure IsReadAsOwn (path : Text) : Prop where
  normal : normalize path = path
  plain : '<' ∉ path
  nominal : isNominal path = true
  unlisted : (wellKnownTypes.lookup (lastSegment (baseName path))).isSome = true →
    '[' ∈ path ∧ lastSegment (baseName path) ≠ "DateTime".toList

theorem baseName_eq_self_iff {path : Text} (trimmed : trim path = path) (plain : '<' ∉ path) :
    baseName path = path ↔ '[' ∉ path := by
  constructor
  · intro whole bracket
    have taken := mem_of_mem_trim (baseName_eq_trim_takeWhile path ▸ whole.symm ▸ bracket)
    exact absurd (List.mem_takeWhile_imp taken) (by decide)
  · intro absent
    have clean : ∀ c ∈ path, c ≠ '<' ∧ c ≠ '[' := fun c member =>
      ⟨fun same => plain (same ▸ member), fun same => absent (same ▸ member)⟩
    have run := baseName_run clean (by simp : ∀ c ∈ ([] : Text).head?, c = '<' ∨ c = '[') trimmed
    rwa [List.append_nil] at run

theorem libraryLiteral?_eq_none_iff {u : Text} : libraryLiteral? u = none ↔
    ((wellKnownTypes.lookup (lastSegment (baseName u))).isSome = true →
      baseName u ≠ u ∧ lastSegment (baseName u) ≠ "DateTime".toList) := by
  unfold libraryLiteral?
  dsimp only
  cases wellKnownTypes.lookup (lastSegment (baseName u)) with
  | none => simp
  | some literal =>
    dsimp only
    rw [Option.isSome_some]
    constructor
    · intro unknown _
      by_contra known
      rw [if_neg known] at unknown
      split at unknown <;> cases unknown
    · exact fun other => if_pos (other rfl)

/-- No literal of a library type is a default value. -/
theorem defaultOf_not_mem_libraryLiterals (path : Text) : defaultOf path ∉ libraryLiterals := by
  have ends : ∀ literal ∈ libraryLiterals, dropSuffix? "::default()".toList literal = none := by
    decide +kernel
  intro member
  have same := dropSuffix?_eq_some.mpr (rfl : defaultOf path = path ++ "::default()".toList)
  rw [ends _ member] at same
  cases same

/-- A path that begins with the name of a crate. -/
structure BeginsInCrate (crateName path : Text) : Prop where
  filled : crateName ≠ []
  words : ∀ c ∈ crateName, isWord c = true
  shape : ∃ rest, path = crateName ++ "::".toList ++ rest

namespace BeginsInCrate

variable {crateName path : Text}

theorem head (begins : BeginsInCrate crateName path) : ∃ c ∈ path.head?, isWord c = true := by
  obtain ⟨filled, words, rest, rfl⟩ := begins
  obtain ⟨c, r, rfl⟩ := List.exists_cons_of_ne_nil filled
  exact ⟨c, rfl, words c List.mem_cons_self⟩

theorem head_ne (begins : BeginsInCrate crateName path) {mark : Char} (other : isWord mark = false) :
    ∀ c ∈ path.head?, c ≠ mark := by
  obtain ⟨d, first, word⟩ := begins.head
  rintro c found rfl
  obtain rfl : d = c := Option.some.inj (first.symm.trans found)
  rw [other] at word
  cases word

theorem colon_mem (begins : BeginsInCrate crateName path) : ':' ∈ path := by
  obtain ⟨-, -, rest, rfl⟩ := begins
  simp

/-- The name of the crate stands in front of the path in normal spelling, too. -/
theorem normalize (begins : BeginsInCrate crateName path) :
    BeginsInCrate crateName (Signature.normalize path) := by
  obtain ⟨filled, words, rest, rfl⟩ := begins
  refine ⟨filled, words, spaceFrom spacing (some ':') false rest, ?_⟩
  obtain ⟨c, r, rfl⟩ := List.exists_cons_of_ne_nil filled
  have clean : ∀ d ∈ c :: (r ++ "::".toList), isBlank d = false ∧ d ≠ ',' := by
    rw [← List.cons_append]
    intro d member
    rcases List.mem_append.mp member with word | colon
    · refine ⟨not_blank_of_isWord (words d word), ?_⟩
      rintro rfl
      exact absurd (words ',' word) (by decide)
    · exact (by decide : ∀ d ∈ "::".toList, isBlank d = false ∧ d ≠ ',') d colon
  have settled := Settles.solid clean (z := ':') (by
    rw [← List.cons_append, List.getLast?_append]
    rfl)
  rw [normalize_eq_spaceFrom]
  simpa using settled.spell none false rest

/-- Such a path is no wrapper, whatever the crate is called. -/
theorem stripGeneric?_eq_none (begins : BeginsInCrate crateName path) (trimmed : trim path = path)
    {outer : Text} (listed : outer ∈ wrapperNames) : stripGeneric? path outer = none := by
  obtain ⟨filled, words, rest, rfl⟩ := begins
  have outers : ∀ c ∈ outer, isWord c = true :=
    (by decide : ∀ w ∈ wrapperNames, ∀ c ∈ w, isWord c = true) outer listed
  have apart : dropPrefix? (outer ++ ['<']) (crateName ++ ("::".toList ++ rest)) = none := by
    rw [dropPrefix?_marked isWord outers words (by decide) (by simp; decide)]
    split <;> rfl
  rw [List.append_assoc] at trimmed ⊢
  simp only [stripGeneric?, trimmed, apart]

/-- Of the rules only the first and the last know such a path. -/
theorem literalWithin_eq (begins : BeginsInCrate crateName path) (trimmed : trim path = path)
    {overrides : Literal.Overrides} (free : overrides path = none) (level : Nat) :
    literalWithin overrides (level + 1) path =
      .ok ((libraryLiteral? path).getD ((nominal? path).getD fallback)) := by
  rw [← wellKnown?_eq (begins.head_ne (by decide))]
  refine literalWithin_unwrapped free (fun c found listed => ?_) begins.colon_mem (by decide)
    (fun outer listed => begins.stripGeneric?_eq_none trimmed listed) level
  have marks : ∀ mark ∈ ['&', '(', '['], isWord mark = false := by decide
  exact begins.head_ne (marks c listed) c found rfl

theorem value_iff (begins : BeginsInCrate crateName path) :
    (libraryLiteral? (Signature.normalize path)).getD
        ((nominal? (Signature.normalize path)).getD fallback) = defaultOf path ↔ IsReadAsOwn path := by
  constructor
  · intro same
    cases known : libraryLiteral? (Signature.normalize path) with
    | some literal =>
      rw [known, Option.getD_some] at same
      exact absurd (same ▸ mem_libraryLiterals known) (defaultOf_not_mem_libraryLiterals path)
    | none =>
      rw [known, Option.getD_none, nominal?] at same
      split at same
      · rename_i nominal
        split at same
        · -- The generic form begins with an angle, the path with the name of the crate.
          obtain ⟨c, first, word⟩ := begins.head
          have start := congrArg List.head? same
          rw [defaultOf, List.head?_append, Option.mem_def.mp first] at start
          obtain rfl : '<' = c := Option.some.inj start
          exact absurd word (by decide)
        · rename_i plain
          have normal : Signature.normalize path = path := List.append_cancel_right same
          rw [normal] at nominal plain known
          refine ⟨normal, plain, nominal, fun listed => ?_⟩
          obtain ⟨apart, other⟩ := libraryLiteral?_eq_none_iff.mp known listed
          refine ⟨?_, other⟩
          by_contra absent
          exact apart ((baseName_eq_self_iff (trim_eq_of_normal normal) plain).mpr absent)
      · -- The general default has no path in it.
        have short : "Default".toList = path := List.append_cancel_right (same : "Default".toList ++ _ = _)
        exact absurd (short ▸ begins.colon_mem) (by decide)
  · intro own
    have trimmed := trim_eq_of_normal own.normal
    have unknown : libraryLiteral? path = none := by
      refine libraryLiteral?_eq_none_iff.mpr fun listed => ?_
      obtain ⟨bracket, other⟩ := own.unlisted listed
      exact ⟨fun whole => (baseName_eq_self_iff trimmed own.plain).mp whole bracket, other⟩
    rw [own.normal, unknown, nominal?, if_pos own.nominal, if_neg own.plain]
    rfl

end BeginsInCrate

/-- The full path of a name begins in the crate and ends with the name. -/
theorem beginsInCrate_qualified {crate : Crate} {name : Text} (named : crate.name = Crate.identifier name)
    (module : ModulePath) (owner : Text) : BeginsInCrate crate.name (qualified crate module owner) where
  filled := named ▸ Crate.identifier_ne_nil name
  words := named ▸ Crate.isWord_identifier name
  shape := by
    rw [qualified, join_append_singleton]
    exact ⟨module.flatMap (· ++ "::".toList) ++ owner, by simp⟩

theorem exists_front_qualified (crate : Crate) (module : ModulePath) (owner : Text) :
    ∃ front, qualified crate module owner = front ++ "::".toList ++ owner := by
  rw [qualified, join_append_singleton]
  rcases List.eq_nil_or_concat ([crate.name] ++ module) with none | ⟨around, last, shape⟩
  · cases none
  · exact ⟨around.flatMap (· ++ "::".toList) ++ last, by rw [shape]; simp⟩

/-- Whether the names of a module have none of the marks that change how a path is read. -/
def IsPlainModule (module : ModulePath) : Prop :=
  ∀ part ∈ module, ∀ c ∈ part, isBlank c = false ∧ c ∉ [',', '<', '[']

section Plain

variable {crate : Crate} {name : Text} {module : ModulePath} (owner : TypeName)
  (named : crate.name = Crate.identifier name) (plain : IsPlainModule module)

include named plain

theorem qualified_clean :
    ∀ c ∈ qualified crate module owner.text, isBlank c = false ∧ c ∉ [',', '<', '['] := by
  intro c member
  rw [qualified, join_append_singleton] at member
  have colons : ∀ d ∈ "::".toList, isBlank d = false ∧ d ∉ [',', '<', '['] := by decide
  rcases List.mem_append.mp member with front | last
  · obtain ⟨part, listed, inside⟩ := List.mem_flatMap.mp front
    rcases List.mem_append.mp inside with inside | colon
    · rcases List.mem_append.mp listed with isCrate | inModule
      · rw [List.mem_singleton.mp isCrate, named] at inside
        have word := Crate.isWord_identifier name c inside
        have marks : ∀ mark ∈ [',', '<', '['], isWord mark = false := by decide
        refine ⟨not_blank_of_isWord word, fun listed => ?_⟩
        rw [marks c listed] at word
        cases word
      · exact plain part inModule c inside
    · exact colons c colon
  · have letter := owner.isNameChar c last
    exact ⟨solid_of_isNameChar letter, not_mem_of_isNameChar [',', '<', '['] (by decide) letter⟩

theorem not_mem_qualified {mark : Char} (listed : mark ∈ [',', '<', '[']) :
    mark ∉ qualified crate module owner.text :=
  fun member => (qualified_clean owner named plain mark member).2 listed

theorem normalize_qualified :
    normalize (qualified crate module owner.text) = qualified crate module owner.text := by
  have clean := qualified_clean owner named plain
  obtain ⟨c, first, -⟩ := (beginsInCrate_qualified named module owner.text).head
  obtain ⟨r, shape⟩ := List.head?_eq_some_iff.mp first
  rw [shape] at clean ⊢
  have solid : ∀ d ∈ c :: r, isBlank d = false ∧ d ≠ ',' := fun d member =>
    ⟨(clean d member).1, fun same => (clean d member).2 (by simp [same])⟩
  exact (Settles.solid solid (List.getLast?_eq_getLast_of_ne_nil (List.cons_ne_nil c r))).normalize_eq

theorem lastSegment_qualified :
    baseName (qualified crate module owner.text) = qualified crate module owner.text ∧
      lastSegment (qualified crate module owner.text) = owner.text := by
  constructor
  · have trimmed := trim_eq_of_normal (normalize_qualified owner named plain)
    exact (baseName_eq_self_iff trimmed (not_mem_qualified owner named plain (by decide))).mpr
      (not_mem_qualified owner named plain (by decide))
  · obtain ⟨front, shape⟩ := exists_front_qualified crate module owner.text
    rw [shape]
    exact lastSegment_separated front fun colon =>
      not_mem_of_isNameChar [':'] (by decide) (owner.isNameChar ':' colon) (by simp)

/-- In a plain module every capitalized name but those of the library types is read as its own. -/
theorem isReadAsOwn_qualified (capital : isCapitalized owner.text = true) :
    IsReadAsOwn (qualified crate module owner.text) ↔ wellKnownTypes.lookup owner.text = none := by
  obtain ⟨whole, last⟩ := lastSegment_qualified owner named plain
  constructor
  · intro own
    cases known : wellKnownTypes.lookup owner.text with
    | none => rfl
    | some literal =>
      have bracket := (own.unlisted (by rw [whole, last, known]; rfl)).1
      exact absurd bracket (not_mem_qualified owner named plain (by decide))
  · intro unknown
    refine ⟨normalize_qualified owner named plain, not_mem_qualified owner named plain (by decide), ?_, ?_⟩
    · rw [isNominal, whole, last]
      exact capital
    · intro listed
      rw [whole, last, unknown] at listed
      cases listed

theorem libraryLiteral?_qualified (listed : (wellKnownTypes.lookup owner.text).isSome = true) :
    (libraryLiteral? (qualified crate module owner.text)).isSome = true := by
  obtain ⟨whole, last⟩ := lastSegment_qualified owner named plain
  rw [Option.isSome_iff_ne_none, Ne, libraryLiteral?_eq_none_iff, whole, last]
  exact fun unknown => (unknown listed).1 rfl

end Plain

/-- The instance of a method is bound to a literal that is always found and the call is made on it. It is the
default value of the owner's own type exactly where the path of the owner is read as that type. In a plain
module that is so for every owner but those called like a library type, which get its literal. -/
theorem instance_of_owner {w : Workspace} {t : Target} {f : Function} {crate : Crate} {name : Text}
    {receiver : Parameter} {owner : TypeName} {module : ModulePath} (dialect : t.dialect = .rust crate)
    (named : crate.name = Crate.identifier name) (takes : f.receiver? = some receiver)
    (owned : f.owner = some owner.text) (capital : isCapitalized owner.text = true)
    (found : t.moduleOf w f = .ok module) (free : t.policy.typeMapping? owner.text = none)
    (pathFree : t.policy.typeMapping? (qualified crate module owner.text) = none) :
    ∃ value, literal t.policy.typeMapping? (qualified crate module owner.text) = .ok value ∧
      (value = defaultOf (qualified crate module owner.text) ↔
        IsReadAsOwn (qualified crate module owner.text)) ∧
      (IsPlainModule module →
        (wellKnownTypes.lookup owner.text = none →
          value = defaultOf (qualified crate module owner.text)) ∧
        ((wellKnownTypes.lookup owner.text).isSome = true → value ∈ libraryLiterals)) ∧
      ∀ c, t.buildCase w f = .ok c → c.module = module ∧
        c.receiver = some ⟨Case.instanceName, value, Case.takesMutably receiver⟩ ∧
        c.call = Case.methodCall f (c.bindings.map (·.name)) ++
          if f.isAsync then ".await".toList else [] := by
  have begins := beginsInCrate_qualified named module owner.text
  have trimmed := trim_eq_of_normal (normalize_normalize (qualified crate module owner.text))
  have ownerName : f.namedOwner? = some owner.text := by
    have filled : owner.text ≠ [] := by
      intro none
      rw [none] at capital
      cases capital
    simp [Function.namedOwner?, owned, filled]
  have value : literal t.policy.typeMapping? (qualified crate module owner.text) = .ok _ :=
    begins.normalize.literalWithin_eq trimmed ((t.policy.typeMapping?_normalize _).trans pathFree) 32
  refine ⟨_, value, begins.value_iff, fun plain => ⟨fun unknown => ?_, fun listed => ?_⟩, ?_⟩
  · exact begins.value_iff.mpr ((isReadAsOwn_qualified owner named plain capital).mpr unknown)
  · have library := libraryLiteral?_qualified owner named plain listed
    obtain ⟨literal, known⟩ := Option.isSome_iff_exists.mp library
    rw [normalize_qualified owner named plain, known]
    exact mem_libraryLiterals known
  · intro c built
    have builds := Target.builds_of_buildCase built
    obtain rfl : c.module = module := Except.ok.inj (builds.module.symm.trans found)
    refine ⟨rfl, ?_, ?_⟩
    · have bound := (Target.fills_of_buildCase built).receiver
      simp only [Case.bindReceiver, takes, ownerName, free, dialect, Dialect.ownerLiteral, value] at bound
      exact (Except.ok.inj bound).symm
    · have method : Case.isMethodCall f = true := by simp [Case.isMethodCall, takes, ownerName]
      rw [builds.call, dialect, Dialect.call, call, if_pos method]
      split <;> simp

def identitySource : Text :=
  ("pub mod ids \x7b pub struct Counter; impl Counter \x7b pub fn bump(&mut self) \x7b\x7d \x7d " ++
    "pub struct Uuid; impl Uuid \x7b pub fn text(&self) \x7b\x7d \x7d \x7d").toList

def identityMethod (owner name receiver : String) : Function :=
  { name := name.toList
    parameters := [⟨"self".toList, receiver.toList⟩]
    returns := "()".toList
    file := "/p/src/lib.rs".toList
    owner := some owner.toList
    scope := ["ids".toList] }

def demoTarget : Target := ⟨⟨.slash, [['p']]⟩, Policy.default, .rust ⟨"demo".toList, none⟩⟩

/-- A counter is its own, an identifier of the project is made by the library. -/
theorem uuid_instance :
    extract Policy.default "/p/src/lib.rs".toList identitySource =
      .ok [identityMethod "Counter" "bump" "&mut Self", identityMethod "Uuid" "text" "&Self"] ∧
    (∃ c, demoTarget.buildCase {} (identityMethod "Counter" "bump" "&mut Self") = .ok c ∧
      c.receiver = some ⟨"instance".toList, "demo::ids::Counter::default()".toList, true⟩ ∧
      c.call = "instance.bump()".toList) ∧
    ∃ c value, demoTarget.buildCase {} (identityMethod "Uuid" "text" "&Self") = .ok c ∧
      c.receiver = some ⟨"instance".toList, value, false⟩ ∧ c.call = "instance.text()".toList ∧
      value ∈ libraryLiterals ∧ value ≠ "demo::ids::Uuid::default()".toList := by
  have named : "demo".toList = Crate.identifier "demo".toList := by decide
  have plain : IsPlainModule ["ids".toList] := by
    intro part listed
    rw [List.mem_singleton.mp listed]
    decide
  refine ⟨by decide +kernel, ?_, ?_⟩
  · have owned : (identityMethod "Counter" "bump" "&mut Self").owner =
        some (TypeName.text ⟨"Counter".toList, by decide, by decide⟩) := rfl
    have found : demoTarget.moduleOf {} (identityMethod "Counter" "bump" "&mut Self") =
        .ok ["ids".toList] := by
      decide +kernel
    have ends : (demoTarget.buildCase {} (identityMethod "Counter" "bump" "&mut Self")).toOption.any
        (fun c => c.bindings == []) = true := by decide +kernel
    obtain ⟨c, built, bindings⟩ := exists_ok_of_toOption ends
    obtain ⟨value, -, -, read, cases⟩ := instance_of_owner (t := demoTarget)
      (f := identityMethod "Counter" "bump" "&mut Self")
      rfl named rfl owned (by decide) found (by decide) (by decide)
    obtain ⟨-, receiver, made⟩ := cases c built
    rw [beq_iff_eq.mp bindings] at made
    rw [(read plain).1 (by decide)] at receiver
    exact ⟨c, built, receiver, made⟩
  · have owned : (identityMethod "Uuid" "text" "&Self").owner =
        some (TypeName.text ⟨"Uuid".toList, by decide, by decide⟩) := rfl
    have found : demoTarget.moduleOf {} (identityMethod "Uuid" "text" "&Self") =
        .ok ["ids".toList] := by
      decide +kernel
    have ends : (demoTarget.buildCase {} (identityMethod "Uuid" "text" "&Self")).toOption.any
        (fun c => c.bindings == []) = true := by decide +kernel
    obtain ⟨c, built, bindings⟩ := exists_ok_of_toOption ends
    obtain ⟨value, -, own, read, cases⟩ := instance_of_owner (t := demoTarget)
      (f := identityMethod "Uuid" "text" "&Self")
      rfl named rfl owned (by decide) found (by decide) (by decide)
    obtain ⟨-, receiver, made⟩ := cases c built
    rw [beq_iff_eq.mp bindings] at made
    have library := (read plain).2 (by decide)
    refine ⟨c, value, built, receiver, made, library, ?_⟩
    rintro rfl
    exact defaultOf_not_mem_libraryLiterals "demo::ids::Uuid".toList library

end Rust

end TestSkeleton
