import TestSkeleton.Proofs.Generation.Arity
import TestSkeleton.Proofs.Naming.Local
import TestSkeleton.Proofs.Signature.Normal
import TestSkeleton.Proofs.Table
import TestSkeleton.Proofs.V.TypeLiteral
import TestSkeleton.Suite.V
import TestSkeleton.Text.Lines

/-! The text of one test in V: what its lines hold, and that act and assertion fit together.

The return type is looked at in three places, once in normal spelling and twice as it was recorded. They
agree where the recorded type is in normal spelling. -/

namespace TestSkeleton

open Text Signature

/-- A text without line ends. -/
def Text.IsSingleLine (t : Text) : Prop := ∀ c ∈ t, isLineEnd c = false

instance (t : Text) : Decidable t.IsSingleLine := inferInstanceAs (Decidable (∀ c ∈ t, isLineEnd c = false))

theorem Text.isSingleLine_append {u v : Text} :
    (u ++ v).IsSingleLine ↔ u.IsSingleLine ∧ v.IsSingleLine :=
  List.forall_mem_append

theorem Text.IsSingleLine.subset {u v : Text} (single : v.IsSingleLine) (inside : u ⊆ v) : u.IsSingleLine :=
  fun c member => single c (inside member)

theorem Text.isBlank_of_isLineEnd {c : Char} (ends : isLineEnd c = true) : isBlank c = true := by
  simp only [isLineEnd, isBlank, Bool.or_eq_true, Bool.and_eq_true, decide_eq_true_eq, beq_iff_eq] at ends ⊢
  omega

theorem Text.trim_subset (t : Text) : trim t ⊆ t := fun _ => mem_of_mem_trim

theorem Text.isSingleLine_of_isIdentifier {t : Text} (identifier : isIdentifier t = true) : t.IsSingleLine := by
  intro c member
  have word := Naming.isWord_of_isAsciiIdentifierContinue
    (Naming.isAsciiIdentifierContinue_of_mem identifier member)
  cases ends : isLineEnd c with
  | false => rfl
  | true => rw [isWord_of_isBlank (isBlank_of_isLineEnd ends)] at word; cases word

namespace Signature

theorem eq_space_of_mem_spaceFrom {keep : Char → Char → Bool → Bool} {before : Option Char} {gap : Bool}
    {t : Text} {c : Char} (member : c ∈ spaceFrom keep before gap t) (blank : isBlank c = true) : c = ' ' := by
  induction t generalizing before gap with
  | nil => cases member
  | cons d r ih =>
    rw [spaceFrom] at member
    split at member
    · exact ih member
    · rename_i visible
      rcases List.mem_append.mp member with space | later
      · split at space
        · exact List.mem_singleton.mp space
        · cases space
      · rcases List.mem_cons.mp later with rfl | later
        · exact absurd blank visible
        · exact ih later

/-- The blanks of a normal spelling are spaces. -/
theorem isSingleLine_normalize (t : Text) : (normalize t).IsSingleLine := by
  intro c member
  cases ends : isLineEnd c with
  | false => rfl
  | true =>
    rw [normalize_eq_spaceFrom] at member
    obtain rfl := eq_space_of_mem_spaceFrom member (isBlank_of_isLineEnd ends)
    exact absurd ends (by decide)

end Signature

namespace Policy

/-- Whether every override is a literal without line ends. -/
def OverridesAreLines (p : Policy) : Prop := ∀ entry ∈ p.typeMappings, IsSingleLine entry.2

theorem OverridesAreLines.typeMapping? {p : Policy} (lines : p.OverridesAreLines) {type literal : Text}
    (known : p.typeMapping? type = some literal) : literal.IsSingleLine :=
  lines _ (Table.mem_of_lookup known)

end Policy

namespace V

theorem wrapped?_subset {type inner : Text} (wraps : wrapped? type = some inner) : inner ⊆ type := by
  obtain ⟨marker, -, found⟩ := List.exists_of_findSome?_eq_some wraps
  split at found
  · rename_i c r dropped
    cases found
    rw [dropPrefix?_eq_some.mp dropped]
    exact List.Subset.trans (trim_subset (c :: r)) (List.subset_append_right marker (c :: r))
  · cases found

theorem isSingleLine_primitive? {type literal : Text} (known : primitive? type = some literal) :
    literal.IsSingleLine := by
  have each : ∀ entry ∈ primitiveLiterals, IsSingleLine entry.2 := by decide
  rw [primitive?_eq] at known
  exact each _ (Table.mem_of_lookup known)

/-- A literal has no line ends but those of its type and of the overrides. -/
theorem isSingleLine_literalWithin {overrides : Literal.Overrides}
    (known : ∀ type literal, overrides type = some literal → literal.IsSingleLine) {level : Nat}
    {type literal : Text} (single : type.IsSingleLine)
    (made : literalWithin overrides level type = .ok literal) : literal.IsSingleLine := by
  induction level generalizing type literal with
  | zero => cases made
  | succ level ih =>
    -- What stands behind a marker has no line end that the type does not have.
    have part : ∀ {inner value : Text}, inner ⊆ type →
        literalWithin overrides level (trim inner) = .ok value → value.IsSingleLine :=
      fun inside => ih (single.subset (List.Subset.trans (trim_subset _) inside))
    rw [literalWithin.eq_def] at made
    dsimp only at made
    split at made
    · rename_i override
      cases made
      exact known _ _ override
    split at made
    · rename_i primitive
      cases made
      exact isSingleLine_primitive? primitive
    split at made
    · rename_i wraps
      exact ih (single.subset (wrapped?_subset wraps)) made
    split at made
    · rename_i c r _ _ _
      have behind : c :: r ⊆ '[' :: ']' :: c :: r := List.subset_append_right ['[', ']'] (c :: r)
      obtain ⟨value, element, made⟩ := bind_eq_ok.mp made
      have inner : value.IsSingleLine := part behind element
      split at made
      · cases made
        simp only [isSingleLine_append, inner, single.subset (List.Subset.trans (trim_subset _) behind)]
        decide
      · cases made
        simp only [isSingleLine_append, inner]
        decide
    · rename_i c r _ _ _
      have behind : c :: r ⊆ '&' :: c :: r := List.subset_cons_self '&' (c :: r)
      obtain ⟨value, target, made⟩ := bind_eq_ok.mp made
      cases made
      exact List.forall_mem_cons.mpr ⟨by decide, part behind target⟩
    · cases made
      exact isSingleLine_append.mpr ⟨single, by decide⟩

theorem isSingleLine_literal {policy : Policy} (lines : policy.OverridesAreLines) {type literal : Text}
    (made : V.literal policy.typeMapping? type = .ok literal) : literal.IsSingleLine :=
  isSingleLine_literalWithin (fun _ _ => lines.typeMapping?) (isSingleLine_normalize type) made

/-! The assertion -/

/-- The assertion that leaves failures to the act. -/
def orAssertion : Text := "// Errors and none values panic in the \x60or\x60 block above".toList

/-- What a call has behind it when a failure of the function is to end the test. -/
def orBlock : Text := " or \x7b panic(err) \x7d".toList

/-- The types of functions that give no result to a test. -/
def emptyTypes : List Text := [[], ['!'], ['?']]

theorem isSingleLine_assertion (type : Text) : (assertion type).IsSingleLine := by
  have single := isSingleLine_normalize type
  unfold assertion assertionOfNormal
  repeat' split
  all_goals first
    | decide
    | exact isSingleLine_append.mpr ⟨by decide, single⟩

/-- The fourth character tells the assertion that leaves failures to the act from a comment for the reader. -/
theorem manual_ne_orAssertion (type : Text) : Assertion.manual type ≠ orAssertion := by
  intro same
  have fourth : (Assertion.manual type)[3]? = orAssertion[3]? := congrArg (fun t => t[3]?) same
  have here : (Assertion.manual type)[3]? = some 'T' := rfl
  rw [here] at fourth
  exact absurd fourth (by decide)

theorem assertionOfNormal_eq_orAssertion_iff (type : Text) :
    assertionOfNormal type = orAssertion ↔ (startsWith ['!'] type || startsWith ['?'] type) = true := by
  by_cases marked : (startsWith ['!'] type || startsWith ['?'] type) = true
  · have filled : type.isEmpty = false := by
      cases type with
      | nil => cases marked
      | cons c r => rfl
    rw [assertionOfNormal, filled, if_neg (by decide), if_pos marked]
    exact iff_of_true rfl marked
  · refine iff_of_false (fun same => ?_) marked
    rw [assertionOfNormal, if_neg marked] at same
    repeat' split at same
    all_goals first
      | exact absurd same (by decide)
      | exact manual_ne_orAssertion type same

theorem mayFail_eq (f : Function) :
    mayFail f = (startsWith ['!'] f.returns || startsWith ['?'] f.returns) := by
  have first : ∀ (mark c : Char) (r : Text), startsWith [mark] (c :: r) = (c == mark) := by
    intro mark c r
    by_cases same : mark = c
    · simp [startsWith, dropPrefix?, same]
    · simp [startsWith, dropPrefix?, same, Ne.symm same]
  rw [mayFail]
  cases f.returns with
  | nil => rfl
  | cons c r => simp only [List.head?_cons, Option.any_some, first]

theorem returnsValue_eq_false_iff (f : Function) : returnsValue f = false ↔ f.returns ∈ emptyTypes := by
  rw [← Bool.not_eq_true]
  simp [returnsValue, emptyTypes, or_iff_not_imp_left]

/-- The assertion on nothing does not name the result. -/
theorem not_contains_result {type : Text} (empty : type ∈ emptyTypes) :
    contains "result".toList (assertionOfNormal type) = false :=
  (by decide : ∀ type ∈ emptyTypes, contains "result".toList (assertionOfNormal type) = false) type empty

/-! The call -/

/-- A call ends with the closing parenthesis of its arguments, or with the block for failures behind it. -/
theorem orBlock_suffix_call_iff (module : ModulePath) (f : Function) (arguments : List Binding) :
    orBlock <:+ call module f arguments ↔ mayFail f = true := by
  have closes : ∀ front : Text, ¬orBlock <:+ front ++ [')'] := by
    rintro front ⟨before, same⟩
    have last := congrArg List.getLast? same
    have brace : orBlock.getLast? = some '\x7d' := by decide
    rw [List.getLast?_append, List.getLast?_concat, brace, Option.some_or] at last
    exact absurd last (by decide)
  have plain : ∃ front, (if Case.isMethodCall f then Case.methodCall f (arguments.map passed)
      else qualifier module ++ f.name ++ Case.argumentList (arguments.map passed)) = front ++ [')'] := by
    split
    · exact ⟨_, by rw [Case.methodCall, Case.argumentList, ← List.append_assoc]⟩
    · exact ⟨_, by rw [Case.argumentList, ← List.append_assoc]⟩
  obtain ⟨front, plain⟩ := plain
  unfold call
  dsimp only
  rw [plain]
  split
  · rename_i fails
    exact iff_of_true (List.suffix_append _ _) fails
  · rename_i sure
    exact iff_of_false (closes front) sure

/-! The lines -/

/-- What a line of the arrange part says. -/
def arrangement (b : Binding) : Text :=
  (if b.isMutable then "mut ".toList else []) ++ b.name ++ " := ".toList ++ b.value

/-- What the act line has in front of the call. -/
def kept (c : Case) : Text := if returnsValue c.function then "result := ".toList else []

/-- The lines of a test, given what the act line has in front of the call. -/
def testLines (name bound : Text) (c : Case) : List Text :=
  [[], "fn ".toList ++ name ++ "() \x7b".toList, indent ++ "// Arrange".toList] ++
    c.locals.map (fun b => indent ++ arrangement b) ++
    [[], indent ++ "// Act".toList, indent ++ bound ++ c.call, [], indent ++ "// Assert".toList,
      indent ++ c.assertion, ['\x7d']]

theorem testBlock_eq (name : Text) (c : Case) :
    testBlock ⟨name, c⟩ = (testLines name (kept c) c).flatMap (· ++ ['\n']) := by
  have line : localLine = fun b => indent ++ arrangement b ++ ['\n'] := by
    funext b
    simp only [localLine, arrangement, List.append_assoc]
  have opening : "\nfn ".toList = ['\n'] ++ "fn ".toList := rfl
  have head : "() \x7b\n".toList = "() \x7b".toList ++ ['\n'] := rfl
  have arrange : "// Arrange\n".toList = "// Arrange".toList ++ ['\n'] := rfl
  have act : "// Act\n".toList = "// Act".toList ++ ['\n'] := rfl
  have assert : "// Assert\n".toList = "// Assert".toList ++ ['\n'] := rfl
  have gap : "\n".toList = ['\n'] := rfl
  have gaps : "\n\n".toList = ['\n'] ++ ['\n'] := rfl
  have closing : "\n\x7d\n".toList = ['\n'] ++ (['\x7d'] ++ ['\n']) := rfl
  unfold testBlock testLines
  simp only [line, kept, opening, head, arrange, act, assert, gap, gaps, closing, List.flatMap_append,
    List.flatMap_cons, List.flatMap_nil, List.flatMap_map, List.append_assoc, List.append_nil, List.nil_append]

theorem isSingleLine_arrangement {b : Binding} (name : b.name.IsSingleLine) (value : b.value.IsSingleLine) :
    (indent ++ arrangement b).IsSingleLine := by
  rw [arrangement]
  simp only [isSingleLine_append, name, value]
  cases b.isMutable <;> decide

/-- Every local of a test has a name and a literal without line ends. -/
theorem isSingleLine_local {t : Target} {f : Function} {c : Case} (v : t.dialect = .v) (fills : t.Fills f c)
    (lines : t.policy.OverridesAreLines) : ∀ b ∈ c.locals, b.name.IsSingleLine ∧ b.value.IsSingleLine := by
  intro b member
  rcases List.mem_append.mp member with receiver | argument
  · obtain ⟨named, owner, found⟩ :=
      Case.value_of_bindReceiver fills.receiver b (Option.mem_toList.mp receiver)
    refine ⟨named ▸ by decide, ?_⟩
    rcases found with known | made
    · exact lines.typeMapping? known
    · rw [v] at made
      exact isSingleLine_literal lines made
  · have named : b.name ∈ Naming.locals (f.arguments.map (·.name)) := by
      rw [← (Case.bind_eq_ok_locals fills.bindings).1]
      exact List.mem_map_of_mem argument
    refine ⟨isSingleLine_of_isIdentifier (Naming.isIdentifier_of_mem_locals named).1, ?_⟩
    obtain ⟨p, made⟩ := Case.value_of_bind fills.bindings b argument
    rw [v] at made
    exact isSingleLine_literal lines made

/-- In a test of a V function, act and assertion fit together. The result is bound unless the function has
none, and where the return type is in normal spelling the assertion speaks of the result only when it is bound,
and leaves failures to the block behind the call just when there is one. The assertion and the lines of the
arrange part have no line ends, as far as the overrides have none. -/
theorem act_fits_assertion {w : Workspace} {t : Target} {f : Function} {c : Case} (v : t.dialect = .v)
    (built : t.buildCase w f = .ok c) (name : Text) :
    ∃ bound, (bound = "result := ".toList ∨ bound = []) ∧
      testBlock ⟨name, c⟩ = (testLines name bound c).flatMap (· ++ ['\n']) ∧
      (bound = [] ↔ f.returns ∈ emptyTypes) ∧
      c.assertion.IsSingleLine ∧
      (t.policy.OverridesAreLines → ∀ b ∈ c.locals, (indent ++ arrangement b).IsSingleLine) ∧
      (normalize f.returns = f.returns →
        (contains "result".toList c.assertion = true → bound = "result := ".toList) ∧
        (orBlock <:+ c.call ↔ c.assertion = orAssertion)) := by
  have fills := Target.fills_of_buildCase built
  have called := (Target.builds_of_buildCase built).call
  have asserted := fills.assertion
  rw [v] at called asserted
  have binds : kept c = [] ↔ f.returns ∈ emptyTypes := by
    rw [← returnsValue_eq_false_iff, kept, fills.function]
    cases returnsValue f <;> simp
  have either : kept c = "result := ".toList ∨ kept c = [] := by
    rw [kept]
    split
    · exact .inl rfl
    · exact .inr rfl
  refine ⟨kept c, either, testBlock_eq name c, binds, ?_, ?_, fun normal => ⟨fun speaks => ?_, ?_⟩⟩
  · exact asserted ▸ isSingleLine_assertion f.returns
  · intro lines b member
    obtain ⟨single, value⟩ := isSingleLine_local v fills lines b member
    exact isSingleLine_arrangement single value
  · refine either.resolve_right fun none => ?_
    have silent := not_contains_result (binds.mp none)
    rw [asserted, Dialect.assertion, assertion, normal, silent] at speaks
    cases speaks
  · rw [called, asserted]
    simp only [Dialect.call, Dialect.assertion, assertion, normal]
    rw [orBlock_suffix_call_iff, assertionOfNormal_eq_orAssertion_iff, mayFail_eq]

/-- A method that can fail, with a mutable argument. -/
def fallible : Function :=
  { name := "fill".toList
    parameters := [⟨"self".toList, "&mut Self".toList⟩, ⟨"xs".toList, "mut []int".toList⟩]
    returns := "!string".toList
    file := "/p/src/a.v".toList
    owner := some "Box".toList }

def fallibleTarget : Target :=
  ⟨⟨.slash, [['p']]⟩, { Policy.default with typeMappings := [("Box".toList, "new_box()".toList)] }, .v⟩

theorem fallible_fits : ∃ c bound, fallibleTarget.buildCase {} fallible = .ok c ∧
    normalize fallible.returns = fallible.returns ∧ fallibleTarget.policy.OverridesAreLines ∧
    c.locals.map arrangement = ["mut instance := new_box()", "mut xs := [0]"].map String.toList ∧
    bound = "result := ".toList ∧ orBlock <:+ c.call ∧ c.assertion = orAssertion ∧
    (∀ b ∈ c.locals, (indent ++ arrangement b).IsSingleLine) ∧
    testBlock ⟨"test".toList, c⟩ = (testLines "test".toList bound c).flatMap (· ++ ['\n']) := by
  have ends : (fallibleTarget.buildCase {} fallible).toOption.any (fun c => c.locals.map arrangement ==
      ["mut instance := new_box()", "mut xs := [0]"].map String.toList && c.assertion == orAssertion) = true := by
    decide +kernel
  obtain ⟨c, built, shape⟩ := exists_ok_of_toOption ends
  simp only [Bool.and_eq_true, beq_iff_eq] at shape
  have normal : normalize fallible.returns = fallible.returns := by decide +kernel
  have lines : fallibleTarget.policy.OverridesAreLines := List.forall_mem_singleton.mpr (by decide)
  obtain ⟨bound, either, block, binds, -, arranged, fits⟩ :=
    act_fits_assertion (f := fallible) rfl built "test".toList
  have filled : bound ≠ [] := fun none => absurd (binds.mp none) (by decide)
  exact ⟨c, bound, built, normal, lines, shape.1, either.resolve_right filled, (fits normal).2.mpr shape.2,
    shape.2, arranged lines, block⟩

end V

end TestSkeleton
