import TestSkeleton.Policy
import TestSkeleton.Proofs.Rust.LayerLiteral

/-! The literal of a Rust type is found by recursion over the type. -/

namespace TestSkeleton.Rust

open Text Signature TypeTerm

theorem TypeTerm.isTarget (t : TypeTerm) : IsTarget t.normal where
  quote c found := by
    rintro rfl
    exact not_mem_quote t.typeText (List.mem_of_head? found)
  notMut := t.dropPrefix?_mut

def TypeTerm.piece (t : TypeTerm) : Piece := ⟨t.normal, t.typeText.isPiece⟩

section Rules

variable {overrides : Literal.Overrides} (level : Nat)

theorem literalWithin_name (n : TypeName) (free : overrides n.text = none) :
    literalWithin overrides (level + 1) n.text = .ok (nameLiteral n.text) := by
  have names := n.isNameChar
  have first : ∀ mark ∈ ['(', '[', '&'], ∀ c ∈ n.text.head?, c ≠ mark := by
    rintro mark listed c found rfl
    exact not_mem_of_isNameChar ['(', '[', '&'] (by decide) (names c (List.mem_of_head? found)) listed
  rw [literalWithin]
  simp only [free, wellKnown?_names n.ne_nil names, primitive?_names n.ne_nil names,
    stripGeneric?_names n.ne_nil names, referenceParts?_eq_none (first '&' (by simp)),
    enclosed?_eq_none (first '(' (by simp)), enclosed?_eq_none (first '[' (by simp)),
    nominal?_names names, nameLiteral]
  cases wellKnownTypes.lookup n.text with
  | some literal => rfl
  | none =>
    cases primitiveLiterals.lookup n.text with
    | some literal => rfl
    | none =>
      simp only [Option.or_none, Option.getD_none]
      split <;> rfl

theorem literalWithin_unit (free : overrides unit.normal = none) :
    literalWithin overrides (level + 1) unit.normal = .ok ['(', ')'] := by
  have known : wellKnown? unit.normal = none := by decide
  have primitive : primitive? unit.normal = some ['(', ')'] := by decide
  rw [literalWithin]
  simp only [free, known, primitive]

theorem literalWithin_generic (n : TypeName) (plain : n.text ∉ wrapperNames)
    (arguments : List TypeTerm) (free : overrides (generic n plain arguments).normal = none) :
    literalWithin overrides (level + 1) (generic n plain arguments).normal =
      .ok (genericLiteral n.text (generic n plain arguments).normal) := by
  have type := (generic n plain arguments).typeText
  simp only [wrapperNames, List.mem_cons, List.not_mem_nil, or_false, not_or] at plain
  obtain ⟨notOption, notResult, notVec⟩ := plain
  simp only [normal, spelled, applied_eq] at type free ⊢
  rw [literalWithin_applied level n.isNameChar n.ne_nil type.isPiece.trimmed free, if_neg (Ne.symm notOption),
    if_neg (Ne.symm notResult), if_neg (Ne.symm notVec)]

/-- A reference to one of two names is read as one name. -/
theorem literalWithin_borrowed {t : TypeTerm} {literal : Text} (known : borrowedLiteral? t = some literal)
    (free : overrides (reference t).normal = none) :
    literalWithin overrides (level + 1) (reference t).normal = .ok literal := by
  cases t with
  | name n =>
    have shape : (reference (name n)).normal = '&' :: n.text := rfl
    rw [shape] at free ⊢
    rw [borrowedLiteral?] at known
    split at known
    · rename_i text
      obtain rfl := Option.some.inj known
      have unknown : wellKnown? ('&' :: "str".toList) = none := by decide
      have primitive : primitive? ('&' :: "str".toList) = some "\"test\"".toList := by decide
      rw [text] at free ⊢
      rw [literalWithin]
      simp only [free, unknown, primitive]
    · split at known
      · rename_i path
        obtain rfl := Option.some.inj known
        have wellKnown : wellKnown? ('&' :: "Path".toList) =
            some "std::path::Path::new(\".\")".toList := by decide
        rw [path] at free ⊢
        rw [literalWithin]
        simp only [free, wellKnown]
      · cases known
  | _ => cases known

/-- Any other reference is not spelled like one of the two. -/
theorem ne_of_borrowedLiteral?_eq_none {t : TypeTerm} (unknown : borrowedLiteral? t = none) {key : Text}
    (names : ∀ c ∈ key, isNameChar c = true) (listed : key ∈ ["str".toList, "Path".toList]) :
    (reference t).normal ≠ '&' :: key := by
  intro same
  have text : t.normal = key := List.tail_eq_of_cons_eq same
  obtain ⟨n, rfl⟩ := eq_name (text ▸ names)
  have named : n.text = key := text
  rw [borrowedLiteral?, named] at unknown
  simp only [List.mem_cons, List.not_mem_nil, or_false] at listed
  rcases listed with rfl | rfl
  · rw [if_pos rfl] at unknown
    cases unknown
  · rw [if_neg (by decide), if_pos rfl] at unknown
    cases unknown

theorem literalWithin_reference {t : TypeTerm} (unknown : borrowedLiteral? t = none)
    (free : overrides (reference t).normal = none) :
    literalWithin overrides (level + 1) (reference t).normal =
      (literalWithin overrides level t.normal).map borrowLiteral := by
  have notPath : (reference t).normal ≠ '&' :: "Path".toList :=
    ne_of_borrowedLiteral?_eq_none unknown (by decide) (by simp)
  have text : "&str".toList = '&' :: "str".toList := by decide
  have notText : (reference t).normal ≠ "&str".toList :=
    text ▸ ne_of_borrowedLiteral?_eq_none unknown (by decide) (by simp)
  have notKnown := wellKnown?_marked (not_mem_colon (reference t).typeText) ⟨'&', rfl, by simp⟩ notPath
  exact literalWithin_wrapper level .reference t.typeText.isPiece t.isTarget free notKnown notText

theorem literalWithin_mutableReference (t : TypeTerm)
    (free : overrides (mutableReference t).normal = none) :
    literalWithin overrides (level + 1) (mutableReference t).normal =
      (literalWithin overrides level t.normal).map mutableBorrowLiteral := by
  have space : ' ' ∈ (mutableReference t).normal := List.mem_append_left _ (by simp)
  have notPath : (mutableReference t).normal ≠ '&' :: "Path".toList :=
    fun same => absurd (same ▸ space) (by decide)
  have notText : (mutableReference t).normal ≠ "&str".toList :=
    fun same => absurd (same ▸ space) (by decide)
  have notKnown := wellKnown?_marked (not_mem_colon (mutableReference t).typeText) ⟨'&', rfl, by simp⟩
    notPath
  exact literalWithin_wrapper level .mutableReference t.typeText.isPiece t.isTarget free notKnown notText

theorem literalWithin_tuple (t : TypeTerm) (ts : List TypeTerm)
    (free : overrides (tuple t ts).normal = none) :
    literalWithin overrides (level + 1) (tuple t ts).normal =
      (((t :: ts).map normal).mapM (literalWithin overrides level)).map (tupleText []) := by
  have shape : (tuple t ts).normal = tupleText [' '] ((t :: ts).map normal) := by
    simp [normal, spelled, spelledAll_eq_map]
    rfl
  have pieces : ∀ u ∈ (t :: ts).map normal, IsPiece u := by
    intro u member
    obtain ⟨v, -, rfl⟩ := List.mem_map.mp member
    exact v.typeText.isPiece
  have head : (tuple t ts).normal.head? = some '(' := by rw [shape, head?_tupleText]
  have notPath : (tuple t ts).normal ≠ '&' :: "Path".toList := fun same => by simp [same] at head
  have notKnown := wellKnown?_marked (not_mem_colon (tuple t ts).typeText) ⟨'(', head, by simp⟩ notPath
  rw [shape] at free notKnown ⊢
  exact literalWithin_tupleText level (by simp) pieces free notKnown

end Rules

namespace TypeTerm

variable {overrides : Table Text Text}

theorem values_eq_map (ts : List TypeTerm) : values overrides ts = ts.map (value overrides) := by
  induction ts with
  | nil => rfl
  | cons t ts ih => simp [values, ih]

theorem visitedDepth_le_all {ts : List TypeTerm} {t : TypeTerm} (member : t ∈ ts) :
    visitedDepth overrides t ≤ visitedDepthAll overrides ts := by
  induction ts with
  | nil => cases member
  | cons u ts ih =>
    rw [visitedDepthAll]
    rcases List.mem_cons.mp member with rfl | later
    · exact Nat.le_max_left _ _
    · exact Nat.le_trans (ih later) (Nat.le_max_right _ _)

/-- Some part is as deep as all of them. -/
theorem exists_visitedDepth_eq_all (overrides : Table Text Text) (t : TypeTerm) (ts : List TypeTerm) :
    ∃ u ∈ t :: ts, visitedDepth overrides u = visitedDepthAll overrides (t :: ts) := by
  induction ts generalizing t with
  | nil => exact ⟨t, by simp, by simp [visitedDepthAll]⟩
  | cons v ts ih =>
    obtain ⟨u, member, deep⟩ := ih v
    rw [visitedDepthAll]
    rcases Nat.le_total (visitedDepth overrides t) (visitedDepthAll overrides (v :: ts)) with le | le
    · exact ⟨u, List.mem_cons_of_mem t member, by rw [deep, Nat.max_eq_right le]⟩
    · exact ⟨t, by simp, by rw [Nat.max_eq_left le]⟩

theorem value_of_override {t : TypeTerm} {literal : Text}
    (known : override? overrides t = some literal) : value overrides t = literal := by
  cases t <;> rw [value, known, Option.getD_some]

theorem visitedDepth_of_override {t : TypeTerm} {literal : Text}
    (known : override? overrides t = some literal) : visitedDepth overrides t = 0 := by
  cases t <;> simp [visitedDepth, known]

end TypeTerm

section Recursion

variable {table : Table Text Text} {overrides : Literal.Overrides}

/-- A type whose override is looked up in `table`, or whose literal is found without it. -/
theorem finds_unless {t : TypeTerm} (agree : overrides t.normal = override? table t)
    (found : override? table t = none →
      Finds overrides t.normal (visitedDepth table t) (value table t)) :
    Finds overrides t.normal (visitedDepth table t) (value table t) := by
  cases known : override? table t with
  | none => exact found known
  | some literal =>
    rw [value_of_override known, visitedDepth_of_override known]
    exact Finds.here fun level => literalWithin_override level (agree.trans known)

/-- A wrapper around a type that is no reference. -/
theorem finds_wrapped (w : Wrapper) (other : w.isReference = false) {t : TypeTerm} {depth : Nat}
    {literal : Text} (inner : Finds overrides t.normal depth literal)
    (free : overrides (w.spell t.normal) = none) :
    Finds overrides (w.spell t.normal) (depth + 1) (w.literal literal) :=
  inner.through w.literal fun level =>
    literalWithin_plain level w other t.typeText.isPiece t.isTarget free

theorem finds_tuple (t : TypeTerm) (ts : List TypeTerm)
    (free : overrides (tuple t ts).normal = none)
    (parts : ∀ u ∈ t :: ts, Finds overrides u.normal (visitedDepth table u) (value table u)) :
    Finds overrides (tuple t ts).normal (visitedDepthAll table (t :: ts) + 1)
      (tupleText [] (values table (t :: ts))) := by
  intro level
  cases level with
  | zero => exact ⟨fun deep => absurd deep (Nat.not_lt_zero _), fun _ => ⟨.tooDeep _, rfl⟩⟩
  | succ level =>
    rw [literalWithin_tuple level t ts free, List.mapM_map]
    constructor
    · intro deep
      have each : ∀ u ∈ t :: ts,
          (literalWithin overrides level ∘ normal) u = .ok (value table u) := by
        intro u member
        have shallow : visitedDepth table u ≤ visitedDepthAll table (t :: ts) :=
          visitedDepth_le_all member
        exact (parts u member level).1 (by omega)
      rw [mapM_ok each, values_eq_map]
      rfl
    · intro shallow
      obtain ⟨u, member, deep⟩ := exists_visitedDepth_eq_all table t ts
      obtain ⟨e, failed⟩ := (parts u member level).2 (by omega)
      obtain ⟨e, error⟩ := mapM_error (f := literalWithin overrides level ∘ normal) member failed
      exact ⟨e, by rw [error]; rfl⟩

/-- Rule by rule, the literal of a type is found by recursion over the type. -/
theorem finds_normal (agree : ∀ t : TypeTerm, overrides t.normal = override? table t) (t : TypeTerm) :
    Finds overrides t.normal (visitedDepth table t) (value table t) := by
  induction t with
  | unit =>
    refine finds_unless (agree _) fun free => ?_
    simp only [value, visitedDepth, free]
    exact Finds.here fun level => literalWithin_unit level ((agree _).trans free)
  | name n =>
    refine finds_unless (agree _) fun free => ?_
    simp only [value, visitedDepth, free]
    exact Finds.here fun level => literalWithin_name level n ((agree (name n)).trans free)
  | generic n plain ts =>
    refine finds_unless (agree _) fun free => ?_
    simp only [value, visitedDepth, free, normalize_text]
    exact Finds.here fun level => literalWithin_generic level n plain ts ((agree _).trans free)
  | option t ih =>
    refine finds_unless (agree _) fun free => ?_
    simp only [value, visitedDepth, free]
    exact finds_wrapped .option rfl ih ((agree (option t)).trans free)
  | result t ih =>
    refine finds_unless (agree _) fun free => ?_
    simp only [value, visitedDepth, free]
    exact finds_wrapped .result rfl ih ((agree (result t)).trans free)
  | resultOr t e ih =>
    refine finds_unless (agree _) fun free => ?_
    simp only [value, visitedDepth, free]
    exact finds_wrapped (.resultOr e.piece) rfl ih ((agree (resultOr t e)).trans free)
  | vec t ih =>
    refine finds_unless (agree _) fun free => ?_
    simp only [value, visitedDepth, free]
    exact finds_wrapped .vec rfl ih ((agree (vec t)).trans free)
  | reference t ih =>
    refine finds_unless (agree _) fun free => ?_
    simp only [value, visitedDepth, free]
    cases known : borrowedLiteral? t with
    | some literal =>
      exact Finds.here fun level => literalWithin_borrowed level known ((agree _).trans free)
    | none =>
      exact ih.through borrowLiteral fun level =>
        literalWithin_reference level known ((agree _).trans free)
  | mutableReference t ih =>
    refine finds_unless (agree _) fun free => ?_
    simp only [value, visitedDepth, free]
    exact ih.through mutableBorrowLiteral fun level =>
      literalWithin_mutableReference level t ((agree _).trans free)
  | tuple t ts iht ihts =>
    refine finds_unless (agree _) fun free => ?_
    simp only [value, visitedDepth, free]
    exact finds_tuple t ts ((agree _).trans free) (by simpa using ⟨iht, ihts⟩)
  | array t n ih =>
    refine finds_unless (agree _) fun free => ?_
    simp only [value, visitedDepth, free]
    exact finds_wrapped (.array n) rfl ih ((agree (array t n)).trans free)
  | slice t ih =>
    refine finds_unless (agree _) fun free => ?_
    simp only [value, visitedDepth, free]
    exact finds_wrapped .slice rfl ih ((agree (slice t)).trans free)

end Recursion

/-- The literal of a type as it is written follows the structure of the type. Synthesis fails exactly
when the recursion goes down more than 32 levels. -/
theorem literal_text_eq_value (policy : Policy) (t : TypeTerm) :
    ∃ failure, literal policy.typeMapping? t.text =
      if t.visitedDepth policy.typeMappings ≤ 32 then .ok (t.value policy.typeMappings)
      else .error failure := by
  have agree : ∀ u : TypeTerm,
      policy.typeMapping? u.normal = override? policy.typeMappings u := by
    intro u
    rw [Policy.typeMapping?, override?, normalize_normal, normalize_text]
  obtain ⟨found, failed⟩ := finds_normal agree t Literal.levels
  rw [literal, normalize_text]
  by_cases shallow : t.visitedDepth policy.typeMappings ≤ 32
  · exact ⟨.tooDeep [], by rw [if_pos shallow, found (Nat.lt_succ_of_le shallow)]⟩
  · obtain ⟨e, error⟩ := failed (Nat.lt_of_not_le shallow)
    exact ⟨e, by rw [if_neg shallow, error]⟩

example : literal (fun _ => none) "Result<(Vec<u8>,), E>".toList = .ok "Ok((vec![0],))".toList := by
  decide

end TestSkeleton.Rust
