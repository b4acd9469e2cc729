import Mathlib.Data.List.Forall2
import TestSkeleton.Proofs.Signature.Normal
import TestSkeleton.Proofs.Signature.Split

/-! Splitting at top level against joining with commas, in both directions.

What a part may hold is said by counting its brackets, so that it can be told without the scan that
splits. -/

namespace TestSkeleton.Signature

open Text

/-- Whether a character closes a bracket behind another one. The head of an arrow closes none. -/
def closesBehind (previous : Option Char) (c : Char) : Bool :=
  closesDepth c && !(c == '>' && previous == some '-')

def openings (t : Text) : Nat := t.countP opensDepth

def closingsFrom : Option Char → Text → Nat
  | _, [] => 0
  | previous, c :: r => (closesBehind previous c).toNat + closingsFrom (some c) r

def closings (t : Text) : Nat := closingsFrom none t

/-- A text with nothing around it whose brackets are balanced and whose commas stand inside them. -/
structure IsBalancedPart (part : Text) : Prop where
  filled : part ≠ []
  trimmed : trim part = part
  nested : ∀ front ∈ part.inits, closings front ≤ openings front
  balanced : closings part = openings part
  inside : ∀ front ∈ part.inits, front ++ [','] ∈ part.inits → closings front < openings front

instance (part : Text) : Decidable (IsBalancedPart part) :=
  decidable_of_iff
    (part ≠ [] ∧ trim part = part ∧ (∀ front ∈ part.inits, closings front ≤ openings front) ∧
      closings part = openings part ∧
      ∀ front ∈ part.inits, front ++ [','] ∈ part.inits → closings front < openings front)
    ⟨fun ⟨filled, trimmed, nested, balanced, inside⟩ => ⟨filled, trimmed, nested, balanced, inside⟩,
      fun p => ⟨p.filled, p.trimmed, p.nested, p.balanced, p.inside⟩⟩

/-- Whether a text is a part with blanks around it. -/
def IsPadded (part text : Text) : Prop :=
  ∃ before behind, (∀ c ∈ before, isBlank c = true) ∧ (∀ c ∈ behind, isBlank c = true) ∧
    text = before ++ part ++ behind

theorem openings_cons (c : Char) (r : Text) : openings (c :: r) = (opensDepth c).toNat + openings r := by
  rw [openings, List.countP_cons, openings, Nat.add_comm]
  cases opensDepth c <;> rfl

/-- The depth is the number of brackets that were opened and not closed. -/
theorem depthAfter_add_closes {depth : Nat} {previous : Option Char} {c : Char}
    (held : (closesBehind previous c).toNat ≤ depth) :
    depthAfter depth previous c + (closesBehind previous c).toNat = depth + (opensDepth c).toNat := by
  unfold depthAfter
  cases opens : opensDepth c with
  | true =>
    have shut : closesBehind previous c = false := by
      cases closes : closesDepth c with
      | false => simp [closesBehind, closes]
      | true => simp [not_opensDepth_of_closesDepth closes] at opens
    simp [shut]
  | false =>
    rw [← closesBehind]
    cases closes : closesBehind previous c with
    | true =>
      rw [closes] at held
      simp only [Bool.toNat_true] at held ⊢
      simp only [Bool.false_eq_true, if_false, if_true, Bool.toNat_false]
      omega
    | false => simp

/-- A scan that starts deep enough for every prefix goes through, to the depth that the counts tell. -/
theorem depthThrough?_of_prefixes {u : Text} {depth : Nat} {previous : Option Char}
    (nested : ∀ front, front <+: u → closingsFrom previous front ≤ depth + openings front)
    (inside : ∀ front, front ++ [','] <+: u → closingsFrom previous front < depth + openings front) :
    ∃ deeper, depthThrough? [','] depth previous u = some deeper ∧
      deeper + closingsFrom previous u = depth + openings u := by
  induction u generalizing depth previous with
  | nil => exact ⟨depth, rfl, rfl⟩
  | cons c r ih =>
    have first := nested [c] (by simp)
    rw [openings_cons, closingsFrom, closingsFrom, openings, List.countP_nil] at first
    have held : (closesBehind previous c).toNat ≤ depth := by
      cases closes : closesDepth c with
      | false => simp [closesBehind, closes]
      | true => simpa [not_opensDepth_of_closesDepth closes] using first
    have step := depthAfter_add_closes held
    have later : ∃ deeper, depthThrough? [','] (depthAfter depth previous c) (some c) r = some deeper ∧
        deeper + closingsFrom (some c) r = depthAfter depth previous c + openings r := by
      apply ih
      · intro front pre
        have bound := nested (c :: front) ((List.prefix_cons_inj c).mpr pre)
        rw [openings_cons, closingsFrom] at bound
        omega
      · intro front pre
        have bound := inside (c :: front) ((List.prefix_cons_inj c).mpr pre)
        rw [openings_cons, closingsFrom] at bound
        omega
    obtain ⟨deeper, through, total⟩ := later
    refine ⟨deeper, ?_, by rw [openings_cons, closingsFrom]; omega⟩
    rw [depthThrough?, if_neg, if_neg, through]
    · rintro ⟨comma, zero⟩
      obtain rfl : c = ',' := by simpa using comma
      have deep := inside [] (by simp)
      rw [depthAfter_plain depth previous (by decide)] at zero
      simp [closingsFrom, openings, zero] at deep
    · rintro ⟨zero, closes, arrow⟩
      have shut : closesBehind previous c = true := by
        simp only [closesBehind, closes, Bool.true_and, Bool.not_eq_true', Bool.and_eq_false_iff,
          beq_eq_false_iff_ne]
        exact Decidable.not_and_iff_or_not.mp arrow
      rw [shut, zero] at held
      exact absurd held (by decide)

theorem IsBalancedPart.whole {part : Text} (p : IsBalancedPart part) : Whole [','] part := by
  have nested : ∀ front, front <+: part → closingsFrom none front ≤ 0 + openings front := by
    intro front pre
    rw [Nat.zero_add]
    exact p.nested front ((List.mem_inits _ _).mpr pre)
  have inside : ∀ front, front ++ [','] <+: part → closingsFrom none front < 0 + openings front := by
    intro front pre
    rw [Nat.zero_add]
    refine p.inside front ((List.mem_inits _ _).mpr ?_) ((List.mem_inits _ _).mpr pre)
    exact (List.prefix_append front [',']).trans pre
  obtain ⟨deeper, through, total⟩ := depthThrough?_of_prefixes nested inside
  have level := p.balanced
  rw [closings] at level
  rw [Whole, through]
  congr
  omega

theorem IsBalancedPart.head {part : Text} (p : IsBalancedPart part) : ∀ c ∈ part.head?, isBlank c = false :=
  p.trimmed ▸ head_trim part

theorem IsBalancedPart.last {part : Text} (p : IsBalancedPart part) : ∀ c ∈ part.getLast?, isBlank c = false :=
  p.trimmed ▸ last_trim part

namespace IsPadded

theorem whole {part text : Text} (padded : IsPadded part text) (p : IsBalancedPart part) :
    Whole [','] text := by
  obtain ⟨before, behind, blanksBefore, blanksBehind, rfl⟩ := padded
  exact whole_append_blanks blanksBehind (whole_blanks_append blanksBefore p.whole)

theorem trim_eq {part text : Text} (padded : IsPadded part text) (p : IsBalancedPart part) :
    trim text = part := by
  obtain ⟨before, behind, blanksBefore, blanksBehind, rfl⟩ := padded
  rw [List.append_assoc, trim_blanks_append blanksBefore]
  exact trim_append_blanks p.head p.last blanksBehind

theorem of_trim (t : Text) : IsPadded (trim t) t := by
  obtain ⟨behind, front, blanks⟩ := exists_dropEndWhile_append isBlank (trimStart t)
  refine ⟨t.takeWhile isBlank, behind, fun c => List.mem_takeWhile_imp, blanks, ?_⟩
  rw [List.append_assoc, trim, trimEnd, ← front, trimStart, List.takeWhile_append_dropWhile]

end IsPadded

/-- Splitting gives back the parts of a text, however they are spaced. -/
theorem splitTopLevel_padded {parts texts : List Text} (filled : parts ≠ [])
    (balanced : ∀ part ∈ parts, IsBalancedPart part) (padded : List.Forall₂ IsPadded parts texts) :
    splitTopLevel (join [','] texts) = parts := by
  have trimmed : texts.map trim = parts := by
    clear filled
    induction padded with
    | nil => rfl
    | cons here _ ih =>
      rw [List.map_cons, here.trim_eq (balanced _ List.mem_cons_self),
        ih fun part member => balanced part (List.mem_cons_of_mem _ member)]
  have wholes : ∀ text ∈ texts, Whole [','] text := by
    clear filled trimmed
    induction padded with
    | nil => simp
    | cons here _ ih =>
      intro text member
      rcases List.mem_cons.mp member with rfl | later
      · exact here.whole (balanced _ List.mem_cons_self)
      · exact ih (fun part member => balanced part (List.mem_cons_of_mem _ member)) text later
  cases texts with
  | nil => exact absurd trimmed.symm filled
  | cons first others =>
    have visible : trim first ≠ [] := by
      rw [List.map_cons] at trimmed
      exact (balanced _ (trimmed ▸ List.mem_cons_self)).filled
    rw [join_eq_flatMap]
    have split := splitTopLevel_parts (wholes first List.mem_cons_self)
      (fun text member => wholes text (List.mem_cons_of_mem _ member)) (Or.inr visible)
    exact split.trans trimmed

theorem piecesFrom_ne_nil (separator : Text) (depth : Nat) (previous : Option Char) (current t : Text) :
    piecesFrom separator depth previous current t ≠ [] := by
  induction t generalizing depth previous current with
  | nil => simp [piecesFrom]
  | cons c r ih =>
    rw [piecesFrom]
    split
    · simp
    · exact ih _ _ _

/-- The raw pieces lose nothing of a text but the separators between them. -/
theorem join_piecesFrom (mark : Char) (depth : Nat) (previous : Option Char) (current t : Text) :
    join [mark] (piecesFrom [mark] depth previous current t) = current.reverse ++ t := by
  induction t generalizing depth previous current with
  | nil => simp [piecesFrom, join]
  | cons c r ih =>
    rw [piecesFrom]
    split
    · rename_i cut
      simp only [Bool.and_eq_true, beq_iff_eq, List.cons.injEq, and_true] at cut
      obtain rfl : c = mark := cut.1
      rw [join_cons, if_neg (piecesFrom_ne_nil _ _ _ _ _), ih, List.reverse_nil, List.nil_append,
        List.singleton_append]
    · rw [ih, List.reverse_cons, List.append_assoc, List.singleton_append]

/-- A text is its parts with blanks around them, or it is blank and has none. -/
theorem padded_splitTopLevel (t : Text) :
    (splitTopLevel t = [] ∧ ∀ c ∈ t, isBlank c = true) ∨
      ∃ texts, t = join [','] texts ∧ List.Forall₂ IsPadded (splitTopLevel t) texts := by
  have whole := join_piecesFrom ',' 0 none [] t
  rw [List.reverse_nil, List.nil_append] at whole
  rw [splitTopLevel]
  split
  · rename_i alone
    obtain ⟨text, single, empty⟩ := List.map_eq_singleton_iff.mp alone
    rw [single] at whole
    obtain rfl : text = t := whole
    exact Or.inl ⟨rfl, isBlank_of_trim_eq_nil empty⟩
  · refine Or.inr ⟨_, whole.symm, ?_⟩
    rw [List.forall₂_map_left_iff, List.forall₂_same]
    exact fun text _ => IsPadded.of_trim text

/-! The blanks that a text has next to its commas and at its ends. -/

def isEdge (c : Option Char) : Bool := c.all (· == ',')

def atEdge (before next : Option Char) : Bool := isEdge before || isEdge next

/-- The text without the blanks next to its commas and at its ends. -/
def tightened (t : Text) : Text := sieve atEdge none t

theorem nextSolid_append (u v : Text) : nextSolid (u ++ v) = (nextSolid u).or (nextSolid v) := by
  rw [nextSolid, List.find?_append, nextSolid, nextSolid]

theorem nextSolid_blanks {gap : Text} (blanks : ∀ c ∈ gap, isBlank c = true) : nextSolid gap = none := by
  rw [nextSolid, List.find?_eq_none]
  intro c member
  simp [solid, blanks c member]

/-- Blanks between characters where they are dropped. -/
theorem sieve_blanks {drop : Option Char → Option Char → Bool} {gap r : Text} {before : Option Char}
    (blanks : ∀ c ∈ gap, isBlank c = true) (dropped : drop before (nextSolid r) = true) :
    sieve drop before (gap ++ r) = sieve drop before r := by
  induction gap with
  | nil => rfl
  | cons c gap ih =>
    have others : ∀ d ∈ gap, isBlank d = true := fun d member => blanks d (List.mem_cons_of_mem c member)
    have next : nextSolid (gap ++ r) = nextSolid r := by
      rw [nextSolid_append, nextSolid_blanks others, Option.none_or]
    rw [List.cons_append, sieve, blanks c List.mem_cons_self, if_pos rfl, next, if_pos dropped, ih others]

/-- Rests that begin alike and are sieved alike are sieved alike behind any text. -/
theorem sieve_append_congr {drop : Option Char → Option Char → Bool} {r s : Text}
    (next : nextSolid r = nextSolid s) (same : ∀ before, sieve drop before r = sieve drop before s)
    (u : Text) (before : Option Char) : sieve drop before (u ++ r) = sieve drop before (u ++ s) := by
  induction u generalizing before with
  | nil => exact same before
  | cons c u ih => simp only [List.cons_append, sieve, nextSolid_append, next, ih]

/-- Whether two rests of texts begin at an edge and differ in blanks at edges alone. -/
structure Continues (r s : Text) : Prop where
  edge : isEdge (nextSolid r) = true
  next : nextSolid r = nextSolid s
  same : ∀ before, sieve atEdge before r = sieve atEdge before s

theorem sieve_padded {part text r s : Text} (padded : IsPadded part text) (rest : Continues r s)
    {before : Option Char} (edge : isEdge before = true) :
    sieve atEdge before (text ++ r) = sieve atEdge before (part ++ s) := by
  obtain ⟨front, behind, blanksFront, blanksBehind, rfl⟩ := padded
  have next : nextSolid (behind ++ r) = nextSolid s := by
    rw [nextSolid_append, nextSolid_blanks blanksBehind, Option.none_or, rest.next]
  have ends : ∀ before, sieve atEdge before (behind ++ r) = sieve atEdge before s := by
    intro before
    rw [sieve_blanks blanksBehind (by simp [atEdge, rest.edge]), rest.same]
  rw [List.append_assoc, List.append_assoc, sieve_blanks blanksFront (by simp [atEdge, edge])]
  exact sieve_append_congr next ends part before

theorem continues_padded {parts texts : List Text} (padded : List.Forall₂ IsPadded parts texts) :
    Continues (texts.flatMap ([','] ++ ·)) (parts.flatMap ([','] ++ ·)) := by
  have comma : isBlank ',' = false := by decide
  induction padded with
  | nil => exact ⟨rfl, rfl, fun _ => rfl⟩
  | cons here _ ih =>
    simp only [List.flatMap_cons, List.cons_append]
    refine ⟨?_, ?_, fun before => ?_⟩
    · rw [nextSolid_cons_solid _ comma]
      rfl
    · rw [nextSolid_cons_solid _ comma, nextSolid_cons_solid _ comma]
    · simp only [sieve, comma, Bool.false_eq_true, if_false]
      exact congrArg (',' :: ·) (sieve_padded here ih rfl)

/-- Blanks around the parts are next to commas or at the ends. -/
theorem tightened_join {parts texts : List Text} (padded : List.Forall₂ IsPadded parts texts) :
    tightened (join [','] texts) = tightened (join [','] parts) := by
  cases padded with
  | nil => rfl
  | cons here others =>
    rw [join_eq_flatMap, join_eq_flatMap]
    exact sieve_padded here (continues_padded others) rfl

theorem tightened_blanks {t : Text} (blanks : ∀ c ∈ t, isBlank c = true) : tightened t = [] := by
  have dropped : sieve atEdge none (t ++ []) = [] := sieve_blanks blanks rfl
  rwa [List.append_nil] at dropped

/-- Splitting undoes joining: parts whose brackets are balanced, with any blanks around them and commas
between them, are found again. And joining undoes splitting: a text is its parts with blanks around them
and commas between them, so the parts with commas alone differ from it in blanks next to commas and at
the ends. -/
theorem splitTopLevel_rejoins :
    (∀ parts texts : List Text, parts ≠ [] → (∀ part ∈ parts, IsBalancedPart part) →
      List.Forall₂ IsPadded parts texts → splitTopLevel (join [','] texts) = parts) ∧
    ∀ t : Text, tightened (join [','] (splitTopLevel t)) = tightened t ∧
      ((splitTopLevel t = [] ∧ ∀ c ∈ t, isBlank c = true) ∨
        ∃ texts, t = join [','] texts ∧ List.Forall₂ IsPadded (splitTopLevel t) texts) := by
  refine ⟨fun parts texts => splitTopLevel_padded, fun t => ⟨?_, padded_splitTopLevel t⟩⟩
  rcases padded_splitTopLevel t with ⟨none, blanks⟩ | ⟨texts, whole, padded⟩
  · rw [none, tightened_blanks blanks]
    rfl
  · rw [← tightened_join padded, ← whole]

/-- Parts with commas and an arrow inside brackets, and with a dash and a blank in front of an angle
bracket, which closes. -/
def nestedParts : List Text := ["fn(u8, fn() -> i8)", "A<b - >", "[T; {N}]"].map String.toList

theorem nestedParts_split :
    nestedParts ≠ [] ∧ (∀ part ∈ nestedParts, IsBalancedPart part) ∧
      splitTopLevel " fn(u8, fn() -> i8)\t,\nA<b - >,[T; {N}]  ".toList = nestedParts := by
  have parts : ∀ part ∈ nestedParts, IsBalancedPart part := by decide +kernel
  have padded : List.Forall₂ IsPadded nestedParts
      ([" fn(u8, fn() -> i8)\t", "\nA<b - >", "[T; {N}]  "].map String.toList) :=
    .cons ⟨[' '], ['\t'], by decide, by decide, rfl⟩ <|
      .cons ⟨['\n'], [], by decide, by decide, rfl⟩ <|
        .cons ⟨[], [' ', ' '], by decide, by decide, rfl⟩ .nil
  exact ⟨by decide, parts, splitTopLevel_rejoins.1 _ _ (by decide) parts padded⟩

end TestSkeleton.Signature
