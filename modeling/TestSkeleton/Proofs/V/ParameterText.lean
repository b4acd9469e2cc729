import Mathlib.Data.List.TakeWhile
import TestSkeleton.Proofs.Signature.Normal
import TestSkeleton.Proofs.Signature.Split
import TestSkeleton.Proofs.V.HeaderText

/-! The parameters of a declaration are read as they were written. -/

namespace TestSkeleton.V

open Text Signature

/-- Where no angle brackets stand, the depth is the number of brackets that wait to be closed. -/
theorem depthThrough?_of_openAfter {u : Text} {opened left : List Char} {previous : Option Char}
    (through : openAfter opened u = some left) (angles : ∀ c ∈ u, c ≠ '<' ∧ c ≠ '>')
    (single : ∀ i < u.length, u[i]? = some ',' → openAfter opened (u.take i) ≠ some []) :
    depthThrough? [','] opened.length previous u = some left.length := by
  induction u generalizing opened previous with
  | nil =>
    simp only [openAfter, Option.some.injEq] at through
    rw [depthThrough?, through]
  | cons c r ih =>
    obtain ⟨noLess, noGreater⟩ := angles c (by simp)
    have anglesBehind := fun d member => angles d (List.mem_cons_of_mem c member)
    -- no comma of `r` stands outside all brackets, whatever `c` did to them
    have behind {next : List Char} (step : ∀ v, openAfter opened (c :: v) = openAfter next v) :
        ∀ i < r.length, r[i]? = some ',' → openAfter next (r.take i) ≠ some [] := by
      intro i inside comma
      rw [← step]
      exact single (i + 1) (by simpa using inside) (by simpa using comma)
    rcases openAfter_cons through with ⟨b, opens, later⟩ | ⟨outer, rfl, opens, closes, later⟩ |
      ⟨opens, closes, later⟩
    · have deeper : depthThrough? [','] (opened.length + 1) (some c) r = some left.length :=
        ih later anglesBehind (behind fun v => by simp [openAfter, opens])
      obtain ⟨enters, plain, other⟩ : opensDepth c = true ∧ closesDepth c = false ∧ c ≠ ',' := by
        unfold closing? at opens
        split at opens <;> cases opens <;> decide
      simpa [depthThrough?, depthAfter_opens _ _ enters, plain, other] using deeper
    · have shallower : depthThrough? [','] outer.length (some c) r = some left.length :=
        ih later anglesBehind (behind fun v => by simp [openAfter, opens, closes])
      obtain ⟨leaves, other⟩ : closesDepth c = true ∧ c ≠ ',' := by
        simp only [isClosing, Bool.or_eq_true, beq_iff_eq] at closes
        rcases closes with (rfl | rfl) | rfl <;> decide
      have depth : depthAfter (outer.length + 1) previous c = outer.length := by
        simp [depthAfter, not_opensDepth_of_closesDepth leaves, leaves, noGreater]
      simpa [depthThrough?, depth, other] using shallower
    · have level : depthThrough? [','] opened.length (some c) r = some left.length :=
        ih later anglesBehind (behind fun v => by simp [openAfter, opens, closes])
      have neutral : opensDepth c = false ∧ closesDepth c = false := by
        have noOpening : c ≠ '(' ∧ c ≠ '[' ∧ c ≠ '\x7b' := by
          refine ⟨?_, ?_, ?_⟩ <;> rintro rfl <;> cases opens
        simp only [isClosing, Bool.or_eq_false_iff] at closes
        simp [opensDepth, closesDepth, noOpening, noLess, noGreater, closes]
      have separates : ¬(c = ',' ∧ opened.length = 0) := by
        rintro ⟨rfl, zero⟩
        rw [List.length_eq_zero_iff] at zero
        exact single 0 (by simp) rfl (by simp [zero, openAfter])
      have depth : depthAfter opened.length previous c = opened.length := by
        simp [depthAfter, neutral]
      rw [depthThrough?, depth, if_neg (by simp [neutral]), if_neg (by simpa using separates), level]

/-- Neither end of the text is blank. -/
structure SolidEnds (t : Text) : Prop where
  head : ∀ c ∈ t.head?, isBlank c = false
  last : ∀ c ∈ t.getLast?, isBlank c = false

namespace SolidEnds

theorem trim_eq {t : Text} (ends : SolidEnds t) : trim t = t := trim_eq_self ends.head ends.last

theorem of_solid {t : Text} (solid : ∀ c ∈ t, isBlank c = false) : SolidEnds t where
  head c first := solid c (List.mem_of_mem_head? first)
  last c final := solid c (List.mem_of_mem_getLast? final)

theorem append_mark {u v : Text} (front : SolidEnds u) (back : SolidEnds v) (filled : u ≠ [] ∧ v ≠ [])
    (mark : Char) : SolidEnds (u ++ mark :: v) where
  head c first := by
    cases shape : u with
    | nil => exact absurd shape filled.1
    | cons d more => exact front.head c (by simpa [shape] using first)
  last c final := by
    cases shape : v with
    | nil => exact absurd shape filled.2
    | cons d more => exact back.last c (by simpa [shape, List.getLast?_append] using final)

theorem withMut {t : Text} (ends : SolidEnds t) (filled : t ≠ []) (isMutable : Bool) :
    SolidEnds (withMut isMutable t) := by
  cases isMutable with
  | false => exact ends
  | true =>
    have marker : SolidEnds "mut".toList := of_solid (by decide)
    exact marker.append_mark ends ⟨by decide, filled⟩ ' '

end SolidEnds

namespace TypeText

theorem whole (t : TypeText) : Whole [','] t.text := by
  have angles : ∀ c ∈ t.text, c ≠ '<' ∧ c ≠ '>' := by
    intro c member
    have plain := t.plain c member
    simp only [List.mem_cons, not_or] at plain
    exact ⟨plain.2.1, plain.2.2.1⟩
  exact depthThrough?_of_openAfter t.inert.nested angles t.single

theorem solidEnds (t : TypeText) : SolidEnds t.text := by
  have spelled := normalize_eq_spaceFrom t.text
  rw [t.normal] at spelled
  constructor
  · intro c first
    rw [spelled, head?_spaceFrom] at first
    exact solid_of_nextSolid first
  · intro c last
    have ends := getLast?_spaceFrom spacing none false t.text
    rw [← spelled, Option.or_none, lastSolid, Option.or_none] at ends
    rw [ends] at last
    exact solid_of_nextSolid last

/-- A type begins with a character that keeps a space before it. -/
theorem keepsBlank_head (t : TypeText) {c : Char} (first : c ∈ t.text.head?) :
    keepsBlank 't' c = true := by
  obtain ⟨r, shape⟩ := List.head?_eq_some_iff.mp first
  have plain := t.plain c (by simp [shape])
  have nested := t.inert.nested
  rw [Nested, shape, openAfter] at nested
  have noComma : c ≠ ',' := by
    rintro rfl
    exact t.single 0 (by simp [shape]) (by simp [shape]) rfl
  have noClosing : Signature.isClosing c = false := by
    cases closes : Signature.isClosing c with
    | false => rfl
    | true =>
      simp only [Signature.isClosing, Bool.or_eq_true, beq_iff_eq] at closes
      rcases closes with (rfl | rfl) | rfl
      · simp at plain
      · cases nested
      · cases nested
  have noLess : c ≠ '<' := by
    rintro rfl
    simp at plain
  have marker : isOpening 't' = false ∧ ('t' == '&') = false := by decide
  simp [keepsBlank, marker, noClosing, noLess, noComma]

theorem normalize_withMut (t : TypeText) (isMutable : Bool) :
    normalize (withMut isMutable t.text) = withMut isMutable t.text := by
  cases isMutable with
  | false => exact t.normal
  | true =>
    have spelled := normalize_eq_spaceFrom t.text
    rw [t.normal] at spelled
    rw [normalize_eq_spaceFrom]
    cases shape : t.text with
    | nil => exact absurd shape t.filled
    | cons c r =>
      have kept := t.keepsBlank_head (c := c) (by simp [shape])
      have visible : isBlank c = false := t.solidEnds.head c (by simp [shape])
      have marker : isBlank 'm' = false ∧ isBlank 'u' = false ∧ isBlank 't' = false ∧ isBlank ' ' = true := by
        decide
      have tight : spacing 'm' 'u' false = false ∧ spacing 'u' 't' false = false := by decide
      have apart : spacing 't' c true = true := by simp [spacing, kept]
      have behind : spaceFrom spacing (some c) false r = r := by
        rw [shape] at spelled
        simpa [spaceFrom, visible] using spelled.symm
      simp [withMut, spaceFrom, marker, tight, apart, visible, behind]

end TypeText

def Piece.marked (isMutable : Bool) : Piece → Piece
  | .word w _ => .word w isMutable
  | .named name type _ => .named name type isMutable

/-- A marker in front of a part is told from what it marks. -/
theorem pieceOf_withMut {part : Text} (trimmed : trim part = part)
    (unmarked : dropPrefix? "mut ".toList part = none) (isMutable : Bool) :
    pieceOf (withMut isMutable part) = (pieceOf part).marked isMutable := by
  cases isMutable with
  | false =>
    simp only [pieceOf, withMut, Bool.false_eq_true, if_false, unmarked]
    split <;> rfl
  | true =>
    simp only [pieceOf, withMut, if_true, dropPrefix?_append, trimmed, unmarked]
    split <;> rfl

namespace ValueName

theorem not_blank (n : ValueName) : ∀ c ∈ n.text, (!isBlank c) = true := by
  intro c member
  simp [n.solid c member]

theorem solidEnds (n : ValueName) : SolidEnds n.text := SolidEnds.of_solid n.solid

theorem pieceOf_text (n : ValueName) (isMutable : Bool) :
    pieceOf (withMut isMutable n.text) = .word n.text isMutable := by
  have unmarked : dropPrefix? "mut ".toList n.text = none := by
    apply dropPrefix?_eq_none_of_not_mem (by decide : ' ' ∈ "mut ".toList)
    intro member
    exact absurd (n.solid ' ' member) (by decide)
  have whole : n.text.takeWhile (!isBlank ·) = n.text ∧ n.text.dropWhile (!isBlank ·) = [] :=
    ⟨List.takeWhile_eq_self_iff.mpr n.not_blank, List.dropWhile_eq_nil_iff.mpr n.not_blank⟩
  rw [pieceOf_withMut n.solidEnds.trim_eq unmarked]
  simp only [pieceOf, unmarked, whole]
  rfl

theorem solidEnds_typed (n : ValueName) (type : TypeText) : SolidEnds (n.text ++ ' ' :: type.text) :=
  n.solidEnds.append_mark type.solidEnds ⟨n.filled, type.filled⟩ ' '

theorem pieceOf_typed (n : ValueName) (type : TypeText) (isMutable : Bool) :
    pieceOf (withMut isMutable (n.text ++ ' ' :: type.text)) = .named n.text type.text isMutable := by
  have blank : isBlank ' ' = true := by decide
  have unmarked : dropPrefix? "mut ".toList (n.text ++ ' ' :: type.text) = none := by
    have solidMarker : ∀ c ∈ "mut".toList, (!isBlank c) = true := by decide
    have space : (!isBlank ' ') = false := by decide
    have stops : ∀ c ∈ (' ' :: type.text).head?, (!isBlank c) = false := by simp [blank]
    have marked := dropPrefix?_marked (!isBlank ·) solidMarker n.not_blank space stops
    rwa [if_neg (Ne.symm n.other)] at marked
  have cut := takeWhile_append_mark n.not_blank (by decide : (!isBlank ' ') = false) type.text
  have solid : trimStart (' ' :: type.text) = type.text := by
    rw [trimStart, List.dropWhile_cons_of_pos blank]
    cases shape : type.text with
    | nil => rfl
    | cons c r => exact trimStart_cons (type.solidEnds.head c (by simp [shape])) r
  rw [pieceOf_withMut (n.solidEnds_typed type).trim_eq unmarked]
  simp only [pieceOf, unmarked, cut, solid]
  split
  · rename_i empty
    exact absurd empty type.filled
  · rfl

end ValueName

/-- Names wait for the type of the group and take it in order. -/
theorem resolve_group (waiting : List (Text × Bool)) (front : List Binder) (last : Binder) (type : Text)
    (rest : List Piece) :
    resolve waiting (front.map (fun b => .word b.name.text b.isMutable) ++
        .named last.name.text type last.isMutable :: rest) =
      waiting.map (fun (w, wMutable) => (w, withMut wMutable type)) ++
        (front ++ [last]).map (fun b => (b.name.text, withMut b.isMutable type)) ++ resolve [] rest := by
  induction front generalizing waiting with
  | nil => simp [resolve]
  | cons b front ih => simp [resolve, ih]

namespace ParameterGroup

theorem last_written (g : ParameterGroup) : g.last.written ++ ' ' :: g.type.text =
    withMut g.last.isMutable (g.last.name.text ++ ' ' :: g.type.text) := by
  cases marked : g.last.isMutable <;> simp [Binder.written, withMut, marked]

theorem map_pieceOf_parts (g : ParameterGroup) :
    g.parts.map pieceOf = g.front.map (fun b => .word b.name.text b.isMutable) ++
      [.named g.last.name.text g.type.text g.last.isMutable] := by
  have front : (pieceOf ∘ Binder.written) = fun b => .word b.name.text b.isMutable :=
    funext fun b => b.name.pieceOf_text b.isMutable
  rw [parts, List.map_append, List.map_map, front, List.map_singleton, last_written,
    g.last.name.pieceOf_typed]

/-- Every name of a group takes the type of its own group. -/
theorem resolve_parts (g : ParameterGroup) (rest : List Piece) :
    resolve [] (g.parts.map pieceOf ++ rest) =
      g.parameters.map (fun p => (p.name, p.type)) ++ resolve [] rest := by
  rw [map_pieceOf_parts, List.append_assoc, List.singleton_append, resolve_group]
  simp [parameters]

end ParameterGroup

theorem resolve_groups (groups : List ParameterGroup) :
    resolve [] ((groups.flatMap ParameterGroup.parts).map pieceOf) =
      (groups.flatMap ParameterGroup.parameters).map fun p => (p.name, p.type) := by
  induction groups with
  | nil => rfl
  | cons g groups ih => simp [g.resolve_parts, ih]

/-- A part that a list of parameters gives back as it is. -/
structure Fits (part : Text) : Prop where
  filled : part ≠ []
  ends : SolidEnds part
  whole : Whole [','] part
  inert : Inert part
  flat : '\n' ∉ part

theorem Markless.whole {t : Text} (markless : Markless t) : Whole [','] t := by
  apply Whole.plain
  intro c member
  have other (mark : Char) (marked : mark ∈ marks) : c ≠ mark := by
    rintro rfl
    exact markless c member marked
  simp [opensDepth, closesDepth, other '<' (by decide), other '>' (by decide), other '(' (by decide),
    other ')' (by decide), other '[' (by decide), other ']' (by decide), other '\x7b' (by decide),
    other '\x7d' (by decide), other ',' (by decide)]

theorem Markless.flat {t : Text} (markless : Markless t) : '\n' ∉ t :=
  fun member => markless '\n' member (by decide)

theorem Fits.withMut {part : Text} (fits : Fits part) (isMutable : Bool) :
    Fits (withMut isMutable part) := by
  cases isMutable with
  | false => exact fits
  | true =>
    have markless : Markless "mut ".toList := by decide
    exact {
      filled := by simp [V.withMut]
      ends := fits.ends.withMut fits.filled true
      whole := markless.whole.append fits.whole (by decide)
      inert := Inert.append_markless markless fits.inert
      flat := by simpa [V.withMut] using fits.flat }

theorem ValueName.fits (n : ValueName) : Fits n.text where
  filled := n.filled
  ends := n.solidEnds
  whole := n.markless.whole
  inert := by simpa using Inert.append_markless n.markless Inert.nil
  flat := n.markless.flat

theorem ValueName.fits_typed (n : ValueName) (type : TypeText) : Fits (n.text ++ ' ' :: type.text) where
  filled := by simp
  ends := n.solidEnds_typed type
  whole := by
    have front : Markless (n.text ++ [' ']) := n.markless.append (by decide)
    simpa using front.whole.append type.whole (by simp)
  inert := Inert.append_markless n.markless (Inert.cons (by decide) type.inert)
  flat := by
    have plain : '\n' ∉ type.text := fun member => type.plain '\n' member (by simp)
    simp [n.markless.flat, plain]

theorem ParameterGroup.fits (g : ParameterGroup) : ∀ part ∈ g.parts, Fits part := by
  intro part member
  rcases List.mem_append.mp member with front | last
  · obtain ⟨b, -, rfl⟩ := List.mem_map.mp front
    exact b.name.fits.withMut b.isMutable
  · rw [List.mem_singleton.mp last, last_written]
    exact (g.last.name.fits_typed g.type).withMut g.last.isMutable

theorem fits_parts (groups : List ParameterGroup) :
    ∀ part ∈ groups.flatMap ParameterGroup.parts, Fits part := by
  intro part member
  obtain ⟨g, -, inside⟩ := List.mem_flatMap.mp member
  exact g.fits part inside

theorem splitTopLevel_parts_written (groups : List ParameterGroup) :
    splitTopLevel (join ", ".toList (groups.flatMap ParameterGroup.parts)) =
      groups.flatMap ParameterGroup.parts := by
  have fits := fits_parts groups
  have gap : ∀ c ∈ [' '], isBlank c = true := by decide
  by_cases empty : groups.flatMap ParameterGroup.parts = []
  · rw [empty]
    rfl
  · exact splitTopLevel_join gap empty (fun part member => ⟨(fits part member).filled,
      (fits part member).ends.trim_eq⟩) fun part member => (fits part member).whole

/-- A parameter with a name and a type in normal spelling stays as it is. -/
theorem mapIdx_parameter {ps : List Parameter}
    (settled : ∀ p ∈ ps, p.name ≠ [] ∧ normalize p.type = p.type) :
    (ps.map fun p => (p.name, p.type)).mapIdx (fun i (name, type) =>
      parameter (if name.isEmpty then "arg".toList ++ ofNat i else name) type) = ps := by
  apply List.ext_getElem
  · simp
  · intro i inside _
    obtain ⟨filled, normal⟩ := settled ps[i] (List.getElem_mem _)
    simp [parameter, filled, normal]

/-- Parameters keep their names, and each takes the type of its group. -/
theorem parameters_written (groups : List ParameterGroup) :
    parameters (join ", ".toList (groups.flatMap ParameterGroup.parts)) =
      groups.flatMap ParameterGroup.parameters := by
  have filled : (groups.flatMap ParameterGroup.parts).filter (· ≠ []) =
      groups.flatMap ParameterGroup.parts := by
    rw [List.filter_eq_self]
    intro part member
    simpa using (fits_parts groups part member).filled
  have settled : ∀ p ∈ groups.flatMap ParameterGroup.parameters,
      p.name ≠ [] ∧ normalize p.type = p.type := by
    intro p member
    obtain ⟨g, -, inside⟩ := List.mem_flatMap.mp member
    obtain ⟨b, -, rfl⟩ := List.mem_map.mp inside
    exact ⟨b.name.filled, g.type.normalize_withMut b.isMutable⟩
  rw [parameters, splitTopLevel_parts_written, filled, resolve_groups]
  exact mapIdx_parameter settled

end TestSkeleton.V
