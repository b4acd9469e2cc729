import TestSkeleton.Proofs.Rust.Lifetime
import TestSkeleton.Assertion.Rust
import TestSkeleton.Proofs.Outcome

/-! References inside other types, which may be references with a lifetime of their own.

Behind a frame the rule for library types does not see what stands between an ampersand and what it
refers to. -/

namespace TestSkeleton.Rust

open Text Signature TypeTerm

/-- A type that can stand behind a lifetime. -/
def IsReferent (target : Text) : Prop := ∃ c, target.head? = some c ∧ isBlank c = false ∧ c ≠ '\''

theorem IsReferent.solid {target : Text} (referent : IsReferent target) :
    ∀ c ∈ target.head?, isBlank c = false := by
  rcases referent with ⟨c, first, visible, -⟩
  intro d found
  obtain rfl : c = d := Option.some.inj (first.symm.trans found)
  exact visible

theorem IsReferent.quote {target : Text} (referent : IsReferent target) :
    ∀ c ∈ target.head?, c ≠ '\'' := by
  rcases referent with ⟨c, first, -, plain⟩
  intro d found
  obtain rfl : c = d := Option.some.inj (first.symm.trans found)
  exact plain

theorem IsBarePath.ne_str {target : Text} (bare : IsBarePath target) : target ≠ "str".toList := by
  rintro rfl
  rcases bare with other | ⟨-, below⟩
  · exact absurd other (by decide)
  · exact absurd below (by decide)

/-- What is taken for a bare path begins like one. -/
theorem IsBarePath.head {target : Text} (bare : IsBarePath target)
    (solid : ∀ c ∈ target.head?, isBlank c = false) : ∃ c ∈ ['P', 'D'], target.head? = some c := by
  rcases bare with rfl | ⟨date, -⟩
  · exact ⟨'P', by decide, rfl⟩
  · rcases exists_head_of_baseName (by rw [date]; decide) with ⟨c, first, plain⟩
    cases target with
    | nil => cases first
    | cons d r =>
      obtain rfl : d = c := Option.some.inj first
      rcases trim_cons_solid (r.takeWhile fun c => decide (c ≠ '<' ∧ c ≠ '[')) (solid d rfl) with ⟨rest, shape⟩
      rw [baseName_eq_trim_takeWhile, List.takeWhile_cons_of_pos (by simpa using plain), shape] at date
      exact ⟨'D', by decide, congrArg some (List.head_eq_of_cons_eq date)⟩

/-- What an ampersand and its lifetime refer to. -/
def referred (isMutable : Bool) (type : Text) : Text :=
  if isMutable then "mut ".toList ++ type else type

theorem IsReferent.referred {type : Text} (referent : IsReferent type) (isMutable : Bool) :
    IsReferent (referred isMutable type) := by
  cases isMutable with
  | false => exact referent
  | true => exact ⟨'m', rfl, by decide, by decide⟩

theorem not_isBarePath_mut (type : Text) : ¬IsBarePath (referred true type) := by
  intro bare
  rcases bare.head (by simp [referred]; decide) with ⟨c, listed, first⟩
  obtain rfl : 'm' = c := Option.some.inj first
  exact absurd listed (by decide)

theorem isPiece_referred {u : Text} (piece : IsPiece u) (isMutable : Bool) :
    IsPiece (referred isMutable u) := by
  cases isMutable with
  | false => exact piece
  | true =>
    exact IsPiece.behind (by decide : "mut ".toList ≠ []) (by simp; decide) (by decide) (by decide) (by decide)
      piece

namespace Lifetime

variable (a : Lifetime) (tight : Bool)

theorem mark_congr {t : Text} {c : Char} (first : t.head? = some c) : a.mark tight t = a.mark tight [c] := by
  rw [mark, mark, first]
  rfl

theorem isPiece_borrow {target : Text} (piece : IsPiece target) : IsPiece (a.borrow tight target) := by
  have marks : ∀ c ∈ "<>()[]{},;-".toList, c ≠ '&' ∧ c ≠ '\'' ∧ c ≠ ' ' ∧ isWord c = false := by decide
  have absent : ∀ c ∈ "<>()[]{},;-".toList, c ∉ '&' :: a.mark tight target := by
    intro c listed member
    have other := marks c listed
    rcases List.mem_cons.mp member with same | inside
    · exact other.1 same
    · exact a.not_mem_mark tight target other.2 inside
  have flat : Whole [','] ('&' :: a.mark tight target) := by
    apply Whole.plain
    intro c member
    have other : c ∉ "<>()[]{},;-".toList := fun listed => absent c listed member
    simp at other
    simp [opensDepth, closesDepth, other]
  have dash : ('&' :: a.mark tight target).getLast? ≠ some '-' := fun last =>
    absent '-' (by decide) (List.mem_of_getLast? last)
  exact piece.behind (List.cons_ne_nil _ _) (by simp; decide) flat dash (absent ';' (by decide))

end Lifetime

/-- What stands around a reference in a type: a layer, or another reference with a lifetime. -/
inductive Frame where
  | plain (l : Layer)
  | borrowed (a : Lifetime) (tight isMutable : Bool)

namespace Frame

/-- A reference without a lifetime. -/
def reference (isMutable : Bool) : Layer :=
  .wrapper (if isMutable then .mutableReference else .reference)

def spell (f : Frame) (part : Text) : Text :=
  match f with
  | plain l => l.spell part
  | borrowed a tight isMutable => a.borrow tight (referred isMutable part)

/-- The layer that is left when the lifetime is ignored. -/
def layer : Frame → Layer
  | plain l => l
  | borrowed _ _ isMutable => reference isMutable

theorem reference_spell (isMutable : Bool) (part : Text) :
    (reference isMutable).spell part = '&' :: referred isMutable part := by
  cases isMutable <;> rfl

theorem head_spell (f : Frame) (u : Text) : ∃ c ∈ Layer.heads, (f.spell u).head? = some c := by
  cases f with
  | borrowed a tight isMutable => exact ⟨'&', by decide, rfl⟩
  | plain l =>
    rcases l.before_head with ⟨d, listed, front, shape, -⟩
    exact ⟨d, listed, by rw [spell, Layer.spell_eq, shape]; rfl⟩

theorem isPiece_spell (f : Frame) {u : Text} (piece : IsPiece u) : IsPiece (f.spell u) := by
  cases f with
  | plain l => exact l.isPiece_spell piece
  | borrowed a tight isMutable => exact a.isPiece_borrow tight (isPiece_referred piece isMutable)

/-- Around parts that begin alike a frame writes the same text. -/
theorem exists_around (f : Frame) (c : Char) : ∃ d front back, isBlank d = false ∧
    (∀ e ∈ front.head?, isBlank e = false) ∧
      ∀ u : Text, u.head? = some c → f.spell u = d :: (front ++ u ++ back) := by
  cases f with
  | plain l =>
    rcases l.before_head with ⟨d, listed, front, shape, solid⟩
    have visible : isBlank d = false := (by decide : ∀ e ∈ Layer.heads, isBlank e = false) d listed
    refine ⟨d, front, l.behind, visible, solid, fun u _ => ?_⟩
    rw [spell, Layer.spell_eq, shape]
    simp
  | borrowed a tight isMutable =>
    cases isMutable with
    | false =>
      refine ⟨'&', a.mark tight [c], [], by decide, by simp [Lifetime.mark]; decide, fun u first => ?_⟩
      rw [spell, referred, Lifetime.borrow, if_neg (by decide), a.mark_congr tight first]
      simp
    | true =>
      refine ⟨'&', a.mark tight ['m'] ++ "mut ".toList, [], by decide, by simp [Lifetime.mark]; decide,
        fun u _ => ?_⟩
      have first : ("mut ".toList ++ u).head? = some 'm' := rfl
      rw [spell, referred, Lifetime.borrow, if_pos rfl, a.mark_congr tight first, List.append_nil,
        List.append_assoc]

theorem exists_around_all {fs : List Frame} (filled : fs ≠ []) (c : Char) : ∃ d front back,
    isBlank d = false ∧ (∀ e ∈ front.head?, isBlank e = false) ∧
      ∀ u : Text, u.head? = some c → fs.foldr Frame.spell u = d :: (front ++ u ++ back) := by
  induction fs with
  | nil => exact absurd rfl filled
  | cons f fs ih =>
    cases fs with
    | nil => exact f.exists_around c
    | cons g fs =>
      rcases ih (List.cons_ne_nil g fs) with ⟨d, front, back, inside, -, shape⟩
      rcases f.exists_around d with ⟨e, lead, rest, visible, solid, outer⟩
      refine ⟨e, lead ++ d :: front, back ++ rest, visible, solid_append solid (by simpa using inside), ?_⟩
      intro u first
      rw [List.foldr_cons, outer _ (by rw [shape u first]; rfl), shape u first]
      simp

/-- Behind a frame a lifetime does not change which library type the whole text is read as. -/
theorem wellKnown?_frames {fs : List Frame} (filled : fs ≠ []) (a : Lifetime) (tight : Bool) {target : Text}
    (referent : IsReferent target) : wellKnown? (fs.foldr Frame.spell (a.borrow tight target)) =
      wellKnown? (fs.foldr Frame.spell ('&' :: target)) := by
  rcases exists_around_all filled '&' with ⟨d, front, back, visible, solid, shape⟩
  have head : ∀ c ∈ (target ++ back).head?, isBlank c = false := by
    rcases referent with ⟨c, first, plain, -⟩
    intro e found
    rw [List.head?_append, first, Option.some_or] at found
    obtain rfl : c = e := Option.some.inj found
    exact plain
  have marked := wellKnown?_congr visible solid (a.mark_clean tight target) head
  rw [shape _ rfl, shape _ rfl, Lifetime.borrow]
  simpa using marked

end Frame

/-- A type with something around a part. -/
structure IsFramed (u : Text) : Prop where
  isPiece : IsPiece u
  head : ∃ c ∈ Layer.heads, u.head? = some c

namespace IsFramed

variable {u : Text}

theorem spelled (f : Frame) (piece : IsPiece u) : IsFramed (f.spell u) where
  isPiece := f.isPiece_spell piece
  head := f.head_spell u

theorem frames (framed : IsFramed u) (fs : List Frame) : IsFramed (fs.foldr Frame.spell u) := by
  induction fs with
  | nil => exact framed
  | cons f fs ih => exact spelled f ih.isPiece

theorem isReferent (framed : IsFramed u) : IsReferent u := by
  rcases framed.head with ⟨c, listed, first⟩
  have marks : isBlank c = false ∧ c ≠ '\'' :=
    (by decide : ∀ d ∈ Layer.heads, isBlank d = false ∧ d ≠ '\'') c listed
  exact ⟨c, first, marks⟩

theorem isPart (framed : IsFramed u) : IsPart u := by
  rcases framed.head with ⟨c, listed, first⟩
  have other : c ≠ '\'' ∧ c ≠ 'm' ∧ c ≠ 's' :=
    (by decide : ∀ d ∈ Layer.heads, d ≠ '\'' ∧ d ≠ 'm' ∧ d ≠ 's') c listed
  refine ⟨framed.isPiece, IsTarget.of_head fun d found => ?_, fun same => ?_⟩
  · obtain rfl : c = d := Option.some.inj (first.symm.trans found)
    exact ⟨other.1, other.2.1⟩
  · rw [same] at first
    exact other.2.2 (Option.some.inj first).symm

theorem not_isBarePath (framed : IsFramed u) (isMutable : Bool) : ¬IsBarePath (referred isMutable u) := by
  cases isMutable with
  | true => exact not_isBarePath_mut u
  | false =>
    intro bare
    rcases framed.head with ⟨c, listed, first⟩
    rcases bare.head framed.isReferent.solid with ⟨d, path, start⟩
    obtain rfl : c = d := Option.some.inj (first.symm.trans start)
    exact (by decide : ∀ e ∈ Layer.heads, e ∉ ['P', 'D']) c listed path

theorem reference {target : Text} (piece : IsPiece target) : IsFramed ('&' :: target) :=
  spelled (.plain (.wrapper .reference)) piece

end IsFramed

theorem Lifetime.isFramed_borrow (a : Lifetime) (tight : Bool) {target : Text} (piece : IsPiece target) :
    IsFramed (a.borrow tight target) :=
  IsFramed.spelled (.borrowed a tight false) piece

/-! Where a lifetime changes the literal of a type and the assertion on it.

The lifetime of a reference is lost to the rule for library types. It changes the literal only where a bare
path is referred to and each frame around the reference goes on to its part. -/

theorem stripGeneric?_ampersand {outer u : Text} (filled : outer ≠ []) (apart : outer.head? ≠ some '&')
    (first : u.head? = some '&') : stripGeneric? u outer = none := by
  rcases List.head?_eq_some_iff.mp first with ⟨r, rfl⟩
  rcases trim_cons_solid r (by decide : isBlank '&' = false) with ⟨rest, shape⟩
  rcases List.exists_cons_of_ne_nil filled with ⟨c, outer, rfl⟩
  have other : c ≠ '&' := fun same => apart (congrArg some same)
  simp [stripGeneric?, shape, dropPrefix?, other]

/-- Only the text of `&str` is a built-in type that begins with an ampersand. -/
theorem primitive?_ampersand {u t : Text} (dropped : dropLifetime u = '&' :: t) :
    primitive? u = if t = "str".toList then some "\"test\"".toList else none := by
  by_cases text : t = "str".toList
  · rw [if_pos text, primitive?, dropped, text]
    rfl
  · have notText : '&' :: t ≠ "&str".toList := fun same => text (List.tail_eq_of_cons_eq same)
    have notUnit : '&' :: t ≠ "()".toList := fun same => by cases List.head_eq_of_cons_eq same
    rw [if_neg text, primitive?_dropped dropped notText notUnit]
    exact lookup_primitiveLiterals_of_mark List.mem_cons_self (by decide)

/-- The literal of a reference that is no library type, from what its ampersand refers to. -/
def referenceLiteral (literalOf : Text → Except LiteralError Text) (t : Text) : Except LiteralError Text :=
  if t = "str".toList then .ok "\"test\"".toList
  else match dropPrefix? "mut ".toList (trim t) with
    | some rest => (literalOf (trim rest)).map mutableBorrowLiteral
    | none => (literalOf (trim t)).map borrowLiteral

/-- Past the rule for library types, only what is left behind the lifetime counts. -/
theorem literalWithin_ampersand (level : Nat) {u t : Text} (dropped : dropLifetime u = '&' :: t) :
    literalWithin (fun _ => none) (level + 1) u =
      match wellKnown? u with
      | some literal => .ok literal
      | none => referenceLiteral (literalWithin (fun _ => none) level) t := by
  have first : u.head? = some '&' := by
    by_cases reference : u.head? = some '&'
    · exact reference
    · rw [dropLifetime_of_head fun c found same => reference (same ▸ found)] at dropped
      exact congrArg List.head? dropped
  have primitive := primitive?_ampersand dropped
  have stripped : ∀ outer ∈ wrapperNames, stripGeneric? u outer = none := by
    intro outer listed
    have names : outer ≠ [] ∧ outer.head? ≠ some '&' :=
      (by decide : ∀ w ∈ wrapperNames, w ≠ [] ∧ w.head? ≠ some '&') outer listed
    exact stripGeneric?_ampersand names.1 names.2 first
  have parts : referenceParts? u = match dropPrefix? "mut ".toList (trim t) with
      | some rest => some ("&mut ".toList, trim rest)
      | none => some (['&'], trim t) := by
    rw [referenceParts?, dropped]
    rfl
  rw [literalWithin, referenceLiteral]
  simp only [primitive, stripped "Option".toList (by decide), stripped "Result".toList (by decide),
    stripped "Vec".toList (by decide), parts]
  cases wellKnown? u with
  | some literal => rfl
  | none =>
    by_cases text : t = "str".toList
    · rw [if_pos text, if_pos text]
    · rw [if_neg text, if_neg text]
      dsimp only
      cases dropPrefix? "mut ".toList (trim t) with
      | some rest =>
        dsimp only
        cases literalWithin (fun _ => none) level (trim rest) <;> rfl
      | none =>
        dsimp only
        cases literalWithin (fun _ => none) level (trim t) <;> rfl

/-- A reference to anything but `str` is borrowed. -/
theorem head_referenceLiteral {literalOf : Text → Except LiteralError Text} {t value : Text}
    (other : t ≠ "str".toList) (found : referenceLiteral literalOf t = .ok value) :
    value.head? = some '&' := by
  rw [referenceLiteral, if_neg other] at found
  split at found
  · rcases map_eq_ok.mp found with ⟨part, -, rfl⟩
    rfl
  · rcases map_eq_ok.mp found with ⟨part, -, rfl⟩
    rfl

namespace Lifetime

variable (a : Lifetime) (tight : Bool) (level : Nat) {target : Text} (referent : IsReferent target)

include referent

theorem literalWithin_borrow (kept : ¬IsBarePath target) :
    literalWithin (fun _ => none) (level + 1) (a.borrow tight target) =
      literalWithin (fun _ => none) (level + 1) ('&' :: target) := by
  rw [literalWithin_ampersand level (dropLifetime_reference referent.quote),
    literalWithin_ampersand level (a.dropLifetime_borrow tight referent.solid),
    a.wellKnown?_borrow tight referent.solid kept]

theorem literalWithin_bare (bare : IsBarePath target) {value : Text}
    (found : literalWithin (fun _ => none) level ('&' :: target) = .ok value) :
    literalWithin (fun _ => none) level (a.borrow tight target) ≠ .ok value := by
  cases level with
  | zero => cases found
  | succ level =>
    rcases a.wellKnown?_bare tight referent.solid bare with ⟨hidden, literal, known⟩
    rw [literalWithin_wellKnown level rfl known] at found
    intro same
    rw [literalWithin_ampersand level (a.dropLifetime_borrow tight referent.solid), hidden] at same
    have ampersand := head_referenceLiteral bare.ne_str same
    rcases head_wellKnown? known with ⟨c, listed, first⟩
    rw [← Except.ok.inj found, first] at ampersand
    obtain rfl : c = '&' := Option.some.inj ampersand
    exact absurd listed (by decide)

end Lifetime

/-- Unless the whole is read as a library type, the literal of a frame is that of its layer. -/
theorem literalWithin_frame (level : Nat) (f : Frame) {u : Text} (framed : IsFramed u)
    (unknown : wellKnown? (f.spell u) = none) : literalWithin (fun _ => none) (level + 1) (f.spell u) =
      f.layer.onward (literalWithin (fun _ => none) level) (literalWithin (fun _ => none) level u) := by
  cases f with
  | plain l => exact literalWithin_layer level l framed.isPart unknown
  | borrowed a tight isMutable =>
    have referent := framed.isReferent.referred isMutable
    have kept := framed.not_isBarePath isMutable
    have bare : wellKnown? ((Frame.reference isMutable).spell u) = none := by
      rw [Frame.reference_spell, ← a.wellKnown?_borrow tight referent.solid kept]
      exact unknown
    have read := literalWithin_layer level (Frame.reference isMutable) framed.isPart bare
    rw [Frame.reference_spell] at read
    exact (a.literalWithin_borrow tight level referent kept).trans read

/-- Whether a lifetime hides what is referred to from the rule for library types, by the frames around the
reference. Each frame must go on to its part and not be read as a library type itself. -/
def Hides (target : Text) : List Frame → Prop
  | [] => IsBarePath target
  | f :: fs => f.layer.visitsPart = true ∧ wellKnown? ((f :: fs).foldr Frame.spell ('&' :: target)) = none ∧
      Hides target fs

theorem not_hides_mut (type : Text) (fs : List Frame) : ¬Hides (referred true type) fs := by
  induction fs with
  | nil => exact not_isBarePath_mut type
  | cons f fs ih => exact fun hides => ih hides.2.2

section Frames

variable (a : Lifetime) (tight : Bool) {target : Text} (referent : IsReferent target)
  {fs : List Frame} (piece : fs ≠ [] → IsPiece target)

include referent piece

theorem literalWithin_kept (kept : ¬Hides target fs) (level : Nat) :
    (literalWithin (fun _ => none) level (fs.foldr Frame.spell (a.borrow tight target))).toOption =
      (literalWithin (fun _ => none) level (fs.foldr Frame.spell ('&' :: target))).toOption := by
  induction fs generalizing level with
  | nil =>
    cases level with
    | zero => rfl
    | succ level =>
      rw [List.foldr_nil, List.foldr_nil, a.literalWithin_borrow tight level referent kept]
  | cons f fs ih =>
    cases level with
    | zero => rfl
    | succ level =>
      have whole : IsPiece target := piece (List.cons_ne_nil f fs)
      have read := Frame.wellKnown?_frames (List.cons_ne_nil f fs) a tight referent
      cases known : wellKnown? ((f :: fs).foldr Frame.spell ('&' :: target)) with
      | some literal =>
        rw [literalWithin_wellKnown level rfl known, literalWithin_wellKnown level rfl (read.trans known)]
      | none =>
        have bare := literalWithin_frame level f ((IsFramed.reference whole).frames fs) known
        have marked := literalWithin_frame level f ((a.isFramed_borrow tight whole).frames fs)
          (read.trans known)
        rw [List.foldr_cons, List.foldr_cons, bare, marked]
        apply f.layer.onward_congr
        intro visits
        exact ih (fun _ => whole) (fun hides => kept ⟨visits, known, hides⟩) level

theorem literalWithin_hidden (hides : Hides target fs) {level : Nat} {value : Text}
    (found : literalWithin (fun _ => none) level (fs.foldr Frame.spell ('&' :: target)) = .ok value) :
    literalWithin (fun _ => none) level (fs.foldr Frame.spell (a.borrow tight target)) ≠ .ok value := by
  induction fs generalizing level value with
  | nil => exact a.literalWithin_bare tight level referent hides found
  | cons f fs ih =>
    cases level with
    | zero => cases found
    | succ level =>
      rcases hides with ⟨visits, unread, inner⟩
      have whole : IsPiece target := piece (List.cons_ne_nil f fs)
      have read := Frame.wellKnown?_frames (List.cons_ne_nil f fs) a tight referent
      have bare := literalWithin_frame level f ((IsFramed.reference whole).frames fs) unread
      have marked := literalWithin_frame level f ((a.isFramed_borrow tight whole).frames fs)
        (read.trans unread)
      rw [List.foldr_cons, bare] at found
      rw [List.foldr_cons, marked]
      intro same
      rcases Layer.onward_injective visits found same with ⟨part, here, there⟩
      exact ih (fun _ => whole) inner here there

end Frames

/-- The assertion looks behind the lifetime for everything but the type that it quotes. -/
theorem assertionOfNormal_congr {u v : Text} (same : dropLifetime u = dropLifetime v) :
    assertionOfNormal u = assertionOfNormal v ∨
      assertionOfNormal u = Assertion.manual u ∧ assertionOfNormal v = Assertion.manual v := by
  simp only [assertionOfNormal, same]
  cases wellKnownAssertion? (dropLifetime v) with
  | some assertion => exact .inl rfl
  | none =>
    rw [Option.getD_none, Option.getD_none]
    split_ifs <;> first | exact .inl rfl | exact .inr ⟨rfl, rfl⟩

/-- A lifetime whose name is not all of word characters is not dropped. -/
theorem dropLifetime_nonword {name : Text} (visible : ∀ c ∈ name, isBlank c = false)
    (nonword : ∃ c ∈ name, isWord c = false) : ∃ t,
      dropLifetime ('&' :: '\'' :: (name ++ " str".toList)) = '&' :: t ∧ t ≠ "str".toList := by
  cases left : name.dropWhile isWord with
  | nil =>
    rcases nonword with ⟨c, member, other⟩
    have word : isWord c = true := List.dropWhile_eq_nil_iff.mp left c member
    rw [other] at word
    cases word
  | cons c rest =>
    have inside : c ∈ name := (List.dropWhile_sublist isWord).mem (left ▸ List.mem_cons_self)
    have stopped : (name ++ " str".toList).dropWhile isWord = c :: (rest ++ " str".toList) := by
      rw [List.dropWhile_append, left]
      rfl
    have kept : trimStart (c :: (rest ++ " str".toList)) = c :: (rest ++ " str".toList) :=
      List.dropWhile_cons_of_neg (by simp [visible c inside])
    by_cases first : (name ++ " str".toList).head?.any isWord = true
    · refine ⟨c :: (rest ++ " str".toList), ?_, fun same => ?_⟩
      · rw [dropLifetime, if_pos first, stopped, kept]
      · have length := congrArg List.length same
        simp at length
    · refine ⟨'\'' :: (name ++ " str".toList), ?_, fun same => ?_⟩
      · rw [dropLifetime, if_neg first]
      · cases List.head_eq_of_cons_eq same

theorem literalWithin_nonword (level : Nat) {name : Text} (visible : ∀ c ∈ name, isBlank c = false)
    (nonword : ∃ c ∈ name, isWord c = false) :
    literalWithin (fun _ => none) (level + 1) ('&' :: '\'' :: (name ++ " str".toList)) ≠
      .ok "\"test\"".toList := by
  rcases dropLifetime_nonword visible nonword with ⟨t, dropped, other⟩
  rw [literalWithin_ampersand level dropped]
  cases known : wellKnown? ('&' :: '\'' :: (name ++ " str".toList)) with
  | some literal =>
    intro same
    rcases head_wellKnown? known with ⟨c, listed, first⟩
    rw [Except.ok.inj same] at first
    obtain rfl : '"' = c := Option.some.inj first
    exact absurd listed (by decide)
  | none =>
    intro same
    cases head_referenceLiteral other same

/-- A lifetime of word characters changes the literal of a type exactly where it hides a bare path. It never
does in a mutable reference. The assertion is changed only in the type it quotes. A name with another
character, such as a combining mark, is not even dropped in front of `str`. -/
theorem literal_lifetime (isMutable : Bool) (frames : List Frame) {type : Text} (referent : IsReferent type)
    (piece : frames ≠ [] → IsPiece type) :
    (∀ (a : Lifetime) (tight : Bool) (u v : Text),
      normalize u = frames.foldr Frame.spell (a.borrow tight (referred isMutable type)) →
      normalize v = frames.foldr Frame.spell ('&' :: referred isMutable type) →
      (isMutable = true ∨ ¬Hides (referred isMutable type) frames →
        (literal (fun _ => none) u).toOption = (literal (fun _ => none) v).toOption) ∧
      (Hides (referred isMutable type) frames → ∀ value, literal (fun _ => none) v = .ok value →
        literal (fun _ => none) u ≠ .ok value) ∧
      (frames = [] → assertion u = assertion v ∨
        assertion u = Assertion.manual (normalize u) ∧ assertion v = Assertion.manual (normalize v))) ∧
    ∀ name : Text, (∀ c ∈ name, isBlank c = false) → (∃ c ∈ name, isWord c = false) → ∀ u,
      normalize u = '&' :: '\'' :: (name ++ " str".toList) →
        literal (fun _ => none) u ≠ literal (fun _ => none) "&str".toList := by
  have target := referent.referred isMutable
  have whole : frames ≠ [] → IsPiece (referred isMutable type) := fun filled =>
    isPiece_referred (piece filled) isMutable
  constructor
  · intro a tight u v marked bare
    rw [literal, literal, assertion, assertion, marked, bare]
    refine ⟨fun kept => ?_, fun hides value found => ?_, fun alone => ?_⟩
    · apply literalWithin_kept a tight target whole _ Literal.levels
      rcases kept with mutable | kept
      · rw [mutable]
        exact not_hides_mut type frames
      · exact kept
    · exact literalWithin_hidden a tight target whole hides found
    · rw [alone, List.foldr_nil, List.foldr_nil]
      apply assertionOfNormal_congr
      rw [a.dropLifetime_borrow tight target.solid, dropLifetime_reference target.quote]
  · intro name visible nonword u shape
    have text : literal (fun _ => none) "&str".toList = .ok "\"test\"".toList := by decide
    rw [text, literal, shape]
    exact literalWithin_nonword 32 visible nonword

def letterLifetime : Lifetime := ⟨['a'], by decide, by decide⟩

/-- A lifetime hides `Path` itself, and not what else is referred to. -/
theorem literal_lifetime_path :
    literal (fun _ => none) "&'a Path".toList ≠ literal (fun _ => none) "&Path".toList ∧
      (literal (fun _ => none) "Option<&'a str>".toList).toOption =
        (literal (fun _ => none) "Option<&str>".toList).toOption ∧
      (literal (fun _ => none) "&'a mut Path".toList).toOption =
        (literal (fun _ => none) "&mut Path".toList).toOption ∧
      literal (fun _ => none) "&'e\u0301 str".toList ≠ literal (fun _ => none) "&str".toList := by
  have path : IsReferent "Path".toList := ⟨'P', by decide, by decide, by decide⟩
  have text : IsReferent "str".toList := ⟨'s', by decide, by decide, by decide⟩
  have bare := literal_lifetime false [] path (by simp)
  have changed := (bare.1 letterLifetime false "&'a Path".toList "&Path".toList (by decide) (by decide)).2.1
  have inside := literal_lifetime false [.plain (.wrapper .option)] text
    (fun _ => IsPiece.names (by decide) (by decide))
  have unchanged := (inside.1 letterLifetime false "Option<&'a str>".toList "Option<&str>".toList (by decide)
    (by decide)).1
  have mutable := literal_lifetime true [] path (by simp)
  have same := (mutable.1 letterLifetime false "&'a mut Path".toList "&mut Path".toList (by decide)
    (by decide)).1
  have kept : ¬Hides (referred false "str".toList) [.plain (.wrapper .option)] := fun hides =>
    IsBarePath.ne_str hides.2.2 rfl
  have value : literal (fun _ => none) "&Path".toList = .ok "std::path::Path::new(\".\")".toList := by decide
  refine ⟨?_, unchanged (.inr kept), same (.inl rfl), ?_⟩
  · rw [value]
    exact changed (.inl rfl) _ value
  · exact bare.2 "e\u0301".toList (by decide +kernel) ⟨'\u0301', by decide, by decide +kernel⟩ _
      (by decide +kernel)

end TestSkeleton.Rust
