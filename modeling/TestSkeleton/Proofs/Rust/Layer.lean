import TestSkeleton.Proofs.Rust.TypeRules

/-! Types around one part, layer by layer.

A layer is what one type former writes around a part: its brackets or marks, and the neighbours of the
part between them. -/

namespace TestSkeleton.Rust

open Text Signature TypeTerm

/-- A text that reads as one type. -/
structure Piece where
  text : Text
  isPiece : IsPiece text

/-- Type formers that make a literal from the literal of one part. -/
inductive Wrapper where
  | reference
  | mutableReference
  | option
  | result
  | resultOr (error : Piece)
  | vec
  | array (length : ArrayLength)
  | slice

namespace Wrapper

/-- The type around a part, in normal spelling. -/
def spell (w : Wrapper) (part : Text) : Text :=
  match w with
  | reference => '&' :: part
  | mutableReference => '&' :: ("mut ".toList ++ part)
  | option => applied optionName [part]
  | result => applied resultName [part]
  | resultOr error => applied resultName [part, error.text]
  | vec => applied vecName [part]
  | array length => ['['] ++ part ++ [';', ' '] ++ length.text ++ [']']
  | slice => ['['] ++ part ++ [']']

/-- The literal around the literal of the part. -/
def literal (w : Wrapper) (inner : Text) : Text :=
  match w with
  | reference => borrowLiteral inner
  | mutableReference => mutableBorrowLiteral inner
  | option => someLiteral inner
  | result | resultOr _ => okLiteral inner
  | vec => vecLiteral inner
  | array length => ['['] ++ inner ++ [';', ' '] ++ length.text ++ [']']
  | slice => ['['] ++ inner ++ [']']

/-- What a wrapper writes begins with one of these. -/
def literalHeads : Text := ['&', 'S', 'O', 'v', '[']

/-- The literal of the part stands in a frame that begins with one of a few characters. -/
theorem literal_eq (w : Wrapper) :
    ∃ mark ∈ literalHeads, ∃ front back, ∀ inner, w.literal inner = mark :: (front ++ inner ++ back) := by
  cases w with
  | reference => exact ⟨'&', by decide, "\x7b ".toList, " \x7d".toList, fun _ => rfl⟩
  | mutableReference => exact ⟨'&', by decide, "mut \x7b ".toList, " \x7d".toList, fun _ => rfl⟩
  | option => exact ⟨'S', by decide, "ome(".toList, [')'], fun _ => rfl⟩
  | result => exact ⟨'O', by decide, "k(".toList, [')'], fun _ => rfl⟩
  | resultOr error => exact ⟨'O', by decide, "k(".toList, [')'], fun _ => rfl⟩
  | vec => exact ⟨'v', by decide, "ec![".toList, [']'], fun _ => rfl⟩
  | array length =>
    exact ⟨'[', by decide, [], [';', ' '] ++ length.text ++ [']'], fun _ => by simp [literal]⟩
  | slice => exact ⟨'[', by decide, [], [']'], fun _ => rfl⟩

theorem literal_injective (w : Wrapper) {inner other : Text} (same : w.literal inner = w.literal other) :
    inner = other := by
  obtain ⟨mark, -, front, back, shape⟩ := w.literal_eq
  rw [shape, shape] at same
  exact List.append_cancel_left (List.append_cancel_right (List.cons.inj same).2)

theorem isPiece_spell (w : Wrapper) {u : Text} (piece : IsPiece u) : IsPiece (w.spell u) := by
  cases w with
  | reference => exact piece.referred (by simp : ['&'] ∈ _)
  | mutableReference => exact piece.referred (by simp : ['&', 'm', 'u', 't', ' '] ∈ _)
  | option => exact IsPiece.applied (by decide) (by simpa using piece)
  | result => exact IsPiece.applied (by decide) (by simpa using piece)
  | resultOr error => exact IsPiece.applied (by decide) (by simpa using ⟨piece, error.isPiece⟩)
  | vec => exact IsPiece.applied (by decide) (by simpa using piece)
  | array length => exact piece.array length
  | slice => exact piece.slice

def isReference : Wrapper → Bool
  | reference | mutableReference => true
  | _ => false

theorem head_spell (w : Wrapper) (u : Text) (other : w.isReference = false) :
    ∃ c ∈ ['O', 'R', 'V', '['], (w.spell u).head? = some c := by
  cases w with
  | reference | mutableReference => cases other
  | option => exact ⟨'O', by decide, by rw [spell, applied_eq]; rfl⟩
  | result | resultOr error => exact ⟨'R', by decide, by rw [spell, applied_eq]; rfl⟩
  | vec => exact ⟨'V', by decide, by rw [spell, applied_eq]; rfl⟩
  | array length | slice => exact ⟨'[', by decide, rfl⟩

theorem lookup_spell (w : Wrapper) (u : Text) (other : w.isReference = false) :
    wellKnownTypes.lookup (lastSegment (baseName (w.spell u))) = none := by
  have square : ∀ r : Text, baseName ('[' :: r) = [] := by
    intro r
    rw [baseName_eq_trim_takeWhile, List.takeWhile_cons_of_neg (by decide)]
    rfl
  have arguments : ∀ name ∈ wrapperNames, ∀ us,
      wellKnownTypes.lookup (lastSegment (baseName (applied name us))) = none := by
    intro name listed us
    obtain ⟨names, unknown⟩ := (by decide : ∀ w ∈ wrapperNames,
      (∀ c ∈ w, isNameChar c = true) ∧ wellKnownTypes.lookup (lastSegment w) = none) name listed
    rw [applied_eq, baseName_append names (by simp), unknown]
  cases w with
  | reference | mutableReference => cases other
  | option => exact arguments _ (by decide) _
  | result => exact arguments _ (by decide) _
  | resultOr error => exact arguments _ (by decide) _
  | vec => exact arguments _ (by decide) _
  | array length =>
    rw [show (array length).spell u = '[' :: (u ++ [';', ' '] ++ length.text ++ [']']) from rfl, square]
    rfl
  | slice =>
    rw [show slice.spell u = '[' :: (u ++ [']']) from rfl, square]
    rfl

/-- No wrapper but a reference is read as a library type. -/
theorem wellKnown?_spell (w : Wrapper) (u : Text) (other : w.isReference = false) :
    wellKnown? (w.spell u) = none := by
  obtain ⟨c, listed, first⟩ := w.head_spell u other
  have plain : ∀ d ∈ (w.spell u).head?, d ≠ '&' := by
    rintro d found rfl
    obtain rfl : c = '&' := Option.some.inj (first.symm.trans found)
    exact absurd listed (by decide)
  rw [wellKnown?_eq plain, libraryLiteral?_of_lookup (w.lookup_spell u other)]

/-- Only a reference to `str` is spelled like one. -/
theorem spell_ne_text (w : Wrapper) {u : Text} (other : u ≠ "str".toList) : w.spell u ≠ "&str".toList := by
  cases w with
  | reference => exact fun same => other (List.tail_eq_of_cons_eq same)
  | mutableReference => exact fun same => by cases List.head_eq_of_cons_eq (List.tail_eq_of_cons_eq same)
  | option | result | resultOr error | vec =>
    intro same
    rw [spell, applied_eq] at same
    cases List.head_eq_of_cons_eq same
  | array length | slice => exact fun same => by cases List.head_eq_of_cons_eq same

theorem spell_ne_str (w : Wrapper) (u : Text) : w.spell u ≠ "str".toList := by
  cases w with
  | reference | mutableReference | array length | slice =>
    exact fun same => by cases List.head_eq_of_cons_eq same
  | option | result | resultOr error | vec =>
    intro same
    rw [spell, applied_eq] at same
    cases List.head_eq_of_cons_eq same

end Wrapper

theorem head?_tupleText (gap : Text) (us : List Text) : (tupleText gap us).head? = some '(' := by
  unfold tupleText
  split <;> rfl

/-- What stands around a part of a type: a wrapper, the success type of a `Result` whose error type the
part is, or the other parts of a tuple. -/
inductive Layer where
  | wrapper (w : Wrapper)
  | errorOf (success : Piece)
  | tuple (front back : List Piece)

namespace Layer

def spell (l : Layer) (part : Text) : Text :=
  match l with
  | wrapper w => w.spell part
  | errorOf success => applied resultName [success.text, part]
  | tuple front back => tupleText [' '] (front.map Piece.text ++ part :: back.map Piece.text)

theorem isPiece_parts (front back : List Piece) {u : Text} (piece : IsPiece u) :
    ∀ v ∈ front.map Piece.text ++ u :: back.map Piece.text, IsPiece v := by
  have all : ∀ ps : List Piece, ∀ v ∈ ps.map Piece.text, IsPiece v := by
    intro ps v member
    obtain ⟨p, -, rfl⟩ := List.mem_map.mp member
    exact p.isPiece
  intro v member
  rcases List.mem_append.mp member with before | behind
  · exact all front v before
  · rcases List.mem_cons.mp behind with rfl | after
    · exact piece
    · exact all back v after

theorem isPiece_spell (l : Layer) {u : Text} (piece : IsPiece u) : IsPiece (l.spell u) := by
  cases l with
  | wrapper w => exact w.isPiece_spell piece
  | errorOf success => exact IsPiece.applied (by decide) (by simpa using ⟨success.isPiece, piece⟩)
  | tuple front back => exact IsPiece.tuple (isPiece_parts front back piece)

end Layer

/-- A text that an ampersand in front leaves as it is: it does not begin like a lifetime or like `mut`. -/
structure IsTarget (u : Text) : Prop where
  quote : ∀ c ∈ u.head?, c ≠ '\''
  notMut : dropPrefix? "mut ".toList u = none

/-- Any other first letter will do. -/
theorem IsTarget.of_head {u : Text} (other : ∀ c ∈ u.head?, c ≠ '\'' ∧ c ≠ 'm') : IsTarget u where
  quote c found := (other c found).1
  notMut := by
    cases u with
    | nil => rfl
    | cons c r =>
      have apart : ¬('m' = c) := fun same => (other c rfl).2 same.symm
      simp [dropPrefix?, apart]

theorem Wrapper.isTarget_spell (w : Wrapper) (u : Text) : IsTarget (w.spell u) := by
  apply IsTarget.of_head
  cases w <;> simp [spell, applied_eq] <;> decide

theorem Layer.isTarget_spell (l : Layer) (u : Text) : IsTarget (l.spell u) := by
  cases l with
  | wrapper w => exact w.isTarget_spell u
  | errorOf success => exact IsTarget.of_head (by simp [spell, applied_eq]; decide)
  | tuple front back =>
    apply IsTarget.of_head
    intro c found
    rw [spell, head?_tupleText] at found
    obtain rfl : '(' = c := Option.some.inj found
    decide

/-- A part of a type that each layer around it leads to. The exception is the text of `&str`. -/
structure IsPart (u : Text) : Prop where
  isPiece : IsPiece u
  isTarget : IsTarget u
  notText : u ≠ "str".toList

theorem IsPart.layered {u : Text} (part : IsPart u) (l : Layer) : IsPart (l.spell u) where
  isPiece := l.isPiece_spell part.isPiece
  isTarget := l.isTarget_spell u
  notText := by
    cases l with
    | wrapper w => exact w.spell_ne_str u
    | errorOf success =>
      intro same
      rw [Layer.spell, applied_eq] at same
      cases List.head_eq_of_cons_eq same
    | tuple front back =>
      intro same
      have first := head?_tupleText [' '] (front.map Piece.text ++ u :: back.map Piece.text)
      rw [show tupleText [' '] (front.map Piece.text ++ u :: back.map Piece.text) = "str".toList from same]
        at first
      cases first

theorem IsPart.layers {u : Text} (part : IsPart u) (ls : List Layer) : IsPart (ls.foldr Layer.spell u) := by
  induction ls with
  | nil => exact part
  | cons l ls ih => exact ih.layered l

end TestSkeleton.Rust
