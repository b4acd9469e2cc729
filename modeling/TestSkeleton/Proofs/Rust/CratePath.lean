import TestSkeleton.Proofs.Rust.LayerLiteral
import TestSkeleton.Proofs.Rust.LibraryPath

/-! Where the crate path of a library type changes the literal of the type around it.

A path changes nothing where the type stands alone or behind a bracket. It changes the literal where the
layers around the type, down to the type, are read as one path that ends in its name. -/

namespace TestSkeleton.Rust

open Text Signature TypeTerm

namespace Layer

/-- A layer whose literal is made from the literal of the part. -/
def visitsPart : Layer → Bool
  | errorOf _ => false
  | wrapper _ | tuple _ _ => true

/-- The literal of a layer from the literals of its parts. -/
def onward (l : Layer) (literalOf : Text → Except LiteralError Text) (inner : Except LiteralError Text) :
    Except LiteralError Text :=
  match l with
  | wrapper w => inner.map w.literal
  | errorOf success => (literalOf success.text).map okLiteral
  | tuple front back => do
    let before ← (front.map Piece.text).mapM literalOf
    let here ← inner
    let after ← (back.map Piece.text).mapM literalOf
    return tupleText [] (before ++ here :: after)

/-- What a tuple puts around one of its parts. -/
theorem tupleText_frame (gap : Text) (before after : List Text) :
    ∃ front back, ∀ u, tupleText gap (before ++ u :: after) = '(' :: (front ++ u ++ back) := by
  by_cases alone : before = [] ∧ after = []
  · obtain ⟨rfl, rfl⟩ := alone
    exact ⟨[], [','] ++ gap ++ [')'], fun u => by simp [tupleText]⟩
  · exact ⟨_, _, tupleText_append_cons gap alone⟩

/-- A layer that visits the part puts a frame around its literal, unless a neighbour has none. -/
theorem onward_frame {l : Layer} (visits : l.visitsPart = true)
    (literalOf : Text → Except LiteralError Text) :
    (∀ inner, (l.onward literalOf inner).toOption = none) ∨
      ∃ mark ∈ '(' :: Wrapper.literalHeads, ∃ front back, ∀ inner,
        (l.onward literalOf inner).toOption = inner.toOption.map fun a => mark :: (front ++ a ++ back) := by
  cases l with
  | errorOf success => cases visits
  | wrapper w =>
    obtain ⟨mark, listed, front, back, shape⟩ := w.literal_eq
    refine Or.inr ⟨mark, List.mem_cons_of_mem _ listed, front, back, fun inner => ?_⟩
    cases inner with
    | error e => rfl
    | ok a => exact congrArg some (shape a)
  | tuple front back =>
    cases before : (front.map Piece.text).mapM literalOf with
    | error e => exact Or.inl fun inner => by rw [onward, before]; rfl
    | ok us =>
      cases after : (back.map Piece.text).mapM literalOf with
      | error e =>
        refine Or.inl fun inner => ?_
        rw [onward, before, after]
        cases inner <;> rfl
      | ok vs =>
        obtain ⟨lead, rest, shape⟩ := tupleText_frame [] us vs
        refine Or.inr ⟨'(', by simp, lead, rest, fun inner => ?_⟩
        rw [onward, before, after]
        cases inner with
        | error e => rfl
        | ok a => exact congrArg some (shape a)

/-- Where the part is not visited its literal does not matter. -/
theorem onward_congr (l : Layer) (literalOf : Text → Except LiteralError Text)
    {inner other : Except LiteralError Text} (same : l.visitsPart = true → inner.toOption = other.toOption) :
    (l.onward literalOf inner).toOption = (l.onward literalOf other).toOption := by
  cases visits : l.visitsPart with
  | false =>
    cases l with
    | errorOf success => rfl
    | wrapper w => cases visits
    | tuple front back => cases visits
  | true =>
    rcases onward_frame visits literalOf with failed | ⟨mark, -, front, back, shape⟩
    · rw [failed, failed]
    · rw [shape, shape, same visits]

section Found

variable {l : Layer} (visits : l.visitsPart = true) {literalOf : Text → Except LiteralError Text}
  {inner other : Except LiteralError Text} {value : Text}

include visits

theorem exists_onward_frame (found : l.onward literalOf inner = .ok value) :
    ∃ mark ∈ '(' :: Wrapper.literalHeads, ∃ front back part, inner = .ok part ∧
      value = mark :: (front ++ part ++ back) ∧ ∀ other, (l.onward literalOf other).toOption =
        other.toOption.map fun a => mark :: (front ++ a ++ back) := by
  rcases onward_frame visits literalOf with failed | ⟨mark, listed, front, back, shape⟩
  · have none := failed inner
    rw [found] at none
    cases none
  · have framed := shape inner
    rw [found] at framed
    cases inner with
    | error e => cases framed
    | ok part => exact ⟨mark, listed, front, back, part, rfl, Option.some.inj framed, shape⟩

theorem onward_head (found : l.onward literalOf inner = .ok value) :
    ∃ c ∈ '(' :: Wrapper.literalHeads, value.head? = some c := by
  obtain ⟨mark, listed, front, back, part, -, rfl, -⟩ := exists_onward_frame visits found
  exact ⟨mark, listed, rfl⟩

/-- A layer that visits the part tells the literals of the part apart. -/
theorem onward_injective (found : l.onward literalOf inner = .ok value)
    (same : l.onward literalOf other = .ok value) : ∃ part, inner = .ok part ∧ other = .ok part := by
  obtain ⟨mark, -, front, back, part, rfl, rfl, shape⟩ := exists_onward_frame visits found
  have framed := shape other
  rw [same] at framed
  cases other with
  | error e => cases framed
  | ok part' =>
    have whole := List.tail_eq_of_cons_eq (Option.some.inj framed)
    obtain rfl : part = part' := List.append_cancel_left (List.append_cancel_right whole)
    exact ⟨part, rfl, rfl⟩

end Found

end Layer

/-- Unless a layer with its part is read as a library type, its literal is made from those of its parts. -/
theorem literalWithin_layer (level : Nat) (l : Layer) {u : Text} (part : IsPart u)
    (unknown : wellKnown? (l.spell u) = none) :
    literalWithin (fun _ => none) (level + 1) (l.spell u) =
      l.onward (literalWithin (fun _ => none) level) (literalWithin (fun _ => none) level u) := by
  cases l with
  | wrapper w => exact literalWithin_part level w part rfl unknown
  | errorOf success =>
    exact literalWithin_resultOf level (by simpa using ⟨success.isPiece, part.isPiece⟩) rfl
  | tuple front back =>
    have pieces := Layer.isPiece_parts front back part.isPiece
    rw [Layer.spell, literalWithin_tupleText level (by simp) pieces rfl unknown, List.mapM_append,
      List.mapM_cons, Layer.onward]
    cases (front.map Piece.text).mapM (literalWithin (fun _ => none) level) with
    | error e => rfl
    | ok before =>
      cases literalWithin (fun _ => none) level u with
      | error e => rfl
      | ok here => cases (back.map Piece.text).mapM (literalWithin (fun _ => none) level) <;> rfl

namespace LibraryType

/-- Whether a crate path changes the literal of a type, by the layers from the outermost to the library
type. The layers that are swallowed must be visited, and no type on the way may be read as another library
type. -/
def Changes (k : LibraryType) : List Layer → Prop
  | [] => False
  | l :: ls => k.Swallows (l :: ls) ∨
      l.visitsPart = true ∧ wellKnown? ((l :: ls).foldr Layer.spell k.text) = none ∧ k.Changes ls

variable {k : LibraryType} {ls : List Layer}

theorem literalWithin_unchanged (same : ¬k.Changes ls) (level : Nat) :
    (literalWithin (fun _ => none) level (ls.foldr Layer.spell k.qualified)).toOption =
      (literalWithin (fun _ => none) level (ls.foldr Layer.spell k.text)).toOption := by
  induction ls generalizing level with
  | nil =>
    cases level with
    | zero => rfl
    | succ level =>
      obtain ⟨literal, known⟩ := k.exists_wellKnown?
      rw [List.foldr_nil, List.foldr_nil, literalWithin_wellKnown level rfl known,
        literalWithin_wellKnown level rfl (k.wellKnown?_qualified.trans known)]
  | cons l ls ih =>
    cases level with
    | zero => rfl
    | succ level =>
      have kept : ¬k.Swallows (l :: ls) := fun swallows => same (Or.inl swallows)
      have read := wellKnown?_kept (List.cons_ne_nil l ls) kept
      cases known : wellKnown? ((l :: ls).foldr Layer.spell k.text) with
      | some literal =>
        rw [literalWithin_wellKnown level rfl known,
          literalWithin_wellKnown level rfl (read.trans known)]
      | none =>
        have bare := literalWithin_layer level l (k.isPart_text.layers ls) known
        have path := literalWithin_layer level l (k.isPart_qualified.layers ls) (read.trans known)
        rw [List.foldr_cons, List.foldr_cons, bare, path]
        apply l.onward_congr
        intro visits
        exact ih (fun changes => same (Or.inr ⟨visits, known, changes⟩)) level

/-- A swallowed layer is visited, as the error type of a `Result` stands behind a bracket. -/
theorem Swallows.visitsPart {l : Layer} (swallows : k.Swallows (l :: ls)) : l.visitsPart = true := by
  have open' : l.IsOpen := by
    obtain ⟨-, around⟩ := swallows
    cases k with
    | named name path listed => exact (around.1 l List.mem_cons_self).isOpen
    | dateTime arguments => exact around l List.mem_cons_self
  cases l with
  | errorOf success => cases open'
  | wrapper w => rfl
  | tuple front back => rfl

theorem literalWithin_changed (changes : k.Changes ls) {level : Nat} {value : Text}
    (found : literalWithin (fun _ => none) level (ls.foldr Layer.spell k.text) = .ok value) :
    literalWithin (fun _ => none) level (ls.foldr Layer.spell k.qualified) ≠ .ok value := by
  induction ls generalizing level value with
  | nil => cases changes
  | cons l ls ih =>
    cases level with
    | zero => cases found
    | succ level =>
      obtain ⟨visits, unread⟩ : l.visitsPart = true ∧
          wellKnown? ((l :: ls).foldr Layer.spell k.text) = none := by
        rcases changes with swallows | ⟨visits, unread, -⟩
        · exact ⟨swallows.visitsPart, (wellKnown?_swallowed swallows).1⟩
        · exact ⟨visits, unread⟩
      have bare := literalWithin_layer level l (k.isPart_text.layers ls) unread
      rw [List.foldr_cons, bare] at found
      intro same
      -- A layer that is swallowed makes the difference here, any other passes it on from the part.
      by_cases swallows : k.Swallows (l :: ls)
      · obtain ⟨-, literal, read⟩ := wellKnown?_swallowed swallows
        rw [literalWithin_wellKnown level rfl read] at same
        obtain ⟨c, head, first⟩ := head_wellKnown? read
        obtain ⟨d, listed, start⟩ := Layer.onward_head visits found
        rw [Except.ok.inj same, start] at first
        obtain rfl : d = c := Option.some.inj first
        have apart : ∀ e ∈ libraryHeads, e ∉ '(' :: Wrapper.literalHeads := by decide
        exact apart d head listed
      · obtain ⟨-, -, later⟩ := changes.resolve_left swallows
        have read := (wellKnown?_kept (List.cons_ne_nil l ls) swallows).trans unread
        rw [List.foldr_cons, literalWithin_layer level l (k.isPart_qualified.layers ls) read] at same
        obtain ⟨part, inner, other⟩ := Layer.onward_injective visits found same
        exact ih later inner other

end LibraryType

/-- A crate path in front of a library type changes the literal of the type around it exactly where the
layers between them say so. Elsewhere even a type that is too deep stays one. -/
theorem literal_qualified (k : LibraryType) (ls : List Layer) {u v : Text}
    (bare : normalize u = ls.foldr Layer.spell k.text)
    (path : normalize v = ls.foldr Layer.spell k.qualified) :
    (¬k.Changes ls → (literal (fun _ => none) v).toOption = (literal (fun _ => none) u).toOption) ∧
      (k.Changes ls → ∀ value, literal (fun _ => none) u = .ok value →
        literal (fun _ => none) v ≠ .ok value) := by
  rw [literal, literal, bare, path]
  exact ⟨fun same => LibraryType.literalWithin_unchanged same Literal.levels,
    fun changes value found => LibraryType.literalWithin_changed changes found⟩

def uuidType : LibraryType := .named "Uuid".toList "uuid".toList (by decide)

/-- Behind a bracket the path changes nothing, behind an ampersand it does. -/
theorem literal_uuid_option_reference :
    (literal (fun _ => none) "Option< uuid::Uuid >".toList).toOption =
        (literal (fun _ => none) "Option<Uuid>".toList).toOption ∧
      literal (fun _ => none) "&Uuid".toList = .ok "&\x7b uuid::Uuid::new_v4() \x7d".toList ∧
      literal (fun _ => none) "&uuid::Uuid".toList ≠ .ok "&\x7b uuid::Uuid::new_v4() \x7d".toList := by
  have option := literal_qualified uuidType [.wrapper .option] (u := "Option<Uuid>".toList)
    (v := "Option< uuid::Uuid >".toList) (by decide) (by decide)
  have reference := literal_qualified uuidType [.wrapper .reference] (u := "&Uuid".toList)
    (v := "&uuid::Uuid".toList) (by decide) (by decide)
  have kept : ¬uuidType.Changes [.wrapper .option] := by
    rintro (⟨-, references, -⟩ | ⟨-, -, later⟩)
    · cases references (.wrapper .option) (by simp)
    · exact later
  have swallows : uuidType.Swallows [.wrapper .reference] := by
    refine ⟨by simp, fun l member => ?_, fun same => absurd same.1 (by decide)⟩
    rw [List.mem_singleton.mp member]
    rfl
  have value : literal (fun _ => none) "&Uuid".toList = .ok "&\x7b uuid::Uuid::new_v4() \x7d".toList := by
    decide
  exact ⟨option.1 kept, value, reference.2 (Or.inl swallows) _ value⟩

end TestSkeleton.Rust
