import TestSkeleton.Proofs.Rust.Bare
import TestSkeleton.Proofs.Rust.Receiver
import TestSkeleton.Proofs.Rust.Regap
import TestSkeleton.Proofs.Signature.Normal

/-! Comments inside types and receivers.

The text of a type is what stands in the source from its first token to its last, so a comment between two
of them becomes part of the type. A receiver taken by reference becomes a mutable one when the comment says
so. -/

namespace TestSkeleton.Rust

open Text Signature

/-- The type that is recorded of a text, for an instance or for something else. -/
def recordedType (takesSelf : Bool) (text : Text) : Text :=
  if takesSelf then (receiverOf text).type else normalize text

/-- Where the tree of a function holds the text of a type or of a receiver: the type of its result, the
type of a parameter, or a parameter that is a receiver, each with the trees around it. -/
inductive Slot where
  | returned (before behind : List Tree)
  | typed (before behind first last lead trail : List Tree)
  | receiver (before behind first last : List Tree)

namespace Slot

/-- The nodes around the text, inside the function. -/
def around : Slot → List Enclosure
  | returned before behind => [⟨before, .returnType, behind⟩]
  | typed before behind first last lead trail =>
    [⟨before, .parameters, behind⟩, ⟨first, .parameter, last⟩, ⟨lead, .type, trail⟩]
  | receiver before behind first last => [⟨before, .parameters, behind⟩, ⟨first, .selfParameter, last⟩]

/-- The tree of the function, with trees in the slot. -/
def tree (s : Slot) (inner : List Tree) : Tree := .node .function (enclose s.around inner)

/-- No other tree is read in the place of the slot. -/
def IsRead : Slot → Prop
  | returned before _ => ∀ t ∈ before, t.isKind .returnType = false
  | typed before _ _ _ lead _ =>
    (∀ t ∈ before, t.isKind .parameters = false) ∧ ∀ t ∈ lead, t.isKind .type = false
  | receiver before _ _ _ => ∀ t ∈ before, t.isKind .parameters = false

/-- The parameters among the trees. -/
def parameterTrees (l : List Tree) : List Tree :=
  l.filter fun c => c.isKind .parameter || c.isKind .selfParameter

/-- The slot says how the function takes its instance. -/
def takesSelf : Slot → Bool
  | returned _ _ => false
  | typed _ _ _ _ lead trail =>
    ((Tree.node .parameter (lead ++ .node .type [] :: trail)).childOf? .pattern).bind plainName? ==
      some "self".toList
  | receiver _ _ _ _ => true

/-- What is recorded of a text in the slot. -/
def record (s : Slot) (text : Text) : Text := recordedType s.takesSelf text

/-- The function with another type in the place that the slot is recorded in. -/
def put : Slot → Text → Function → Function
  | returned _ _, type, f => { f with returns := type }
  | typed _ _ first _ _ _, type, f | receiver _ _ first _, type, f =>
    { f with parameters := f.parameters.modify (parameterTrees first).length fun p => { p with type } }

end Slot

/-! A child of a node, next to children of other kinds. -/

section Child

variable {kind other k : Kind} {before behind inner : List Tree}

theorem childOf?_other (apart : other ≠ k) (inner inner' : List Tree) :
    (Tree.node kind (before ++ .node other inner :: behind)).childOf? k =
      (Tree.node kind (before ++ .node other inner' :: behind)).childOf? k := by
  have unlike (inner : List Tree) : (Tree.node other inner).isKind k = false := beq_eq_false_iff_ne.mpr apart
  rw [Tree.childOf?, Tree.childOf?, List.find?_append, List.find?_append,
    List.find?_cons_of_neg (by simp [unlike]), List.find?_cons_of_neg (by simp [unlike])]

theorem childOf?_first (first : ∀ t ∈ before, t.isKind k = false) :
    (Tree.node kind (before ++ .node k inner :: behind)).childOf? k = some (.node k inner) := by
  have none : before.find? (Tree.isKind k) = none :=
    List.find?_eq_none.mpr fun t member => by simp [first t member]
  have here : (Tree.node k inner).isKind k = true := beq_self_eq_true k
  rw [Tree.childOf?, List.find?_append, none, Option.none_or, List.find?_cons_of_pos here]

end Child

/-- The text of a node with these children. -/
def textOfAll (l : List Tree) : Text := textOfTokens (Tree.tokensOfAll l)

theorem mapIdx_modify {α β : Type} {f : Nat → α → β} {g : β → β} {first : List α} {a b : α}
    (step : f first.length b = g (f first.length a)) (last : List α) :
    (first ++ b :: last).mapIdx f = ((first ++ a :: last).mapIdx f).modify first.length g := by
  induction first generalizing f with
  | nil =>
    rw [List.nil_append, List.nil_append, List.mapIdx_cons, List.mapIdx_cons, List.length_nil,
      List.modify_zero_cons]
    exact congrArg (· :: _) step
  | cons c first ih =>
    rw [List.cons_append, List.cons_append, List.mapIdx_cons, List.mapIdx_cons, List.length_cons,
      List.modify_succ_cons, ih step]

theorem parametersOf_first {kind : Kind} {before behind l : List Tree}
    (first : ∀ t ∈ before, t.isKind .parameters = false) :
    parametersOf (.node kind (before ++ .node .parameters l :: behind)) =
      (Slot.parameterTrees l).mapIdx parameterOf := by
  rw [parametersOf, childOf?_first first]
  rfl

theorem parameterTrees_append {first last : List Tree} {t : Tree}
    (isParameter : (t.isKind .parameter || t.isKind .selfParameter) = true) :
    Slot.parameterTrees (first ++ t :: last) =
      Slot.parameterTrees first ++ t :: Slot.parameterTrees last := by
  rw [Slot.parameterTrees, List.filter_append, List.filter_cons, if_pos isParameter]
  rfl

/-- The parameter at a place with a name, if it has a plain one, and a type. -/
def namedParameter (place : Nat) (name : Option Text) (type : Text) : Parameter :=
  match name with
  | some name => if name == "self".toList then receiverOf type else parameter name type
  | none => parameter ("arg".toList ++ ofNat place) type

theorem namedParameter_type (place : Nat) (name : Option Text) (text text' : Text) :
    namedParameter place name text' =
      { namedParameter place name text with type := recordedType (name == some "self".toList) text' } := by
  cases name with
  | none => rfl
  | some name =>
    by_cases self : name = "self".toList
    · subst self
      rfl
    · have other : (some name == some "self".toList) = false := beq_eq_false_iff_ne.mpr fun same =>
        self (Option.some.inj same)
      rw [namedParameter, namedParameter, beq_eq_false_iff_ne.mpr self, other]
      rfl

/-- A parameter with another text in its type has the same name. -/
theorem parameterOf_typed {lead trail : List Tree} (isRead : ∀ t ∈ lead, t.isKind .type = false) (place : Nat)
    (inner inner' : List Tree) :
    parameterOf place (.node .parameter (lead ++ .node .type inner' :: trail)) =
      { parameterOf place (.node .parameter (lead ++ .node .type inner :: trail)) with
        type := recordedType (((Tree.node .parameter (lead ++ .node .type [] :: trail)).childOf? .pattern).bind
          plainName? == some "self".toList) (textOfAll inner') } := by
  have pattern (inner : List Tree) :
      (Tree.node .parameter (lead ++ .node .type inner :: trail)).childOf? .pattern =
        (Tree.node .parameter (lead ++ .node .type [] :: trail)).childOf? .pattern :=
    childOf?_other (by decide) inner []
  have named (inner : List Tree) : parameterOf place (.node .parameter (lead ++ .node .type inner :: trail)) =
      namedParameter place (((Tree.node .parameter (lead ++ .node .type [] :: trail)).childOf? .pattern).bind
        plainName?) (textOfAll inner) := by
    rw [← pattern inner, parameterOf, childOf?_first isRead]
    rfl
  rw [named, named]
  exact namedParameter_type place _ _ _

namespace Slot

variable (file : Text) (scope : List Text) (owner : Option Text)

/-- Another parameter in one place changes that parameter of the function. -/
theorem functionOf_parameters {before behind first last : List Tree} {p p' : Tree}
    (isRead : ∀ t ∈ before, t.isKind .parameters = false)
    (isParameter : (p.isKind .parameter || p.isKind .selfParameter) = true)
    (isParameter' : (p'.isKind .parameter || p'.isKind .selfParameter) = true) {g : Parameter → Parameter}
    (changed : parameterOf (parameterTrees first).length p' = g (parameterOf (parameterTrees first).length p)) :
    functionOf file scope owner
        (.node .function (before ++ .node .parameters (first ++ p' :: last) :: behind)) =
      let f := functionOf file scope owner
        (.node .function (before ++ .node .parameters (first ++ p :: last) :: behind))
      { f with parameters := f.parameters.modify (parameterTrees first).length g } := by
  have same {k : Kind} (apart : Kind.parameters ≠ k) :
      (Tree.node .function (before ++ .node .parameters (first ++ p' :: last) :: behind)).childOf? k =
        (Tree.node .function (before ++ .node .parameters (first ++ p :: last) :: behind)).childOf? k :=
    childOf?_other apart (first ++ p' :: last) (first ++ p :: last)
  have parameters :
      parametersOf (.node .function (before ++ .node .parameters (first ++ p' :: last) :: behind)) =
      (parametersOf (.node .function (before ++ .node .parameters (first ++ p :: last) :: behind))).modify
        (parameterTrees first).length g := by
    rw [parametersOf_first isRead, parametersOf_first isRead, parameterTrees_append isParameter,
      parameterTrees_append isParameter']
    exact mapIdx_modify changed _
  simp only [functionOf, nameOf, hasModifier, parameters, same (k := .name) (by decide),
    same (k := .returnType) (by decide), same (k := .modifiers) (by decide)]

/-- What is written in a slot changes what is recorded there, and nothing else of the function. -/
theorem functionOf_tree {s : Slot} (isRead : s.IsRead) (inner inner' : List Tree) :
    functionOf file scope owner (s.tree inner') =
      s.put (s.record (textOfAll inner')) (functionOf file scope owner (s.tree inner)) := by
  cases s with
  | returned before behind =>
    have same {k : Kind} (apart : Kind.returnType ≠ k) :
        (Tree.node .function (before ++ .node .returnType inner' :: behind)).childOf? k =
          (Tree.node .function (before ++ .node .returnType inner :: behind)).childOf? k :=
      childOf?_other apart inner' inner
    have type : ((Tree.node .function (before ++ .node .returnType inner' :: behind)).childOf? .returnType).map
        Tree.text = some (textOfAll inner') := by
      rw [childOf?_first isRead]
      rfl
    simp only [tree, around, enclose, put, functionOf, nameOf, parametersOf, hasModifier, type,
      same (k := .name) (by decide), same (k := .parameters) (by decide), same (k := .modifiers) (by decide)]
    rfl
  | typed before behind first last lead trail =>
    obtain ⟨parameters, type⟩ := isRead
    exact functionOf_parameters file scope owner parameters rfl rfl (parameterOf_typed type _ inner inner')
  | receiver before behind first last =>
    exact functionOf_parameters file scope owner isRead rfl rfl rfl

/-- What is collected from the function changes in that place alone. -/
theorem collect_tree (policy : Policy) {s : Slot} (isRead : s.IsRead) (attributes : List Text)
    (inner inner' : List Tree) : collect policy file scope owner attributes (s.tree inner') =
      (collect policy file scope owner attributes (s.tree inner)).map (s.put (s.record (textOfAll inner'))) := by
  obtain ⟨before, other, behind, name, visibility, whole⟩ : ∃ before other behind, other ≠ Kind.name ∧
      other ≠ Kind.visibility ∧
      ∀ inner, ∃ l, s.tree inner = .node .function (before ++ .node other l :: behind) := by
    cases s with
    | returned before behind =>
      exact ⟨before, .returnType, behind, by decide, by decide, fun inner => ⟨_, rfl⟩⟩
    | typed before behind first last lead trail =>
      exact ⟨before, .parameters, behind, by decide, by decide, fun inner => ⟨_, rfl⟩⟩
    | receiver before behind first last =>
      exact ⟨before, .parameters, behind, by decide, by decide, fun inner => ⟨_, rfl⟩⟩
  have changed := functionOf_tree file scope owner isRead inner inner'
  obtain ⟨l, shape⟩ := whole inner
  obtain ⟨l', shape'⟩ := whole inner'
  rw [shape, shape'] at changed
  have same : nameOf (.node .function (before ++ .node other l' :: behind)) =
      nameOf (.node .function (before ++ .node other l :: behind)) := by
    rw [nameOf, nameOf, childOf?_other name l' l]
  have shown : isPublic (.node .function (before ++ .node other l' :: behind)) =
      isPublic (.node .function (before ++ .node other l :: behind)) := by
    rw [isPublic, isPublic, childOf?_other visibility l' l]
  rw [shape, shape', collect, collect, same, shown, changed]
  split
  · rfl
  · rfl

/-- The type in the place that the slot is recorded in. -/
def read? : Slot → Function → Option Text
  | returned _ _, f => some f.returns
  | typed _ _ first _ _ _, f | receiver _ _ first _, f =>
    f.parameters[(parameterTrees first).length]?.map Parameter.type

theorem read?_put (s : Slot) (type : Text) (f : Function) :
    s.read? (s.put type f) = (s.read? f).map fun _ => type := by
  cases s with
  | returned before behind => rfl
  | typed before behind first last lead trail =>
    simp only [read?, put, List.getElem?_modify_eq, Option.map_eq_map, Option.map_map]
    rfl
  | receiver before behind first last =>
    simp only [read?, put, List.getElem?_modify_eq, Option.map_eq_map, Option.map_map]
    rfl

theorem read?_tree {s : Slot} (isRead : s.IsRead) (inner : List Tree) :
    (s.read? (functionOf file scope owner (s.tree inner))).isSome = true := by
  have listed {before behind first last : List Tree} {p : Tree}
      (isFirst : ∀ t ∈ before, t.isKind .parameters = false)
      (isParameter : (p.isKind .parameter || p.isKind .selfParameter) = true) :
      ((functionOf file scope owner (.node .function
        (before ++ .node .parameters (first ++ p :: last) :: behind))).parameters[(parameterTrees first).length]?.map
          Parameter.type).isSome = true := by
    simp only [functionOf, parametersOf_first isFirst, parameterTrees_append isParameter, List.getElem?_mapIdx,
      Option.isSome_map]
    rw [List.getElem?_append_right (Nat.le_refl _), Nat.sub_self]
    rfl
  cases s with
  | returned before behind => rfl
  | typed before behind first last lead trail => exact listed isRead.1 rfl
  | receiver before behind first last => exact listed isRead rfl

end Slot

/-! How a text in a slot is read. -/

/-- The text of a receiver says that it is taken by reference. -/
def isBorrowed (text : Text) : Bool := startsWith ['&'] (compact text)

/-- The text of a receiver passes for a mutable one. -/
def saysMut (text : Text) : Bool := contains "mut".toList (compact text)

theorem receiverOf_type_eq_iff {text text' : Text} (same : isBorrowed text' = isBorrowed text) :
    (receiverOf text').type = (receiverOf text).type ↔
      isBorrowed text = false ∨ saysMut text' = saysMut text := by
  have read (text : Text) :
      receiverOf text = Signature.receiver (isBorrowed text) (isBorrowed text && saysMut text) := rfl
  rw [read, read, same]
  cases isBorrowed text <;> cases saysMut text <;> cases saysMut text' <;> decide

/-- A text that begins with a visible character begins so with anything behind. -/
theorem isBorrowed_append {c : Char} (visible : isBlank c = false) (r behind : Text) :
    isBorrowed (c :: r ++ behind) = isBorrowed [c] := by
  have solid : c ≠ ' ' := by
    rintro rfl
    cases visible
  have kept (t : Text) : compact (c :: t) = c :: compact t := List.filter_cons_of_pos (by simpa using solid)
  rw [isBorrowed, isBorrowed, List.cons_append, kept, kept]
  by_cases same : '&' = c
  · subst same
    rfl
  · simp [startsWith, dropPrefix?, same]

/-- A text with more visible characters has another normal spelling. -/
theorem normalize_ne {u comment v : Text} (visible : ∃ c ∈ comment, isBlank c = false) :
    normalize (u ++ comment ++ v) ≠ normalize (u ++ v) := by
  intro same
  obtain ⟨c, inside, visible⟩ := visible
  have filtered := congrArg (List.filter solid) same
  rw [normalize_eq_spaceFrom, normalize_eq_spaceFrom, filter_solid_spaceFrom, filter_solid_spaceFrom,
    List.filter_append, List.filter_append, List.filter_append, List.append_assoc] at filtered
  have none : comment.filter solid = [] := by
    have length := congrArg List.length (List.append_cancel_left filtered)
    rw [List.length_append] at length
    exact List.eq_nil_of_length_eq_zero (by omega)
  have member : c ∈ comment.filter solid := List.mem_filter.mpr ⟨inside, by simp [solid, visible]⟩
  rw [none] at member
  cases member

theorem textOfTokens_append {first : List Token} (filled : first ≠ []) (t : Token) (last : List Token) :
    textOfTokens (first ++ t :: last) =
      textOfTokens first ++ t.gap.flatMap Trivia.text ++ (t.text ++ written last) := by
  obtain ⟨u, us, rfl⟩ := List.exists_cons_of_ne_nil filled
  have behind : textOfTokens (u :: us ++ t :: last) = u.text ++ written (us ++ t :: last) := rfl
  rw [behind, written_append, written_cons, textOfTokens]
  simp only [written, List.append_assoc]

/-- A comment, perhaps with blanks around it, is put into the gap before the token behind the front. -/
structure Inserted (source source' : Text) (front : List Token) (t t' : Token) (back : List Token)
    (comment : Text) : Prop where
  lexed : (lex (dropPreamble source)).tokens = front ++ t :: back
  lexed' : (lex (dropPreamble source')).tokens = front ++ t' :: back
  whole : (lex (dropPreamble source')).rest = []
  kind : t'.kind = t.kind
  text : t'.text = t.text
  gap : ∃ x y, t.gap.flatMap Trivia.text = x ++ y ∧ t'.gap.flatMap Trivia.text = x ++ comment ++ y
  visible : ∃ c ∈ comment, isBlank c = false

theorem enclose_append (outer around : List Enclosure) (inner : List Tree) :
    enclose (outer ++ around) inner = enclose outer (enclose around inner) := by
  induction outer with
  | nil => rfl
  | cons e outer ih => rw [List.cons_append, enclose, enclose, ih]

/-- The text of a slot, with a comment in the gap before one of its tokens but the first. -/
theorem exists_text {t t' : Token} {first last : List Token} {inner : List Tree} {comment : Text}
    (tokens : Tree.tokensOfAll inner = first ++ t :: last) (filled : first ≠ []) (text : t'.text = t.text)
    (gap : ∃ x y, t.gap.flatMap Trivia.text = x ++ y ∧ t'.gap.flatMap Trivia.text = x ++ comment ++ y) :
    ∃ u v, textOfAll inner = u ++ v ∧
      textOfAll (Tree.replaceAll t' first.length inner) = u ++ comment ++ v ∧ textOfTokens first <+: u ∧
      t.text ++ written last <:+ v := by
  obtain ⟨x, y, before, after⟩ := gap
  refine ⟨textOfTokens first ++ x, y ++ (t.text ++ written last), ?_, ?_, List.prefix_append _ _,
    List.suffix_append _ _⟩
  · rw [textOfAll, tokens, textOfTokens_append filled, before]
    simp only [List.append_assoc]
  · rw [textOfAll, Tree.tokensOfAll_replaceAll, tokens, List.set_append_right _ _ (Nat.le_refl _),
      Nat.sub_self, List.set_cons_zero, textOfTokens_append filled, after, text]
    simp only [List.append_assoc]

theorem sought_unsought {kind : Kind} (unsought : kind.isSought = false) (left children right : List Tree) :
    sought (left ++ .node kind children :: right) = sought left ++ sought right := by
  have none : ¬(Tree.node kind children).isSought = true := by
    rw [Tree.isSought, unsought]
    exact Bool.false_ne_true
  rw [sought, List.filter_append, List.filter_cons, if_neg none]
  rfl

namespace Slot

variable (policy : Policy) (file : Text)

/-- Sources whose trees differ in a slot: the function is found in both or in neither, and what is recorded
of the slot is all that differs. -/
theorem collectAll_tree {s : Slot} (isRead : s.IsRead) {outer : List Enclosure}
    (plain : ∀ e ∈ outer, e.kind.isPlain = true) (left right inner inner' : List Tree) :
    ∃ before found behind,
      (found = [] ∨ ∃ scope owner, found = [functionOf file scope owner (s.tree inner)]) ∧
      collectAll policy file [] none [] (enclose outer (left ++ .node .item [] :: right)) = before ++ behind ∧
      collectAll policy file [] none [] (enclose outer (left ++ s.tree inner :: right)) =
        before ++ found ++ behind ∧
      collectAll policy file [] none [] (enclose outer (left ++ s.tree inner' :: right)) =
        before ++ found.map (s.put (s.record (textOfAll inner'))) ++ behind := by
  rcases (passes_enclose policy file outer plain).1 [] none [] with
    closed | ⟨front, scope, owner, attributes, back, whole⟩
  · have function (children : List Tree) :=
      sought_unsought (rfl : Kind.function.isSought = false) left children right
    have item := sought_unsought (rfl : Kind.item.isSought = false) left [] right
    refine ⟨collectAll policy file [] none [] (enclose outer (left ++ .node .item [] :: right)), [], [],
      Or.inl rfl, (List.append_nil _).symm, ?_, ?_⟩
    · rw [List.append_nil, List.append_nil]
      exact closed _ _ ((function _).trans item.symm)
    · rw [List.map_nil, List.append_nil, List.append_nil]
      exact closed _ _ ((function _).trans item.symm)
  · have whole (inner : List Tree) : collectAll policy file [] none [] (enclose outer inner) =
        front ++ collectAll policy file scope owner attributes inner ++ back := whole inner
    have node {kind : Kind} (other : kind ≠ .attribute) (children : List Tree) :
        collectAll policy file scope owner attributes (left ++ .node kind children :: right) =
          collectAll policy file scope owner attributes left ++
            (collect policy file scope owner (attributesBehind attributes left) (.node kind children) ++
              collectAll policy file scope owner [] right) := by
      rw [collectAll_append, collectAll_node policy file other]
    have nothing : collect policy file scope owner (attributesBehind attributes left) (.node .item []) = [] :=
      rfl
    refine ⟨front ++ collectAll policy file scope owner attributes left,
      collect policy file scope owner (attributesBehind attributes left) (s.tree inner),
      collectAll policy file scope owner [] right ++ back, ?_, ?_, ?_, ?_⟩
    · rw [tree, collect]
      split
      · exact Or.inl rfl
      · exact Or.inr ⟨scope, owner, rfl⟩
    · rw [whole, node (by decide), nothing]
      simp only [List.nil_append, List.append_assoc]
    · rw [whole, tree, node (by decide)]
      simp only [List.append_assoc]
    · have changed :=
        collect_tree file scope owner policy isRead (attributesBehind attributes left) inner inner'
      rw [whole, ← changed, tree, node (by decide)]
      simp only [List.append_assoc]

/-- What is recorded of a slot stays the same with a comment in it only for a receiver, and for that when
it is not taken by reference, or when it passes for a mutable one as before. -/
theorem record_eq_iff (s : Slot) {u v comment : Text} (visible : ∃ c ∈ comment, isBlank c = false)
    (same : isBorrowed (u ++ comment ++ v) = isBorrowed (u ++ v)) :
    s.record (u ++ comment ++ v) = s.record (u ++ v) ↔ s.takesSelf = true ∧
      (isBorrowed (u ++ v) = false ∨ saysMut (u ++ comment ++ v) = saysMut (u ++ v)) := by
  rw [record, record, recordedType, recordedType]
  cases s.takesSelf with
  | false =>
    simp only [Bool.false_eq_true, if_false, false_and, iff_false]
    exact normalize_ne visible
  | true =>
    rw [if_pos rfl, if_pos rfl, receiverOf_type_eq_iff same]
    exact (and_iff_right rfl).symm

/-- Another record in a slot is another function. -/
theorem put_eq_iff {s : Slot} (isRead : s.IsRead) {scope : List Text} {owner : Option Text} {inner : List Tree}
    {x y : Text} : s.put x (functionOf file scope owner (s.tree inner)) =
      s.put y (functionOf file scope owner (s.tree inner)) ↔ x = y := by
  refine ⟨fun same => ?_, fun same => by rw [same]⟩
  obtain ⟨type, found⟩ := Option.isSome_iff_exists.mp (read?_tree file scope owner isRead inner)
  have read := congrArg s.read? same
  rw [read?_put, read?_put, found, Option.map_some, Option.map_some] at read
  exact Option.some.inj read

end Slot

/-- A comment between two tokens of a type or a receiver becomes part of the text that is recorded, unless
the function is not found. So what is extracted changes with every comment in a type, and with one in a
receiver by reference that says, or no longer says, that it is mutable. -/
theorem extract_commented (policy : Policy) (file : Text) {source source' comment : Text}
    {front back : List Token} {t t' : Token} (inserted : Inserted source source' front t t' back comment)
    {trees : List Tree} (parsed : parse source = .ok trees)
    (kept : Unparted front t t' ∨ ∃ trees', parse source' = .ok trees' ∧
      Tree.quietAll trees' = Tree.replaceAll t' front.length (Tree.quietAll trees))
    {outer : List Enclosure} {left right inner : List Tree} {s : Slot} {first last : List Token}
    (plain : ∀ e ∈ outer, e.kind.isPlain = true) (isRead : s.IsRead)
    (place : Tree.quietAll trees = enclose outer (left ++ s.tree inner :: right))
    (position : front = tokensBefore (outer ++ ⟨left, .function, right⟩ :: s.around) ++ first)
    (tokens : Tree.tokensOfAll inner = first ++ t :: last) (filled : first ≠ []) :
    ∃ before found behind u v,
      (found = [] ∨ ∃ scope owner, found = [functionOf file scope owner (s.tree inner)]) ∧
      collectAll policy file [] none [] (enclose outer (left ++ .node .item [] :: right)) = before ++ behind ∧
      textOfAll inner = u ++ v ∧ textOfTokens first <+: u ∧ t.text ++ written last <:+ v ∧
      extract policy file source = .ok (before ++ found ++ behind) ∧
      extract policy file source' =
        .ok (before ++ found.map (s.put (s.record (u ++ comment ++ v))) ++ behind) ∧
      (extract policy file source' = extract policy file source ↔ found = [] ∨ s.takesSelf = true ∧
        (isBorrowed (u ++ v) = false ∨ saysMut (u ++ comment ++ v) = saysMut (u ++ v))) := by
  obtain ⟨trees', parsed', replaced⟩ : ∃ trees', parse source' = .ok trees' ∧
      Tree.quietAll trees' = Tree.replaceAll t' front.length (Tree.quietAll trees) := by
    rcases kept with unparted | known
    · exact parse_regapped inserted.kind inserted.text inserted.lexed inserted.lexed' inserted.whole unparted
        parsed
    · exact known
  have place' : Tree.quietAll trees' =
      enclose outer (left ++ s.tree (Tree.replaceAll t' first.length inner) :: right) := by
    have inside : first.length < (Tree.tokensOfAll inner).length := by
      rw [tokens, List.length_append, List.length_cons]
      omega
    have moved := replaceAll_enclose (u := t') (outer ++ ⟨left, .function, right⟩ :: s.around) inside
    rw [enclose_append, enclose_append] at moved
    rw [replaced, place, position, List.length_append]
    exact moved
  obtain ⟨u, v, text, text', begins, ends⟩ := exists_text tokens filled inserted.text inserted.gap
  obtain ⟨before, found, behind, once, without, whole, whole'⟩ :=
    Slot.collectAll_tree policy file isRead plain left right inner (Tree.replaceAll t' first.length inner)
  rw [← place, collectAll_quietAll] at whole
  rw [← place', collectAll_quietAll, text'] at whole'
  have extracted : extract policy file source = .ok (before ++ found ++ behind) := by
    rw [extract, parsed, ← whole]
    rfl
  have extracted' : extract policy file source' =
      .ok (before ++ found.map (s.put (s.record (u ++ comment ++ v))) ++ behind) := by
    rw [extract, parsed', ← whole']
    rfl
  have borrowed : isBorrowed (u ++ comment ++ v) = isBorrowed (u ++ v) := by
    obtain ⟨d, ds, rfl⟩ := List.exists_cons_of_ne_nil filled
    have lexical : Lexical (front ++ t :: back) := inserted.lexed ▸ lexical_lex (dropPreamble source)
    rw [position, List.append_assoc] at lexical
    obtain ⟨c, r, named, visible⟩ := lexical.behind.solid
    obtain ⟨rest, shape⟩ : ∃ rest, textOfTokens (d :: ds) ++ rest = u := begins
    have head : u = c :: (r ++ written ds ++ rest) := by
      rw [← shape, textOfTokens, named]
      simp [written]
    rw [head, List.append_assoc, isBorrowed_append visible, isBorrowed_append visible]
  refine ⟨before, found, behind, u, v, once, without, text, begins, ends, extracted, extracted', ?_⟩
  rw [extracted, extracted', Except.ok.injEq, List.append_left_inj, List.append_right_inj]
  rcases once with rfl | ⟨scope, owner, rfl⟩
  · simp
  · have here := Slot.functionOf_tree file scope owner isRead inner inner
    rw [text] at here
    rw [List.map_singleton, List.singleton_inj, ← s.record_eq_iff inserted.visible borrowed,
      or_iff_right (List.cons_ne_nil _ _)]
    exact (Eq.congr rfl here).trans (Slot.put_eq_iff file isRead)

def vectorSource : Text := "pub fn f(x: Vec<u8>) \x7b\x7d".toList

def commentedVector : Text := "pub fn f(x: Vec<u8 /* c */>) \x7b\x7d".toList

/-- The tokens of the function of a vector, from one place up to another. -/
def vectorTokens (i j : Nat) : List Token := ((lex vectorSource).tokens.take j).drop i

def vectorLeaves (i j : Nat) : List Tree := (vectorTokens i j).map .leaf

def vectorSlot : Slot :=
  .typed (.node .visibility (vectorLeaves 0 1) :: vectorLeaves 1 2 ++ [.node .name (vectorLeaves 2 3)])
    [.node .block (vectorLeaves 11 13)] (vectorLeaves 3 4) (vectorLeaves 10 11)
    (.node .pattern (vectorLeaves 4 5) :: vectorLeaves 5 6) []

theorem vector_inserted : Inserted vectorSource commentedVector (vectorTokens 0 9) ⟨.sign, ['>'], []⟩
    ⟨.sign, ['>'], [.blank [' '], .comment "/* c */".toList]⟩ (vectorTokens 10 13) " /* c */".toList where
  lexed := by decide +kernel
  lexed' := by decide +kernel
  whole := by decide +kernel
  kind := rfl
  text := rfl
  gap := ⟨[], [], rfl, rfl⟩
  visible := ⟨'/', by decide, rfl⟩

/-- The type of a parameter is another one with a comment in it. -/
theorem commented_vector_differs :
    (extract {} [] vectorSource).map (·.map vectorSlot.read?) = .ok [some "Vec<u8>".toList] ∧
    (extract {} [] commentedVector).map (·.map vectorSlot.read?) = .ok [some "Vec<u8 /* c */>".toList] := by
  obtain ⟨trees, parsed, place⟩ := exists_of_parse vectorSource
    (fun trees => Tree.quietAll trees = enclose [] ([] ++ vectorSlot.tree (vectorLeaves 6 10) :: []))
    (by decide +kernel)
  have isRead : vectorSlot.IsRead :=
    ⟨show ∀ t ∈ Tree.node .visibility (vectorLeaves 0 1) :: vectorLeaves 1 2 ++
        [.node .name (vectorLeaves 2 3)], t.isKind .parameters = false by decide +kernel,
      show ∀ t ∈ Tree.node .pattern (vectorLeaves 4 5) :: vectorLeaves 5 6, t.isKind .type = false by
        decide +kernel⟩
  have position : vectorTokens 0 9 =
      tokensBefore ([] ++ ⟨[], .function, []⟩ :: vectorSlot.around) ++ vectorTokens 6 9 := by decide +kernel
  have tokens : Tree.tokensOfAll (vectorLeaves 6 10) = vectorTokens 6 9 ++ ⟨.sign, ['>'], []⟩ :: [] := by
    decide +kernel
  obtain ⟨before, found, behind, u, v, once, without, text, begins, ends, extracted, extracted', -⟩ :=
    extract_commented {} [] vector_inserted parsed (Or.inl (by decide +kernel)) (List.forall_mem_nil _) isRead
      place position tokens (by decide +kernel)
  have type : (extract {} [] vectorSource).map (·.map vectorSlot.read?) = .ok [some "Vec<u8>".toList] := by
    decide +kernel
  refine ⟨type, ?_⟩
  obtain ⟨rfl, rfl⟩ := List.append_eq_nil_iff.mp without.symm
  rw [extracted] at type
  rcases once with rfl | ⟨scope, owner, rfl⟩
  · cases type
  · have whole : textOfAll (vectorLeaves 6 10) = "Vec<u8".toList ++ ">".toList := by decide +kernel
    obtain ⟨rfl, rfl⟩ : "Vec<u8".toList = u ∧ ">".toList = v := by
      have begins : "Vec<u8".toList <+: u := begins
      have ends : ">".toList <:+ v := ends
      have length := congrArg List.length (whole.symm.trans text)
      rw [List.length_append, List.length_append] at length
      have atMost := begins.length_le
      have atMost' := ends.length_le
      exact ⟨begins.eq_of_length (by omega), ends.eq_of_length (by omega)⟩
    obtain ⟨old, listed⟩ := Option.isSome_iff_exists.mp
      (Slot.read?_tree [] scope owner isRead (vectorLeaves 6 10))
    have written : vectorSlot.record ("Vec<u8".toList ++ " /* c */".toList ++ ">".toList) =
        "Vec<u8 /* c */>".toList := by decide +kernel
    rw [extracted', List.map_singleton, written]
    refine congrArg (fun type => Except.ok [type]) ?_
    rw [Slot.read?_put, listed, Option.map_some]

end TestSkeleton.Rust
