import TestSkeleton.Proofs.Table
import TestSkeleton.Proofs.Rust.TypeShape
import TestSkeleton.Proofs.Signature.BaseName

/-! Which rule for Rust literals knows which type. -/

namespace TestSkeleton.Rust

open Text Signature

theorem mem_of_mem_baseName {c : Char} {t : Text} (member : c ∈ baseName t) : c ∈ t := by
  rw [baseName_eq_trim_takeWhile] at member
  exact (List.takeWhile_sublist _).mem (mem_of_mem_trim member)

/-- A name is the nominal part of itself and of what it is applied to. -/
theorem baseName_append {name behind : Text} (names : ∀ c ∈ name, isNameChar c = true)
    (stopped : ∀ c ∈ behind.head?, c = '<') : baseName (name ++ behind) = name := by
  refine baseName_run (fun c member => ?_) (fun c first => Or.inl (stopped c first)) ?_
  · simpa using not_mem_of_isNameChar ['<', '['] (by decide) (names c member)
  · exact trim_eq_self (fun c found => solid_of_isNameChar (names c (List.mem_of_head? found)))
      fun c found => solid_of_isNameChar (names c (List.mem_of_getLast? found))

/-- A type that begins with a mark, such as a tuple. -/
def IsMarked (u : Text) : Prop := ∃ c ∈ u.head?, c ∈ ['(', '[', '&']

theorem IsMarked.baseName {u : Text} (marked : IsMarked u) :
    ∀ c ∈ (Signature.baseName u).head?, c ∈ ['(', '[', '&'] := by
  obtain ⟨d, first, mark⟩ := marked
  cases u with
  | nil => cases first
  | cons e r =>
    obtain rfl : e = d := Option.some.inj first
    have solid : isBlank e = false := startsType.solid (Or.inl mark)
    intro c found
    rw [baseName_eq_trim_takeWhile] at found
    rw [List.takeWhile_cons] at found
    split at found
    · obtain ⟨rest, shape⟩ := trim_cons_solid (r.takeWhile fun c => decide (c ≠ '<' ∧ c ≠ '[')) solid
      rw [shape] at found
      obtain rfl : e = c := Option.some.inj found
      exact mark
    · cases found

theorem not_mem_colon {u : Text} (type : TypeText u) : ':' ∉ u :=
  not_mem_of_chars type.chars (by decide)

theorem not_mem_quote {u : Text} (type : TypeText u) : '\'' ∉ u :=
  not_mem_of_chars type.chars (by decide)

theorem dropLifetime_eq_self {u : Text} (absent : '\'' ∉ u) : dropLifetime u = u := by
  unfold dropLifetime
  split
  · simp at absent
  · rfl

/-- The literal of a library type, by the last segment of its nominal part. -/
def libraryLiteral? (text : Text) : Option Text :=
  let name := baseName text
  let short := lastSegment name
  match wellKnownTypes.lookup short with
  | none => none
  | some literal =>
    if name ≠ text ∧ short ≠ "DateTime".toList then none
    else if short == "Duration".toList && startsWith "chrono::".toList name then
      some "chrono::Duration::seconds(1)".toList
    else some literal

theorem wellKnown?_eq {u : Text} (other : ∀ c ∈ u.head?, c ≠ '&') : wellKnown? u = libraryLiteral? u := by
  unfold wellKnown?
  split
  · exact absurd rfl (other '&' rfl)
  · rfl

/-- The ampersand is dropped in front of what ends in `Path`. -/
theorem wellKnown?_reference (r : Text) : wellKnown? ('&' :: r) =
    if lastSegment r = "Path".toList then libraryLiteral? r else libraryLiteral? ('&' :: r) := by
  by_cases path : lastSegment r = "Path".toList
  · rw [if_pos path]
    simp only [wellKnown?, path, BEq.rfl, if_true]
    rfl
  · rw [if_neg path]
    simp only [wellKnown?, beq_eq_false_iff_ne.mpr path, Bool.false_eq_true, if_false]
    rfl

theorem wellKnownTypes_keys : ∀ entry ∈ wellKnownTypes,
    (∀ c ∈ entry.1, isNameChar c = true) ∧ entry.1 ∉ wrapperNames ∧ entry.1 ≠ [] := by
  decide

theorem lookup_wellKnownTypes_of_lower {u : Text} (lower : TypeTerm.isCapitalized u = false) :
    wellKnownTypes.lookup u = none := by
  have capitals : ∀ entry ∈ wellKnownTypes, TypeTerm.isCapitalized entry.1 = true := by decide
  apply Table.lookup_eq_none_of_keys
  intro entry listed same
  rw [← same, capitals entry listed] at lower
  cases lower

theorem libraryLiteral?_of_lookup {u : Text}
    (unknown : wellKnownTypes.lookup (lastSegment (baseName u)) = none) : libraryLiteral? u = none := by
  rw [libraryLiteral?, unknown]

/-- Where there is no path, the nominal part is looked up as it is. -/
theorem libraryLiteral?_local {u : Text} (absent : ':' ∉ baseName u) :
    libraryLiteral? u = match wellKnownTypes.lookup (baseName u) with
      | none => none
      | some literal =>
        if baseName u ≠ u ∧ baseName u ≠ "DateTime".toList then none else some literal := by
  have chrono : startsWith "chrono::".toList (baseName u) = false := by
    rw [startsWith, dropPrefix?_eq_none_of_not_mem (by decide : ':' ∈ "chrono::".toList) absent]
    rfl
  simp only [libraryLiteral?, lastSegment_eq_self absent, chrono, Bool.and_false, Bool.false_eq_true,
    if_false]

/-- A path without arguments is looked up by its last segment. -/
theorem libraryLiteral?_path {u : Text} (whole : baseName u = u) (other : lastSegment u ≠ "Duration".toList) :
    libraryLiteral? u = wellKnownTypes.lookup (lastSegment u) := by
  have notDuration : (lastSegment u == "Duration".toList) = false := beq_eq_false_iff_ne.mpr other
  simp only [libraryLiteral?, whole, ne_eq, not_true_eq_false, false_and, if_false, notDuration,
    Bool.false_and, Bool.false_eq_true]
  cases wellKnownTypes.lookup (lastSegment u) <;> rfl

theorem ne_reference_of_names {name : Text} (behind : Text) (filled : name ≠ [])
    (names : ∀ c ∈ name, isNameChar c = true) : ∀ c ∈ (name ++ behind).head?, c ≠ '&' := by
  obtain ⟨d, r, rfl⟩ := List.exists_cons_of_ne_nil filled
  rintro c found rfl
  obtain rfl : d = '&' := Option.some.inj found
  exact not_mem_of_isNameChar ['&'] (by decide) (names '&' (by simp)) (by simp)

/-- The literals of library types. -/
def libraryLiterals : List Text := "chrono::Duration::seconds(1)".toList :: wellKnownTypes.map Prod.snd

theorem mem_libraryLiterals {u literal : Text} (known : libraryLiteral? u = some literal) :
    literal ∈ libraryLiterals := by
  unfold libraryLiteral? at known
  dsimp only at known
  split at known
  · cases known
  · rename_i value found
    split at known
    · cases known
    · split at known
      · obtain rfl := Option.some.inj known
        exact List.mem_cons_self
      · obtain rfl := Option.some.inj known
        exact List.mem_cons_of_mem _ (List.mem_map_of_mem (Table.mem_of_lookup found))

/-- What a literal of a library type begins with. -/
def libraryHeads : Text := ['s', 'u', 'c']

theorem head_libraryLiteral? {u literal : Text} (known : libraryLiteral? u = some literal) :
    ∃ c ∈ libraryHeads, literal.head? = some c := by
  have heads : ∀ literal ∈ libraryLiterals, literal.head?.any (· ∈ libraryHeads) = true := by decide
  obtain ⟨c, first, listed⟩ := (Option.any_eq_true _ _).mp (heads _ (mem_libraryLiterals known))
  exact ⟨c, of_decide_eq_true listed, first⟩

theorem head_wellKnown? {u literal : Text} (known : wellKnown? u = some literal) :
    ∃ c ∈ libraryHeads, literal.head? = some c := by
  by_cases reference : u.head? = some '&'
  · cases u with
    | nil => cases reference
    | cons d r =>
      obtain rfl : d = '&' := Option.some.inj reference
      rw [wellKnown?_reference] at known
      split at known
      · exact head_libraryLiteral? known
      · exact head_libraryLiteral? known
  · rw [wellKnown?_eq fun c found same => reference (same ▸ found)] at known
    exact head_libraryLiteral? known

/-- What ends in a bracket is no name, so it can only be known for its arguments. -/
theorem libraryLiteral?_closed {u : Text} {z : Char} (last : u.getLast? = some z)
    (closing : isNameChar z = false) :
    libraryLiteral? u =
      if lastSegment (baseName u) = "DateTime".toList then some "chrono::Utc::now()".toList else none := by
  have date : wellKnownTypes.lookup "DateTime".toList = some "chrono::Utc::now()".toList := by decide
  unfold libraryLiteral?
  dsimp only
  cases found : wellKnownTypes.lookup (lastSegment (baseName u)) with
  | none =>
    rw [if_neg]
    intro same
    rw [same, date] at found
    cases found
  | some literal =>
    obtain ⟨names, -, filled⟩ := wellKnownTypes_keys _ (Table.mem_of_lookup found)
    have apart : baseName u ≠ u := by
      intro whole
      obtain ⟨lead, shape⟩ := lastSegment_suffix (baseName u)
      rw [whole] at shape names filled
      rw [← shape, List.getLast?_append, Option.or_of_isSome (by simpa using filled)] at last
      have named := names z (List.mem_of_getLast? last)
      rw [closing] at named
      cases named
    by_cases same : lastSegment (baseName u) = "DateTime".toList
    · rw [same, date] at found
      obtain rfl := Option.some.inj found
      have notDuration : ("DateTime".toList == "Duration".toList) = false := by decide
      simp only [same, ne_eq, not_true_eq_false, and_false, if_false, notDuration, Bool.false_and,
        Bool.false_eq_true, if_true]
    · simp only [apart, same, ne_eq, not_false_eq_true, and_self, if_true, if_false]

theorem wellKnown?_closed {u : Text} {z : Char} (last : u.getLast? = some z)
    (closing : isNameChar z = false) :
    wellKnown? u =
      if lastSegment (baseName u) = "DateTime".toList then some "chrono::Utc::now()".toList else none := by
  cases u with
  | nil => cases last
  | cons c r =>
    by_cases reference : c = '&'
    · subst reference
      have notPath : lastSegment r ≠ "Path".toList := by
        intro same
        obtain ⟨lead, shape⟩ := lastSegment_suffix r
        rw [same] at shape
        rw [← shape, List.getLast?_cons, List.getLast?_append] at last
        obtain rfl : 'h' = z := by simpa using last
        cases closing
      rw [wellKnown?_reference, if_neg notPath, libraryLiteral?_closed last closing]
    · rw [wellKnown?_eq (by simpa using reference), libraryLiteral?_closed last closing]

/-- A name that is not applied is looked up as it is. -/
theorem wellKnown?_names {u : Text} (filled : u ≠ []) (names : ∀ c ∈ u, isNameChar c = true) :
    wellKnown? u = wellKnownTypes.lookup u := by
  have base : baseName u = u := by
    simpa using baseName_append names (by simp : ∀ c ∈ ([] : Text).head?, c = '<')
  have absent : ':' ∉ baseName u := fun member =>
    not_mem_of_isNameChar [':'] (by decide) (names _ (base ▸ member)) (by simp)
  have other := ne_reference_of_names [] filled names
  rw [List.append_nil] at other
  rw [wellKnown?_eq other, libraryLiteral?_local absent, base]
  split
  · rename_i unknown
    rw [unknown]
  · rename_i literal known
    rw [known, if_neg fun apart => apart.1 rfl]

/-- Of the names with arguments only one is well known. -/
theorem wellKnown?_applied {name behind : Text} (filled : name ≠ [])
    (names : ∀ c ∈ name, isNameChar c = true) : wellKnown? (name ++ '<' :: behind) =
      if name = "DateTime".toList then some "chrono::Utc::now()".toList else none := by
  have base : baseName (name ++ '<' :: behind) = name := baseName_append names (by simp)
  have absent : ':' ∉ baseName (name ++ '<' :: behind) := fun member =>
    not_mem_of_isNameChar [':'] (by decide) (names _ (base ▸ member)) (by simp)
  rw [wellKnown?_eq (ne_reference_of_names _ filled names), libraryLiteral?_local absent, base]
  by_cases date : name = "DateTime".toList
  · have known : wellKnownTypes.lookup name = some "chrono::Utc::now()".toList := by
      rw [date]
      decide
    rw [if_pos date, known]
    exact if_neg fun apart => apart.2 date
  · rw [if_neg date]
    split
    · rfl
    · exact if_pos ⟨by simp, date⟩

theorem libraryLiteral?_marked {u : Text} (absent : ':' ∉ u) (marked : IsMarked u) :
    libraryLiteral? u = none := by
  have none : wellKnownTypes.lookup (baseName u) = none := by
    apply Table.lookup_eq_none_of_keys
    intro entry member same
    obtain ⟨names, -, filled⟩ := wellKnownTypes_keys entry member
    have head := marked.baseName
    rw [← same] at head
    cases key : entry.1 with
    | nil => exact filled key
    | cons c r =>
      rw [key] at head names
      exact not_mem_of_isNameChar ['(', '[', '&'] (by decide) (names c (by simp)) (head c rfl)
  rw [libraryLiteral?_local fun member => absent (mem_of_mem_baseName member), none]

theorem wellKnown?_marked {u : Text} (absent : ':' ∉ u) (marked : IsMarked u)
    (other : u ≠ '&' :: "Path".toList) : wellKnown? u = none := by
  cases u with
  | nil => rfl
  | cons c r =>
    by_cases reference : c = '&'
    · subst reference
      have later : ':' ∉ r := fun member => absent (List.mem_cons_of_mem _ member)
      rw [wellKnown?_reference, lastSegment_eq_self later, if_neg, libraryLiteral?_marked absent marked]
      rintro rfl
      exact other rfl
    · rw [wellKnown?_eq (by simpa using reference), libraryLiteral?_marked absent marked]

/-- The built-in types are looked up behind the lifetime. -/
theorem primitive?_dropped {u t : Text} (dropped : dropLifetime u = t) (notText : t ≠ "&str".toList)
    (notUnit : t ≠ "()".toList) : primitive? u = TypeTerm.primitiveLiterals.lookup t := by
  have notText' : (t == "&str".toList) = false := by rwa [beq_eq_false_iff_ne]
  have notUnit' : (t == "()".toList) = false := by rwa [beq_eq_false_iff_ne]
  simp only [primitive?, dropped, TypeTerm.primitiveLiterals,
    Table.lookup_cons_eq_ite, Table.lookup_map_const_append, notText', notUnit', Bool.false_eq_true,
    if_false, List.lookup_nil]

theorem primitiveLiterals_keys : ∀ entry ∈ TypeTerm.primitiveLiterals,
    ∀ c ∈ entry.1, isNameChar c = true := by
  decide

theorem primitive?_names {u : Text} (filled : u ≠ []) (names : ∀ c ∈ u, isNameChar c = true) :
    primitive? u = TypeTerm.primitiveLiterals.lookup u := by
  have quote : '\'' ∉ u := fun member =>
    not_mem_of_isNameChar ['\''] (by decide) (names _ member) (by simp)
  apply primitive?_dropped (dropLifetime_eq_self quote)
  · rintro rfl
    exact not_mem_of_isNameChar ['&'] (by decide) (names '&' (by decide)) (by simp)
  · rintro rfl
    exact not_mem_of_isNameChar ['('] (by decide) (names '(' (by decide)) (by simp)

/-- Apart from two, the built-in types are names. -/
theorem lookup_primitiveLiterals_of_mark {u : Text} {mark : Char} (member : mark ∈ u)
    (other : isNameChar mark = false) : TypeTerm.primitiveLiterals.lookup u = none := by
  apply Table.lookup_eq_none_of_keys
  intro entry listed same
  have named := primitiveLiterals_keys entry listed mark (same ▸ member)
  rw [other] at named
  cases named

theorem primitive?_eq_none {u : Text} (plain : dropLifetime u = u) (notText : u ≠ "&str".toList)
    (notUnit : u ≠ "()".toList) {mark : Char} (member : mark ∈ u)
    (other : isNameChar mark = false) : primitive? u = none := by
  rw [primitive?_dropped plain notText notUnit, lookup_primitiveLiterals_of_mark member other]

/-- The text in angle brackets behind a name. -/
theorem stripGeneric?_applied {outer name inside : Text} (outers : ∀ c ∈ outer, isNameChar c = true)
    (names : ∀ c ∈ name, isNameChar c = true)
    (trimmed : trim (name ++ '<' :: (inside ++ ['>'])) = name ++ '<' :: (inside ++ ['>'])) :
    stripGeneric? (name ++ '<' :: (inside ++ ['>'])) outer =
      if outer = name then some (trim inside) else none := by
  have dropped : dropPrefix? (outer ++ ['<']) (name ++ '<' :: (inside ++ ['>'])) =
      if outer = name then some (inside ++ ['>']) else none := by
    have cut := dropPrefix?_marked isNameChar outers names (by decide : isNameChar '<' = false)
      (by simp; decide : ∀ c ∈ ('<' :: (inside ++ ['>'])).head?, isNameChar c = false)
    simpa [dropPrefix?] using cut
  have closed : endsWith ['>'] (name ++ '<' :: (inside ++ ['>'])) = true := by
    simp [endsWith, startsWith, dropPrefix?]
  simp only [stripGeneric?, trimmed, dropped]
  by_cases same : outer = name
  · simp only [same, if_true, closed]
    cases inside with
    | nil => simp
    | cons c r => simp
  · simp only [same, if_false]

theorem stripGeneric?_names {outer u : Text} (filled : u ≠ []) (names : ∀ c ∈ u, isNameChar c = true) :
    stripGeneric? u outer = none := by
  have absent : '<' ∉ u := fun member =>
    not_mem_of_isNameChar ['<'] (by decide) (names _ member) (by simp)
  have dropped : dropPrefix? (outer ++ ['<']) u = none :=
    dropPrefix?_eq_none_of_not_mem (by simp) absent
  simp only [stripGeneric?, (IsPiece.names filled names).trimmed, dropped]

/-- Another first letter tells a type from a wrapper. -/
theorem stripGeneric?_of_head {outer u : Text} (filled : outer ≠ []) (trimmed : trim u = u)
    (apart : ∀ c ∈ outer.head?, ∀ d ∈ u.head?, c ≠ d) : stripGeneric? u outer = none := by
  obtain ⟨c, outer, rfl⟩ := List.exists_cons_of_ne_nil filled
  cases u with
  | nil => simp [stripGeneric?, trimmed, dropPrefix?]
  | cons d r => simp [stripGeneric?, trimmed, dropPrefix?, apart c rfl d rfl]

theorem stripGeneric?_marked {outer u : Text} (filled : outer ≠ [])
    (outers : ∀ c ∈ outer, isNameChar c = true) (trimmed : trim u = u) (marked : IsMarked u) :
    stripGeneric? u outer = none := by
  obtain ⟨d, first, mark⟩ := marked
  apply stripGeneric?_of_head filled trimmed
  rintro c found e start rfl
  obtain rfl : d = c := Option.some.inj (first.symm.trans start)
  exact not_mem_of_isNameChar ['(', '[', '&'] (by decide) (outers d (List.mem_of_head? found)) mark

theorem dropLifetime_of_head {u : Text} (other : ∀ c ∈ u.head?, c ≠ '&') : dropLifetime u = u := by
  unfold dropLifetime
  split
  · simp at other
  · rfl

theorem dropLifetime_reference {u : Text} (plain : ∀ c ∈ u.head?, c ≠ '\'') :
    dropLifetime ('&' :: u) = '&' :: u := by
  cases u with
  | nil => rfl
  | cons c r =>
    have quote := plain c rfl
    unfold dropLifetime
    split
    · rename_i same
      exact absurd (List.cons.inj (List.cons.inj same).2).1 quote
    · rfl

theorem referenceParts?_eq_none {u : Text} (other : ∀ c ∈ u.head?, c ≠ '&') :
    referenceParts? u = none := by
  unfold referenceParts?
  rw [dropLifetime_of_head other]
  split
  · exact absurd rfl (other '&' rfl)
  · rfl

theorem TypeTerm.applied_eq (name : Text) (arguments : List Text) :
    TypeTerm.applied name arguments = name ++ '<' :: (join [',', ' '] arguments ++ ['>']) := by
  simp [TypeTerm.applied]

/-- A type is a name, a name with arguments, or begins with a mark. -/
theorem TypeTerm.normal_cases (t : TypeTerm) :
    (∃ n, t = .name n) ∨
      (∃ name arguments, (∀ c ∈ name, isNameChar c = true) ∧ t.normal = applied name arguments) ∨
      IsMarked t.normal := by
  cases t with
  | unit => exact Or.inr (Or.inr ⟨'(', rfl, by simp⟩)
  | name n => exact Or.inl ⟨n, rfl⟩
  | generic n plain arguments =>
    refine Or.inr (Or.inl ⟨n.text, spelledAll [' '] arguments, n.isNameChar, ?_⟩)
    rw [normal, spelled]
  | option t => exact Or.inr (Or.inl ⟨optionName, _, by decide, rfl⟩)
  | result t => exact Or.inr (Or.inl ⟨resultName, _, by decide, rfl⟩)
  | resultOr t e => exact Or.inr (Or.inl ⟨resultName, _, by decide, rfl⟩)
  | vec t => exact Or.inr (Or.inl ⟨vecName, _, by decide, rfl⟩)
  | reference t => exact Or.inr (Or.inr ⟨'&', rfl, by simp⟩)
  | mutableReference t => exact Or.inr (Or.inr ⟨'&', rfl, by simp⟩)
  | tuple t ts =>
    refine Or.inr (Or.inr ⟨'(', ?_, by simp⟩)
    cases ts with
    | nil => rfl
    | cons u ts => rfl
  | array t n => exact Or.inr (Or.inr ⟨'[', rfl, by simp⟩)
  | slice t => exact Or.inr (Or.inr ⟨'[', rfl, by simp⟩)

/-- Only a name is spelled like a name. -/
theorem TypeTerm.eq_name {t : TypeTerm} (names : ∀ c ∈ t.normal, isNameChar c = true) :
    ∃ n, t = .name n := by
  rcases t.normal_cases with name | ⟨name, arguments, -, shape⟩ | ⟨c, first, mark⟩
  · exact name
  · have angle : '<' ∈ t.normal := by simp [shape, applied_eq]
    exact absurd (names '<' angle) (by decide)
  · exact absurd mark (not_mem_of_isNameChar _ (by decide) (names c (List.mem_of_head? first)))

/-- No type begins with `mut` and a space. -/
theorem TypeTerm.dropPrefix?_mut (t : TypeTerm) : dropPrefix? "mut ".toList t.normal = none := by
  rcases t.normal_cases with ⟨n, rfl⟩ | ⟨name, arguments, names, shape⟩ | ⟨c, first, mark⟩
  · apply dropPrefix?_eq_none_of_not_mem (by decide : ' ' ∈ "mut ".toList)
    exact fun member => not_mem_of_isNameChar [' '] (by decide) (n.isNameChar _ member) (by simp)
  · have cut := dropPrefix?_marked isNameChar
      (by decide : ∀ c ∈ ['m', 'u', 't'], isNameChar c = true) names
      (by decide : isNameChar ' ' = false)
      (by simp; decide : ∀ c ∈ ('<' :: (join [',', ' '] arguments ++ ['>'])).head?, isNameChar c = false)
    rw [shape, TypeTerm.applied_eq, show "mut ".toList = ['m', 'u', 't'] ++ [' '] from rfl, cut]
    split <;> rfl
  · cases text : t.normal with
    | nil => rfl
    | cons d r =>
      rw [text] at first
      obtain rfl : d = c := Option.some.inj first
      have apart : 'm' ≠ d := by
        rintro rfl
        simp at mark
      simp [dropPrefix?, apart]

theorem referenceParts?_reference {u : Text} (trimmed : trim u = u) (plain : ∀ c ∈ u.head?, c ≠ '\'')
    (notMut : dropPrefix? "mut ".toList u = none) : referenceParts? ('&' :: u) = some (['&'], u) := by
  rw [referenceParts?, dropLifetime_reference plain]
  simp only [trimmed, notMut]

theorem referenceParts?_mutableReference {u : Text} (piece : IsPiece u) :
    referenceParts? ('&' :: ("mut ".toList ++ u)) = some ("&mut ".toList, u) := by
  have trimmed : trim ("mut ".toList ++ u) = "mut ".toList ++ u := by
    apply trim_eq_self
    · intro c found
      obtain rfl : 'm' = c := Option.some.inj found
      decide
    · intro c found
      rw [List.getLast?_append, Option.or_of_isSome (by simpa using piece.filled)] at found
      exact piece.last_solid c found
  rw [referenceParts?, dropLifetime_reference (by simp)]
  simp only [trimmed, dropPrefix?_append, piece.trimmed]

theorem enclosed?_eq_none {opening closing : Char} {u : Text} (other : ∀ c ∈ u.head?, c ≠ opening) :
    enclosed? opening closing u = none := by
  cases u with
  | nil => rfl
  | cons c r => simp [enclosed?, other c rfl]

theorem enclosed?_between (opening closing : Char) (inside : Text) :
    enclosed? opening closing (opening :: (inside ++ [closing])) = some inside := by
  simp [enclosed?]

/-- The last semicolon of an array type is the one before its length. -/
theorem arrayParts?_array {element : Text} (piece : IsPiece element) (n : ArrayLength) :
    arrayParts? (element ++ [';', ' '] ++ n.text) = some (element, n.text) := by
  have clean : ∀ c ∈ n.text.reverse ++ [' '], (c == ';') = false := by
    intro c member
    rcases List.mem_append.mp member with member | member
    · rw [beq_eq_false_iff_ne]
      rintro rfl
      exact not_mem_of_isNameChar [';'] (by decide) (n.isNameChar _ (List.mem_reverse.mp member))
        (by simp)
    · rw [List.mem_singleton.mp member]
      rfl
  have cut := cutAt?_append element.reverse clean (rfl : (';' == ';') = true)
  have square : ']' ∉ n.text.reverse ++ [' '] := by
    intro member
    rcases List.mem_append.mp member with member | member
    · exact not_mem_of_isNameChar [']'] (by decide) (n.isNameChar _ (List.mem_reverse.mp member))
        (by simp)
    · simp at member
  have number := (IsPiece.names n.filled n.isNameChar).trimmed
  have reversed : (element ++ [';', ' '] ++ n.text).reverse =
      n.text.reverse ++ [' '] ++ ';' :: element.reverse := by
    simp
  have length : trim (n.text.reverse ++ [' ']).reverse = n.text := by
    rw [List.reverse_append, List.reverse_reverse]
    exact (trim_blanks_append (by decide) n.text).trans number
  rw [arrayParts?, reversed, cut]
  simp only [length, List.reverse_reverse, piece.trimmed]
  exact if_pos ⟨by simp, square, by simpa using piece.filled⟩

theorem arrayParts?_slice {u : Text} (closed : Sealed u) : arrayParts? u = none := by
  unfold arrayParts?
  split
  · rename_i length element cut
    obtain ⟨mark, found, shape, -⟩ := cutAt?_eq_some cut
    obtain rfl : mark = ';' := by simpa using found
    have back : u = element.reverse ++ ';' :: length.reverse := by
      rw [← List.reverse_reverse u, shape]
      simp
    have member := (back ▸ closed).behind
    rw [if_neg]
    rintro ⟨-, absent, -⟩
    exact absent (List.mem_reverse.mp member)
  · rfl

theorem isNominal_append {name behind : Text} (names : ∀ c ∈ name, isNameChar c = true)
    (stopped : ∀ c ∈ behind.head?, c = '<') :
    isNominal (name ++ behind) = TypeTerm.isCapitalized name := by
  have absent : ':' ∉ name := fun member =>
    not_mem_of_isNameChar [':'] (by decide) (names _ member) (by simp)
  rw [isNominal, baseName_append names stopped, lastSegment_eq_self absent,
    TypeTerm.isCapitalized]

theorem nominal?_names {u : Text} (names : ∀ c ∈ u, isNameChar c = true) :
    nominal? u = if TypeTerm.isCapitalized u then some (u ++ "::default()".toList) else none := by
  have absent : '<' ∉ u := fun member =>
    not_mem_of_isNameChar ['<'] (by decide) (names _ member) (by simp)
  have nominal : isNominal u = TypeTerm.isCapitalized u := by
    simpa using isNominal_append names (by simp : ∀ c ∈ ([] : Text).head?, c = '<')
  rw [nominal?, nominal, if_neg absent]

theorem nominal?_applied {name behind : Text} (names : ∀ c ∈ name, isNameChar c = true) :
    nominal? (name ++ '<' :: behind) =
      if TypeTerm.isCapitalized name then
        some (['<'] ++ (name ++ '<' :: behind) ++ ">::default()".toList)
      else none := by
  have angle : '<' ∈ name ++ '<' :: behind := by simp
  rw [nominal?, isNominal_append names (by simp), if_pos angle]

/-- What no other rule looks at is a library type, a nominal type, or has the general default. -/
theorem literalWithin_unwrapped {overrides : Literal.Overrides} {u : Text} (free : overrides u = none)
    (head : ∀ c ∈ u.head?, c ∉ ['&', '(', '[']) {mark : Char} (member : mark ∈ u)
    (other : isNameChar mark = false) (stripped : ∀ outer ∈ wrapperNames, stripGeneric? u outer = none)
    (level : Nat) :
    literalWithin overrides (level + 1) u = .ok ((wellKnown? u).getD ((nominal? u).getD fallback)) := by
  have head_ne : ∀ d ∈ ['&', '(', '['], ∀ c ∈ u.head?, c ≠ d := fun d listed c found same =>
    head c found (same ▸ listed)
  have notText : u ≠ "&str".toList := by
    rintro rfl
    exact head '&' rfl (by decide)
  have notUnit : u ≠ "()".toList := by
    rintro rfl
    exact head '(' rfl (by decide)
  have plain := dropLifetime_of_head (head_ne '&' (by decide))
  rw [literalWithin]
  simp only [free, primitive?_eq_none plain notText notUnit member other,
    stripped "Option".toList (by decide), stripped "Result".toList (by decide),
    stripped "Vec".toList (by decide), referenceParts?_eq_none (head_ne '&' (by decide)),
    enclosed?_eq_none (head_ne '(' (by decide)), enclosed?_eq_none (head_ne '[' (by decide))]
  cases wellKnown? u <;> rfl

end TestSkeleton.Rust
