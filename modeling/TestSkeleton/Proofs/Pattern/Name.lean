import TestSkeleton.Pattern.Name
import TestSkeleton.Proofs.Pattern.Path
import TestSkeleton.Proofs.Text.Basic

/-! What patterns for one name admit, and how they differ from patterns for whole paths.

Without a class both readings of a pattern admit the same names of one line. With a class they do not: where
brackets are plain characters, every name that is admitted is longer than the shortest one that the class admits. -/

namespace TestSkeleton

open Text

namespace NamePiece

/-- The texts that a piece of a pattern stands for. -/
def Fits : NamePiece → Text → Prop
  | many, _ => True
  | piece, t => ∃ c, t = [c] ∧ piece.admitsChar c = true

/-- What a character of a pattern stands for outside of classes. -/
def plain (c : Char) : NamePiece := if c = '*' then many else if c = '?' then one else char c

theorem plain_of_ne {c : Char} (star : c ≠ '*') (question : c ≠ '?') : plain c = char c := by
  rw [plain, if_neg star, if_neg question]

end NamePiece

namespace NamePattern

/-- A pattern takes a name from its front, one piece after the other. -/
theorem admits_cons {piece : NamePiece} {p : NamePattern} {name : Text} :
    admits (piece :: p) name = true ↔
      ∃ front back, name = front ++ back ∧ piece.Fits front ∧ admits p back = true := by
  cases piece with
  | many =>
    rw [admits, List.any_eq_true]
    constructor
    · rintro ⟨back, member, rest⟩
      obtain ⟨front, -, rfl⟩ := Text.mem_endsAfter.mp member
      exact ⟨front, back, rfl, trivial, rest⟩
    · rintro ⟨front, back, rfl, -, rest⟩
      exact ⟨back, Text.mem_endsAfter.mpr ⟨front, fun _ _ => rfl, rfl⟩, rest⟩
  | one | char _ | oneOf _ _ =>
    cases name with
    | nil => simp [admits, NamePiece.Fits]
    | cons c r =>
      simp only [admits, Bool.and_eq_true]
      constructor
      · rintro ⟨fits, rest⟩
        exact ⟨[c], r, rfl, ⟨c, rfl, fits⟩, rest⟩
      · rintro ⟨front, back, shape, ⟨d, rfl, fits⟩, rest⟩
        obtain ⟨rfl, rfl⟩ := List.cons.inj shape
        exact ⟨fits, rest⟩

/-! How a text is read. -/

/-- A class ends at a closing bracket. -/
theorem eq_append_of_cutClass? {t content rest : Text} (cut : cutClass? t = some (content, rest)) :
    t = content ++ ']' :: rest := by
  unfold cutClass? at cut
  extract_lets lead at cut
  have parted : t = lead ++ t.drop lead.length := by
    unfold lead
    split <;> rfl
  obtain ⟨⟨inner, behind⟩, found, same⟩ := Option.map_eq_some_iff.mp cut
  obtain ⟨rfl, rfl⟩ := Prod.mk.inj same
  obtain ⟨mark, closes, shape, -⟩ := cutAt?_eq_some found
  rw [beq_iff_eq.mp closes] at shape
  rw [parted, shape, List.append_assoc]

/-- What is read of a text: character by character, and classes as a whole. -/
inductive Reads : Text → NamePattern → Prop where
  | nil : Reads [] []
  | plain {c : Char} {r : Text} {p : NamePattern} (open_ : c = '[' → cutClass? r = none) (later : Reads r p) :
    Reads (c :: r) (NamePiece.plain c :: p)
  | ofClass {r content rest : Text} {p : NamePattern} (cut : cutClass? r = some (content, rest))
      (later : Reads rest p) : Reads ('[' :: r) (NamePiece.ofClass content :: p)

theorem reads_readWithin {n : Nat} {t : Text} (enough : t.length ≤ n) : Reads t (readWithin n t) := by
  induction n generalizing t with
  | zero =>
    rw [List.length_eq_zero_iff.mp (Nat.le_zero.mp enough)]
    exact .nil
  | succ n ih =>
    cases t with
    | nil => exact .nil
    | cons c r =>
      have later := ih (Nat.le_of_succ_le_succ enough)
      unfold readWithin
      split
      · exact .plain (fun same => absurd same (by decide)) later
      · exact .plain (fun same => absurd same (by decide)) later
      · split
        · rename_i content rest cut
          have shape := eq_append_of_cutClass? cut
          refine .ofClass cut (ih ?_)
          rw [shape] at enough
          simp at enough
          omega
        · exact .plain (fun _ => ‹_›) later
      · rename_i star question bracket
        rw [← NamePiece.plain_of_ne star question]
        exact .plain (fun same => absurd same bracket) later

theorem reads_read (t : Text) : Reads t (read t) := reads_readWithin (Nat.le_refl _)

/-- Whether a text has a class in it: an opening bracket and, with something in between, a closing one. -/
def HasClass (t : Text) : Prop := ∃ front rest, t = front ++ '[' :: rest ∧ (cutClass? rest).isSome = true

theorem HasClass.cons {t : Text} (c : Char) (found : HasClass t) : HasClass (c :: t) := by
  obtain ⟨front, rest, rfl, closed⟩ := found
  exact ⟨c :: front, rest, rfl, closed⟩

/-- Without a class every character is read for itself. -/
theorem Reads.eq_plain {t : Text} {p : NamePattern} (reads : Reads t p) (classless : ¬HasClass t) :
    p = t.map NamePiece.plain := by
  induction reads with
  | nil => rfl
  | @plain c r p _ _ ih => rw [List.map_cons, ih fun found => classless (found.cons c)]
  | ofClass cut _ _ => exact absurd ⟨[], _, rfl, by rw [cut]; rfl⟩ classless

/-! The lengths of names. -/

/-- How many characters a name has at least that a pattern admits. -/
def least (p : NamePattern) : Nat := p.countP (· != .many)

theorem least_cons (piece : NamePiece) (p : NamePattern) :
    least (piece :: p) = least p + if piece = .many then 0 else 1 := by
  rw [least, List.countP_cons]
  by_cases star : piece = .many <;> simp [star, least]

theorem least_append (p q : NamePattern) : least (p ++ q) = least p + least q := List.countP_append

theorem least_le_length {p : NamePattern} {name : Text} (admitted : admits p name = true) :
    least p ≤ name.length := by
  induction p generalizing name with
  | nil => exact Nat.zero_le _
  | cons piece p ih =>
    obtain ⟨front, back, rfl, fits, rest⟩ := admits_cons.mp admitted
    have later := ih rest
    rw [least_cons, List.length_append]
    cases piece with
    | many =>
      rw [if_pos rfl]
      omega
    | one | char _ | oneOf _ _ =>
      obtain ⟨c, rfl, -⟩ := fits
      rw [if_neg nofun, List.length_singleton]
      omega

/-- Every piece but `*` takes a character of the name. -/
theorem exists_mem_of_admits {p : NamePattern} {name : Text} (admitted : admits p name = true) :
    ∀ piece ∈ p, piece ≠ .many → ∃ c ∈ name, piece.admitsChar c = true := by
  induction p generalizing name with
  | nil => simp
  | cons first p ih =>
    obtain ⟨front, back, rfl, fits, rest⟩ := admits_cons.mp admitted
    intro piece member single
    rcases List.mem_cons.mp member with rfl | later
    · cases piece with
      | many => exact absurd rfl single
      | one | char _ | oneOf _ _ =>
        obtain ⟨c, rfl, taken⟩ := fits
        exact ⟨c, by simp, taken⟩
    · obtain ⟨c, inside, taken⟩ := ih rest piece later single
      exact ⟨c, List.mem_append_right front inside, taken⟩

/-- A pattern admits a name of the least length, of any characters that its pieces allow. -/
theorem exists_shortest {Q : Char → Prop} {p : NamePattern}
    (allowed : ∀ piece ∈ p, piece ≠ .many → ∃ c, Q c ∧ piece.admitsChar c = true) :
    ∃ name, admits p name = true ∧ name.length = least p ∧ ∀ c ∈ name, Q c := by
  induction p with
  | nil => exact ⟨[], rfl, rfl, by simp⟩
  | cons piece p ih =>
    obtain ⟨name, admitted, length, inside⟩ := ih fun piece later => allowed piece (List.mem_cons_of_mem _ later)
    by_cases star : piece = .many
    · subst star
      refine ⟨name, admits_cons.mpr ⟨[], name, rfl, trivial, admitted⟩, ?_, inside⟩
      rw [length, least_cons, if_pos rfl, Nat.add_zero]
    · obtain ⟨c, fine, taken⟩ := allowed piece List.mem_cons_self star
      refine ⟨c :: name, admits_cons.mpr ⟨[c], name, rfl, ?_, admitted⟩, ?_, List.forall_mem_cons.mpr ⟨fine, inside⟩⟩
      · cases piece with
        | many => exact absurd rfl star
        | one | char _ | oneOf _ _ => exact ⟨c, rfl, taken⟩
      · rw [List.length_cons, length, least_cons, if_neg star]

/-- Where brackets are plain characters, names are no shorter, and longer if there is a class. -/
theorem Reads.least_le {t : Text} {p : NamePattern} (reads : Reads t p) :
    least p ≤ least (t.map NamePiece.plain) ∧
      (HasClass t → 0 < least p ∧ least p < least (t.map NamePiece.plain)) := by
  induction reads with
  | nil => exact ⟨Nat.le_refl _, by simp [HasClass]⟩
  | @plain c r p open_ _ ih =>
    rw [List.map_cons, least_cons, least_cons]
    refine ⟨Nat.add_le_add_right ih.1 _, ?_⟩
    rintro ⟨front, rest, shape, closed⟩
    cases front with
    | nil =>
      obtain ⟨rfl, rfl⟩ := List.cons.inj shape
      rw [open_ rfl] at closed
      cases closed
    | cons d front =>
      obtain ⟨some, fewer⟩ := ih.2 ⟨front, rest, (List.cons.inj shape).2, closed⟩
      exact ⟨Nat.add_pos_left some _, Nat.add_lt_add_right fewer _⟩
  | @ofClass r content rest p cut _ ih =>
    have single : NamePiece.ofClass content ≠ .many := by
      unfold NamePiece.ofClass
      split <;> [nofun; split <;> nofun]
    have opening : NamePiece.plain '[' ≠ .many := nofun
    have closing : NamePiece.plain ']' ≠ .many := nofun
    -- The two brackets are characters of their own, where the class is a single one.
    have longer : least (NamePiece.ofClass content :: p) < least (('[' :: r).map NamePiece.plain) := by
      rw [eq_append_of_cutClass? cut, List.map_cons, List.map_append, List.map_cons, least_cons, least_cons,
        least_append, least_cons, if_neg single, if_neg opening, if_neg closing]
      have later := ih.1
      omega
    have some : 0 < least (NamePiece.ofClass content :: p) := by
      rw [least_cons, if_neg single]
      exact Nat.succ_pos _
    exact ⟨Nat.le_of_lt longer, fun _ => ⟨some, longer⟩⟩

/-- A name of the least length: the pattern without its stars, and with a letter for each question mark. -/
def shortest (t : Text) : Text := (t.filter (· ≠ '*')).map fun c => if c = '?' then 'a' else c

theorem length_shortest (t : Text) : (shortest t).length = least (t.map NamePiece.plain) := by
  induction t with
  | nil => rfl
  | cons c t ih =>
    rw [List.map_cons, least_cons, ← ih]
    by_cases star : c = '*'
    · simp [shortest, star, NamePiece.plain]
    · have piece : NamePiece.plain c ≠ .many := by
        rw [NamePiece.plain, if_neg star]
        split <;> nofun
      simp [shortest, star, piece]

theorem of_mem_shortest {Q : Char → Prop} {t : Text} (letter : Q 'a') (inside : ∀ c ∈ t, Q c) :
    ∀ c ∈ shortest t, Q c := by
  intro c member
  obtain ⟨d, kept, rfl⟩ := List.mem_map.mp member
  split
  · exact letter
  · exact inside d (List.mem_filter.mp kept).1

end NamePattern

namespace PathPattern

open NamePattern (HasClass shortest least)

variable {t name : Text}

/-- Of the names that a pattern for whole paths admits, the pattern of its characters admits all. -/
theorem plain_of_read (single : '/' ∉ t) (admitted : (read t).admits name = true) :
    NamePattern.admits (t.map NamePiece.plain) name = true := by
  induction t using read.induct generalizing name with
  | case1 r => exact absurd (by simp) single
  | case2 => exact absurd (by simp) single
  | case3 r open_ ih =>
    rw [read.eq_3 _ open_] at admitted
    obtain ⟨front, back, rfl, -, rest⟩ := admits_cons.mp admitted
    have later := ih (by simpa using single) rest
    exact NamePattern.admits_cons.mpr ⟨front, back, rfl, trivial,
      NamePattern.admits_cons.mpr ⟨[], back, rfl, trivial, later⟩⟩
  | case4 r folders more ih =>
    rw [read.eq_4 _ folders more] at admitted
    obtain ⟨front, back, rfl, -, rest⟩ := admits_cons.mp admitted
    exact NamePattern.admits_cons.mpr ⟨front, back, rfl, trivial, ih (by simpa using single) rest⟩
  | case5 r ih =>
    obtain ⟨front, back, rfl, ⟨c, -, rfl⟩, rest⟩ := admits_cons.mp admitted
    exact NamePattern.admits_cons.mpr ⟨[c], back, rfl, ⟨c, rfl, rfl⟩, ih (by simpa using single) rest⟩
  | case6 c r _ inside _ star question ih =>
    rw [read_plain star question inside] at admitted
    obtain ⟨front, back, rfl, rfl, rest⟩ := admits_cons.mp admitted
    rw [List.map_cons, NamePiece.plain_of_ne star question]
    exact NamePattern.admits_cons.mpr ⟨[c], back, rfl, ⟨c, rfl, beq_self_eq_true c⟩,
      ih (fun later => single (List.mem_cons_of_mem c later)) rest⟩
  | case7 => exact admitted

/-- A name of one line, or a pattern without two stars in a row. -/
def OneLine (t name : Text) : Prop := '\n' ∉ name ∨ ¬"**".toList <:+: t

theorem OneLine.mono {u back : Text} (oneLine : OneLine t name) (behind : u <:+ t) (rest : back <:+ name) :
    OneLine u back :=
  oneLine.imp (fun clean member => clean (rest.subset member)) fun apart stars => apart (stars.trans behind.isInfix)

/-- The pattern of its characters admits no other names of one line, and no others at all without two stars. -/
theorem read_of_plain (single : '/' ∉ t) (plainName : '/' ∉ name)
    (oneLine : OneLine t name) (admitted : NamePattern.admits (t.map NamePiece.plain) name = true) :
    (read t).admits name = true := by
  induction t using read.induct generalizing name with
  | case1 r => exact absurd (by simp) single
  | case2 => exact absurd (by simp) single
  | case3 r folders ih =>
    obtain ⟨first, behind, rfl, -, inner⟩ := NamePattern.admits_cons.mp admitted
    obtain ⟨second, back, rfl, -, rest⟩ := NamePattern.admits_cons.mp inner
    rw [← List.append_assoc] at plainName oneLine ⊢
    have clean := oneLine.resolve_right fun apart => apart ⟨[], r, rfl⟩
    have later := ih (by simpa using single) (fun member => plainName (List.mem_append_right _ member))
      (.inl fun member => clean (List.mem_append_right _ member)) rest
    rw [read.eq_3 _ folders]
    exact admits_cons.mpr ⟨_, back, rfl, fun member => clean (List.mem_append_left _ member), later⟩
  | case4 r folders more ih =>
    obtain ⟨front, back, rfl, -, rest⟩ := NamePattern.admits_cons.mp admitted
    have later := ih (by simpa using single) (fun member => plainName (List.mem_append_right _ member))
      (oneLine.mono (List.suffix_cons _ r) (List.suffix_append front back)) rest
    rw [read.eq_4 _ folders more]
    exact admits_cons.mpr ⟨front, back, rfl, fun member => plainName (List.mem_append_left _ member), later⟩
  | case5 r ih =>
    obtain ⟨front, back, rfl, ⟨c, rfl, -⟩, rest⟩ := NamePattern.admits_cons.mp admitted
    have later := ih (by simpa using single) (fun member => plainName (List.mem_append_right _ member))
      (oneLine.mono (List.suffix_cons _ r) (List.suffix_append [c] back)) rest
    have inName : c ≠ '/' := fun slash => plainName (slash ▸ List.mem_cons_self)
    exact admits_cons.mpr ⟨[c], back, rfl, ⟨c, inName, rfl⟩, later⟩
  | case6 c r _ inside _ star question ih =>
    rw [List.map_cons, NamePiece.plain_of_ne star question] at admitted
    obtain ⟨front, back, rfl, ⟨d, rfl, same⟩, rest⟩ := NamePattern.admits_cons.mp admitted
    have later := ih (fun member => single (List.mem_cons_of_mem c member))
      (fun member => plainName (List.mem_append_right _ member))
      (oneLine.mono (List.suffix_cons c r) (List.suffix_append [d] back)) rest
    rw [read_plain star question inside]
    exact admits_cons.mpr ⟨[d], back, rfl, by rw [beq_iff_eq.mp same]; rfl, later⟩
  | case7 => exact admitted

theorem read_shortest (single : '/' ∉ t) : (read t).admits (shortest t) = true := by
  induction t using read.induct with
  | case1 r => exact absurd (by simp) single
  | case2 => exact absurd (by simp) single
  | case3 r folders ih =>
    rw [read.eq_3 _ folders]
    exact admits_cons.mpr ⟨[], shortest r, rfl, List.not_mem_nil, ih (by simpa using single)⟩
  | case4 r folders more ih =>
    rw [read.eq_4 _ folders more]
    exact admits_cons.mpr ⟨[], shortest r, rfl, List.not_mem_nil, ih (by simpa using single)⟩
  | case5 r ih =>
    exact admits_cons.mpr ⟨['a'], shortest r, rfl, ⟨'a', by decide, rfl⟩, ih (by simpa using single)⟩
  | case6 c r _ inside _ star question ih =>
    rw [read_plain star question inside]
    have later := ih fun member => single (List.mem_cons_of_mem c member)
    have shape : shortest (c :: r) = [c] ++ shortest r := by
      simp [shortest, show c ≠ '*' from star, show c ≠ '?' from question]
    exact admits_cons.mpr ⟨[c], shortest r, shape, rfl, later⟩
  | case7 => rfl

/-- A pattern without a class admits the same names of one line, read for whole paths and for one name. -/
theorem read_eq_name (single : '/' ∉ t) (classless : ¬HasClass t) (plainName : '/' ∉ name)
    (oneLine : OneLine t name) : (read t).admits name = (NamePattern.read t).admits name := by
  rw [(NamePattern.reads_read t).eq_plain classless, Bool.eq_iff_iff]
  exact ⟨plain_of_read single, read_of_plain single plainName oneLine⟩

/-- The characters of names of the lines that a pattern has. -/
def InName (t : Text) (c : Char) : Prop := c ≠ '/' ∧ (c = '\n' → '\n' ∈ t)

theorem not_mem_of_inName (inside : ∀ c ∈ name, InName t c) : '/' ∉ name ∧ ('\n' ∈ name → '\n' ∈ t) :=
  ⟨fun member => (inside _ member).1 rfl, fun member => (inside _ member).2 rfl⟩

theorem inName_of_mem_shortest (single : '/' ∉ t) : ∀ c ∈ shortest t, InName t c :=
  NamePattern.of_mem_shortest ⟨by decide, nofun⟩ fun _ member =>
    ⟨fun slash => single (slash ▸ member), fun feed => feed ▸ member⟩

/-- A pattern with a class does not. If every class has a member, then the shortest name with members of them is
too short for plain brackets. A class without a member refuses every name. -/
theorem exists_read_ne_name (single : '/' ∉ t) (found : HasClass t) :
    ∃ name, name ≠ [] ∧ '/' ∉ name ∧ ('\n' ∈ name → '\n' ∈ t) ∧
      (read t).admits name ≠ (NamePattern.read t).admits name := by
  obtain ⟨some, fewer⟩ := (NamePattern.reads_read t).least_le.2 found
  by_cases allowed : ∀ piece ∈ NamePattern.read t, piece ≠ .many →
      ∃ c, InName t c ∧ piece.admitsChar c = true
  · obtain ⟨name, admitted, length, inside⟩ := NamePattern.exists_shortest allowed
    obtain ⟨plainName, oneLine⟩ := not_mem_of_inName inside
    have refused : (read t).admits name ≠ true := fun taken => by
      have long := NamePattern.least_le_length (plain_of_read single taken)
      omega
    exact ⟨name, List.ne_nil_of_length_pos (length ▸ some), plainName, oneLine,
      fun same => refused (same.trans admitted)⟩
  · simp only [not_forall, not_exists, not_and] at allowed
    obtain ⟨piece, member, fixed, empty⟩ := allowed
    have inside := inName_of_mem_shortest single
    obtain ⟨plainName, oneLine⟩ := not_mem_of_inName inside
    have length := NamePattern.length_shortest t
    have refused : (NamePattern.read t).admits (shortest t) ≠ true := fun taken => by
      obtain ⟨c, here, fits⟩ := NamePattern.exists_mem_of_admits taken piece member fixed
      exact absurd fits (empty c (inside c here))
    exact ⟨shortest t, List.ne_nil_of_length_pos (by omega), plainName, oneLine,
      fun same => refused (same.symm.trans (read_shortest single))⟩

/-! Patterns below a folder. -/

theorem read_slash (t name : Text) : (read ('/' :: t)).admits ('/' :: name) = (read t).admits name := by
  by_cases all : t = ['*', '*']
  · subst all
    have outer : read ['/', '*', '*'] = [.inside] := rfl
    have inner : read ['*', '*'] = [.anything] := rfl
    rw [outer, inner, Bool.eq_iff_iff, admits_singleton, admits_singleton]
    simp [PathPiece.Fits]
  · rw [read_plain (by decide) (by decide) fun _ => all, admits, beq_self_eq_true, Bool.true_and]

/-- A folder in front of a pattern takes that folder of a path. -/
theorem read_below {folder : Text} (stars : '*' ∉ folder) (questions : '?' ∉ folder) (t name : Text) :
    (read (folder ++ '/' :: t)).admits (folder ++ '/' :: name) = (read t).admits name := by
  induction folder with
  | nil => exact read_slash t name
  | cons c folder ih =>
    have star : c ≠ '*' := fun same => stars (same ▸ List.mem_cons_self)
    have question : c ≠ '?' := fun same => questions (same ▸ List.mem_cons_self)
    have long : folder ++ '/' :: t ≠ ['*', '*'] := fun shape => by
      have slash : '/' ∈ folder ++ '/' :: t := by simp
      rw [shape] at slash
      exact absurd slash (by decide)
    rw [List.cons_append, List.cons_append, read_plain star question fun _ => long, admits, beq_self_eq_true,
      Bool.true_and]
    exact ih (fun member => stars (List.mem_cons_of_mem c member))
      (fun member => questions (List.mem_cons_of_mem c member))

end PathPattern

end TestSkeleton
