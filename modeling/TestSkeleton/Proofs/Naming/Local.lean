import TestSkeleton.Naming.Local
import TestSkeleton.Proofs.Naming.Fresh

/-! The local variables of a test: one for each argument, and no two alike.

A local is the declared name of its argument or the number of it, with the fewest underscores behind that make it
differ from the locals before it. So it is an identifier, and none of the names that tests use themselves. -/

namespace TestSkeleton.Naming

open Text

theorem length_localsFrom (names taken : List Text) (index : Nat) (rest : List Text) :
    (localsFrom names taken index rest).length = rest.length := by
  induction rest generalizing taken index with
  | nil => rfl
  | cons name rest ih => simp [localsFrom, ih]

theorem length_locals (names : List Text) : (locals names).length = names.length :=
  length_localsFrom names [] 0 names

/-- A local is none of the names taken before it, and no later one is like it. -/
theorem nodup_localsFrom (names taken : List Text) (index : Nat) (rest : List Text) :
    (localsFrom names taken index rest).Nodup ∧
      ∀ name ∈ localsFrom names taken index rest, name ∉ taken := by
  induction rest generalizing taken index with
  | nil => exact ⟨List.nodup_nil, fun name member => absurd member List.not_mem_nil⟩
  | cons name rest ih =>
    have underscored : ∀ (base : Text) (i j : Nat),
        base ++ List.replicate i '_' = base ++ List.replicate j '_' → i = j := by
      intro base i j same
      simpa using congrArg List.length same
    rw [localsFrom]
    generalize (if isUsable names name then name else numbered index) = base
    have free : fresh taken (fun k => base ++ List.replicate k '_') 0 ∉ taken :=
      fresh_not_mem taken fun i j _ _ same => underscored base i j same
    obtain ⟨distinct, apart⟩ := ih (fresh taken (fun k => base ++ List.replicate k '_') 0 :: taken)
      (index + 1)
    refine ⟨List.nodup_cons.mpr ⟨fun again => apart _ again List.mem_cons_self, distinct⟩, ?_⟩
    intro other member
    rcases List.mem_cons.mp member with rfl | later
    · exact free
    · exact fun was => apart other later (List.mem_cons_of_mem _ was)

theorem nodup_locals (names : List Text) : (locals names).Nodup := (nodup_localsFrom names [] 0 names).1

/-! The choice of each local. -/

/-- A name with underscores behind it. -/
def underscored (base : Text) (k : Nat) : Text := base ++ List.replicate k '_'

/-- What the local of an argument is made from: the declared name where it is usable, else the number. -/
def wanted (names : List Text) (index : Nat) (name : Text) : Text :=
  if isUsable names name then name else numbered index

theorem underscored_zero (base : Text) : underscored base 0 = base := List.append_nil base

theorem underscored_underscored (base : Text) (k l : Nat) :
    underscored (underscored base k) l = underscored base (k + l) := by
  rw [underscored, underscored, underscored, List.append_assoc, List.replicate_append_replicate]

theorem underscored_injective {base : Text} {k l : Nat} (same : underscored base k = underscored base l) :
    k = l := by
  have length := congrArg List.length (List.append_cancel_left same)
  rwa [List.length_replicate, List.length_replicate] at length

theorem localsFrom_append (names taken front back : List Text) (index : Nat) :
    localsFrom names taken index (front ++ back) =
      localsFrom names taken index front ++
        localsFrom names ((localsFrom names taken index front).reverse ++ taken) (index + front.length) back := by
  induction front generalizing taken index with
  | nil => rfl
  | cons name front ih =>
    have further : index + (front.length + 1) = index + 1 + front.length := by omega
    simp [localsFrom, ih, further]

/-- A local has the fewest underscores that make it differ from those before it. -/
theorem getElem?_locals {names : List Text} {i : Nat} {name : Text} (declared : names[i]? = some name) :
    ∃ k, IsFirstFree ((locals names).take i) (underscored (wanted names i name)) 0 k ∧
      (locals names)[i]? = some (underscored (wanted names i name) k) := by
  obtain ⟨inside, rfl⟩ := List.getElem?_eq_some_iff.mp declared
  have parted : names = names.take i ++ names[i] :: names.drop (i + 1) := by
    rw [← List.drop_eq_getElem_cons inside, List.take_append_drop]
  have length : (localsFrom names [] 0 (names.take i)).length = i := by
    rw [length_localsFrom, List.length_take, Nat.min_eq_left (Nat.le_of_lt inside)]
  have cut := localsFrom_append names [] (names.take i) (names[i] :: names.drop (i + 1)) 0
  rw [← parted, List.length_take, Nat.min_eq_left (Nat.le_of_lt inside), Nat.zero_add, List.append_nil] at cut
  have before : (locals names).take i = localsFrom names [] 0 (names.take i) := by
    rw [locals, cut, List.take_left' length]
  have different : ∀ k l, 0 ≤ k → 0 ≤ l → underscored (wanted names i names[i]) k =
      underscored (wanted names i names[i]) l → k = l := fun _ _ _ _ => underscored_injective
  obtain ⟨k, ⟨start, free, taken⟩, found⟩ :=
    exists_isFirstFree (localsFrom names [] 0 (names.take i)).reverse different
  simp only [List.mem_reverse] at free taken
  refine ⟨k, before ▸ ⟨start, free, taken⟩, ?_⟩
  rw [locals, cut, List.getElem?_append_right (Nat.le_of_eq length), length, Nat.sub_self, ← found]
  rfl

/-! Locals as identifiers. -/

theorem toNat_of_isAsciiIdentifierContinue {c : Char} (continues : isAsciiIdentifierContinue c = true) :
    c.toNat < 0x80 := by
  -- Each run of letters and digits ends below the bound.
  have below : ∀ last : Char, last.toNat < 0x80 → c.val ≤ last.val → c.toNat < 0x80 :=
    fun _ small high => Nat.lt_of_le_of_lt high small
  rcases Bool.or_eq_true_iff.mp continues with alphanumeric | underscore
  · rcases Bool.or_eq_true_iff.mp alphanumeric with letter | digit
    · rcases Bool.or_eq_true_iff.mp letter with upper | lower
      · exact below 'Z' (by decide) (of_decide_eq_true upper).2
      · exact below 'z' (by decide) (of_decide_eq_true (Bool.and_eq_true_iff.mp lower).2)
    · exact below '9' (by decide) (of_decide_eq_true (Bool.and_eq_true_iff.mp digit).2)
  · rw [eq_of_beq underscore]
    decide

theorem isWord_of_isAsciiIdentifierContinue {c : Char} (continues : isAsciiIdentifierContinue c = true) :
    isWord c = true := by
  rw [isWord, if_pos (toNat_of_isAsciiIdentifierContinue continues)]
  exact continues

theorem isAsciiIdentifierContinue_of_isAsciiIdentifierStart {c : Char} (start : isAsciiIdentifierStart c = true) :
    isAsciiIdentifierContinue c = true := by
  rcases Bool.or_eq_true_iff.mp start with letter | underscore
  · simp [isAsciiIdentifierContinue, Char.isAlphanum, letter]
  · simp [isAsciiIdentifierContinue, underscore]

theorem isAsciiIdentifierContinue_of_mem_ofNat {n : Nat} {c : Char} (member : c ∈ ofNat n) :
    isAsciiIdentifierContinue c = true := by
  have digit := Nat.isDigit_of_mem_toDigits (by decide) (by decide) member
  simp [isAsciiIdentifierContinue, Char.isAlphanum, digit]

theorem isAsciiIdentifierContinue_of_mem {t : Text} (identifier : isIdentifier t = true) {c : Char}
    (member : c ∈ t) : isAsciiIdentifierContinue c = true := by
  cases t with
  | nil => cases identifier
  | cons d r =>
    obtain ⟨start, rest⟩ := Bool.and_eq_true_iff.mp identifier
    rcases List.mem_cons.mp member with rfl | later
    · exact isAsciiIdentifierContinue_of_isAsciiIdentifierStart start
    · exact List.all_eq_true.mp rest c later

theorem isIdentifier_append {base tail : Text} (identifier : isIdentifier base = true)
    (continues : ∀ c ∈ tail, isAsciiIdentifierContinue c = true) : isIdentifier (base ++ tail) = true := by
  cases base with
  | nil => cases identifier
  | cons c r =>
    simp only [List.cons_append, isIdentifier, List.all_append, Bool.and_eq_true] at identifier ⊢
    exact ⟨identifier.1, identifier.2, List.all_eq_true.mpr continues⟩

theorem isIdentifier_numbered (index : Nat) : isIdentifier (numbered index) = true :=
  isIdentifier_append (by decide) fun _ => isAsciiIdentifierContinue_of_mem_ofNat

theorem isIdentifier_underscored {base : Text} (identifier : isIdentifier base = true) (k : Nat) :
    isIdentifier (underscored base k) = true := by
  apply isIdentifier_append identifier
  intro c member
  rw [List.eq_of_mem_replicate member]
  decide

theorem isUsable_iff {names : List Text} {name : Text} : isUsable names name = true ↔
    isIdentifier name = true ∧ name ∉ reservedLocals ∧ names.count name = 1 ∧ isPlaceholder name = false := by
  simp [isUsable, and_assoc]

theorem isIdentifier_wanted (names : List Text) (index : Nat) (name : Text) :
    isIdentifier (wanted names index name) = true := by
  unfold wanted
  split
  · exact (isUsable_iff.mp ‹_›).1
  · exact isIdentifier_numbered index

theorem wanted_not_reserved (names : List Text) (index : Nat) (name : Text) :
    wanted names index name ∉ reservedLocals := by
  unfold wanted
  split
  · exact (isUsable_iff.mp ‹_›).2.1
  · intro reserved
    have other : ∀ r ∈ reservedLocals, r.head? ≠ some 'p' := by decide
    exact other _ reserved rfl

/-- The one reserved name that ends in an underscore is too short to be another name with one behind it. -/
theorem underscored_not_reserved {base : Text} (identifier : isIdentifier base = true)
    (free : base ∉ reservedLocals) (k : Nat) : underscored base k ∉ reservedLocals := by
  cases k with
  | zero => rwa [underscored_zero]
  | succ k =>
    intro reserved
    have short : ∀ r ∈ reservedLocals, r.getLast? = some '_' → r.length = 1 := by decide
    have last : (underscored base (k + 1)).getLast? = some '_' := by
      rw [underscored, List.replicate_succ', ← List.append_assoc, List.getLast?_concat]
    have length := short _ reserved last
    rw [underscored, List.length_append, List.length_replicate] at length
    have empty : base = [] := List.length_eq_zero_iff.mp (by omega)
    rw [empty] at identifier
    cases identifier

/-- Every local is an identifier, and none of the names that tests use themselves. -/
theorem isIdentifier_of_mem_locals {names : List Text} {name : Text} (member : name ∈ locals names) :
    isIdentifier name = true ∧ name ∉ reservedLocals := by
  obtain ⟨i, chosen⟩ := List.mem_iff_getElem?.mp member
  have inside : i < names.length := by
    rw [← length_locals]
    exact (List.getElem?_eq_some_iff.mp chosen).1
  obtain ⟨k, -, found⟩ := getElem?_locals (List.getElem?_eq_getElem inside)
  obtain rfl := Option.some.inj (chosen.symm.trans found)
  have identifier := isIdentifier_wanted names i names[i]
  exact ⟨isIdentifier_underscored identifier k, underscored_not_reserved identifier (wanted_not_reserved _ _ _) k⟩

end TestSkeleton.Naming
