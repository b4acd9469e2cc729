import Mathlib.Data.List.Induction
import Mathlib.Data.List.Nodup
import TestSkeleton.Table

/-! Laws of tables: what an entry changes, and the order of the keys. -/

namespace TestSkeleton.Table

variable {κ α : Type} [BEq κ] [LawfulBEq κ]

theorem get?_cons [DecidableEq κ] (key k : κ) (value : α) (t : Table κ α) :
    get? key ((k, value) :: t) = if key = k then some value else t.get? key := by
  by_cases same : key = k
  · simp [get?, same]
  · have apart : (key == k) = false := by simpa using same
    simp [get?, List.lookup_cons, apart, same]

theorem lookup_eq_none_of_keys {table : List (κ × α)} {key : κ}
    (other : ∀ entry ∈ table, entry.1 ≠ key) : table.lookup key = none := by
  rw [List.lookup_eq_none_iff]
  intro entry member
  simpa using (other entry member).symm

theorem lookup_map_const [DecidableEq κ] (key : κ) (names : List κ) (value : α) :
    (names.map (·, value)).lookup key = if key ∈ names then some value else none := by
  induction names with
  | nil => rfl
  | cons name names ih =>
    by_cases same : key = name
    · simp [same]
    · have apart : (key == name) = false := by simpa using same
      simp [List.lookup_cons, apart, same, ih]

theorem mem_of_lookup {table : List (κ × α)} {key : κ} {value : α}
    (found : table.lookup key = some value) : (key, value) ∈ table := by
  obtain ⟨front, back, rfl, -⟩ := List.lookup_eq_some_iff.mp found
  exact List.mem_append_right front List.mem_cons_self

omit [LawfulBEq κ] in
theorem lookup_cons_eq_ite (key k : κ) (value : α) (rest : List (κ × α)) :
    ((k, value) :: rest).lookup key = if key == k then some value else rest.lookup key := by
  rw [List.lookup_cons]
  cases key == k <;> rfl

/-- Keys that share one value, in front of other entries. -/
theorem lookup_map_const_append [DecidableEq κ] (key : κ) (names : List κ) (value : α)
    (rest : List (κ × α)) : (names.map (·, value) ++ rest).lookup key =
      if key ∈ names then some value else rest.lookup key := by
  rw [List.lookup_append, lookup_map_const]
  split <;> rfl

/-- The first entry whose key satisfies `p` is the first entry with that key. -/
theorem get?_of_find? {t : Table κ α} {p : κ → Bool} {key : κ} {value : α}
    (found : t.find? (fun entry => p entry.1) = some (key, value)) : t.get? key = some value := by
  classical
  induction t with
  | nil => cases found
  | cons entry t ih =>
    obtain ⟨k, v⟩ := entry
    rw [List.find?_cons] at found
    rw [get?_cons]
    cases here : p k with
    | true =>
      simp only [here] at found
      cases found
      exact if_pos rfl
    | false =>
      simp only [here] at found
      have other : key ≠ k := by
        rintro rfl
        have fits : p key = true := List.find?_some (p := fun entry : κ × α => p entry.1) found
        rw [here] at fits
        cases fits
      rw [if_neg other]
      exact ih found

theorem get?_put (key other : κ) (value : α) (t : Table κ α) :
    (t.put key value).get? other = if other == key then some value else t.get? other := by
  induction t with
  | nil =>
    by_cases same : other == key <;> simp [put, get?, List.lookup_cons, same]
  | cons entry t ih =>
    obtain ⟨k, v⟩ := entry
    simp only [get?] at ih ⊢
    by_cases present : k = key
    · subst present
      by_cases same : other == k <;> simp [put, List.lookup_cons, same]
    · have apart : (k == key) = false := by simpa using present
      by_cases here : other = k
      · subst here
        simp [put, apart]
      · have away : (other == k) = false := by simpa using here
        simp [put, apart, List.lookup_cons, away, ih]

/-- Of two values entered for a key, the later one counts. -/
theorem put_put (key : κ) (value later : α) (t : Table κ α) :
    (t.put key value).put key later = t.put key later := by
  induction t with
  | nil => simp [put]
  | cons entry t ih =>
    obtain ⟨k, v⟩ := entry
    by_cases same : k = key
    · simp [put, same]
    · simp [put, same, ih]

/-- Entering the value that a key already has changes nothing. -/
theorem put_eq_self {key : κ} {value : α} {t : Table κ α} (found : t.get? key = some value) :
    t.put key value = t := by
  induction t with
  | nil => cases found
  | cons entry t ih =>
    obtain ⟨k, v⟩ := entry
    rw [get?, List.lookup_cons] at found
    by_cases same : key = k
    · subst same
      rw [beq_self_eq_true] at found
      simp [put, Option.some.inj found]
    · have apart : (key == k) = false := by simpa using same
      have other : (k == key) = false := by simpa using Ne.symm same
      rw [apart] at found
      rw [put, other, if_neg (by simp), ih found]

theorem get?_eq_none_iff {key : κ} {t : Table κ α} : t.get? key = none ↔ key ∉ t.keys := by
  rw [get?, keys, List.lookup_eq_none_iff]
  constructor
  · intro apart member
    obtain ⟨entry, listed, rfl⟩ := List.mem_map.mp member
    simpa using apart entry listed
  · intro absent entry listed
    rw [bne_iff_ne]
    rintro rfl
    exact absent (List.mem_map_of_mem listed)

/-- A key that was not there is entered last. -/
theorem put_of_not_mem {key : κ} (value : α) {t : Table κ α} (absent : key ∉ t.keys) :
    t.put key value = t ++ [(key, value)] := by
  induction t with
  | nil => rfl
  | cons entry t ih =>
    obtain ⟨k, v⟩ := entry
    simp only [keys, List.map_cons, List.mem_cons, not_or] at absent
    have other : (k == key) = false := by simpa using Ne.symm absent.1
    rw [put, other, if_neg (by simp), ih absent.2, List.cons_append]

/-- A key that is there keeps its place, and so do the entries around it. -/
theorem put_append_cons {key : κ} {front : Table κ α} (absent : key ∉ front.keys) (old value : α)
    (rest : Table κ α) :
    put key value (front ++ (key, old) :: rest) = front ++ (key, value) :: rest := by
  induction front with
  | nil => simp [put]
  | cons entry front ih =>
    obtain ⟨k, v⟩ := entry
    simp only [keys, List.map_cons, List.mem_cons, not_or] at absent
    have other : (k == key) = false := by simpa using Ne.symm absent.1
    rw [List.cons_append, put, other, if_neg (by simp), ih absent.2, List.cons_append]

theorem keys_put [DecidableEq κ] (key : κ) (value : α) (t : Table κ α) :
    (t.put key value).keys = if key ∈ t.keys then t.keys else t.keys ++ [key] := by
  induction t with
  | nil => simp [put, keys]
  | cons entry t ih =>
    obtain ⟨k, v⟩ := entry
    simp only [keys] at ih ⊢
    by_cases present : k = key
    · simp [put, present]
    · have apart : (k == key) = false := by simpa using present
      have later : ¬key = k := Ne.symm present
      by_cases member : key ∈ t.map (·.1) <;> simp_all [put]

theorem nodup_keys_put (key : κ) (value : α) {t : Table κ α} (distinct : t.keys.Nodup) :
    (t.put key value).keys.Nodup := by
  classical
  rw [keys_put]
  split
  · exact distinct
  · rename_i absent
    rw [List.nodup_append]
    refine ⟨distinct, by simp, ?_⟩
    rintro k member _ last rfl
    exact absent (List.mem_singleton.mp last ▸ member)

theorem get?_eq_some_iff {key : κ} {value : α} {t : Table κ α} (distinct : t.keys.Nodup) :
    t.get? key = some value ↔ (key, value) ∈ t := by
  induction t with
  | nil => simp [get?]
  | cons entry t ih =>
    obtain ⟨k, v⟩ := entry
    simp only [keys, get?, List.map_cons, List.nodup_cons] at distinct ih ⊢
    by_cases same : key = k
    · subst same
      have absent : (key, value) ∉ t := fun member =>
        distinct.1 (List.mem_map.mpr ⟨(key, value), member, rfl⟩)
      simp [absent, eq_comm]
    · have apart : (key == k) = false := by simpa using same
      simp [List.lookup_cons, apart, same, ih distinct.2]

omit [LawfulBEq κ] in
theorem putAll_cons (t : Table κ α) (key : κ) (value : α) (pairs : List (κ × α)) :
    t.putAll ((key, value) :: pairs) = (t.put key value).putAll pairs := rfl

omit [LawfulBEq κ] in
theorem putAll_append (t : Table κ α) (pairs more : List (κ × α)) :
    t.putAll (pairs ++ more) = (t.putAll pairs).putAll more := List.foldl_append

/-- Of the pairs with a key the last has the say. -/
theorem get?_putAll (key : κ) (t : Table κ α) (pairs : List (κ × α)) :
    (t.putAll pairs).get? key = (pairs.reverse.lookup key).or (t.get? key) := by
  induction pairs generalizing t with
  | nil => rfl
  | cons entry pairs ih =>
    obtain ⟨k, v⟩ := entry
    rw [putAll_cons, ih, get?_put, List.reverse_cons, List.lookup_append, Option.or_assoc]
    by_cases same : key = k
    · simp [same]
    · have apart : (key == k) = false := by simpa using same
      simp [List.lookup_cons, apart]

theorem get?_ofList (key : κ) (pairs : List (κ × α)) :
    (ofList pairs).get? key = pairs.reverse.lookup key := by
  rw [ofList, get?_putAll]
  exact Option.or_none

/-- An entry behind which its key does not come up again has the say. -/
theorem get?_ofList_of_last {front back : List (κ × α)} {key : κ} {value : α}
    (last : ∀ entry ∈ back, entry.1 ≠ key) :
    (ofList (front ++ (key, value) :: back)).get? key = some value := by
  have later : back.reverse.lookup key = none :=
    lookup_eq_none_of_keys fun entry member => last entry (List.mem_reverse.mp member)
  calc
    (ofList (front ++ (key, value) :: back)).get? key =
        (front ++ (key, value) :: back).reverse.lookup key := get?_ofList _ _
    _ = (back.reverse ++ (key, value) :: front.reverse).lookup key := by simp
    _ = (back.reverse.lookup key).or (((key, value) :: front.reverse).lookup key) :=
      List.lookup_append
    _ = some value := by simp [later]

theorem nodup_keys_putAll {t : Table κ α} (distinct : t.keys.Nodup) (pairs : List (κ × α)) :
    (t.putAll pairs).keys.Nodup := by
  induction pairs generalizing t with
  | nil => exact distinct
  | cons entry pairs ih => exact ih (nodup_keys_put entry.1 entry.2 distinct)

theorem nodup_keys_ofList (pairs : List (κ × α)) : (ofList pairs).keys.Nodup :=
  nodup_keys_putAll (t := []) List.nodup_nil pairs

/-- Keys stand in the order in which they first come up. -/
theorem keys_ofList (pairs : List (κ × α)) : (ofList pairs).keys = (pairs.map (·.1)).eraseDups := by
  classical
  induction pairs using List.reverseRecOn with
  | nil => rfl
  | append_singleton pairs entry ih =>
    have last : ofList (pairs ++ [entry]) = (ofList pairs).put entry.1 entry.2 :=
      putAll_append [] pairs [entry]
    rw [last, keys_put, ih, List.map_append, List.eraseDups_append, List.map_singleton]
    generalize pairs.map (·.1) = keys
    by_cases known : entry.1 ∈ keys
    · simp [known, List.removeAll]
    · simp [known, List.removeAll, List.eraseDups_cons]

/-- A table is made of its own pairs. -/
theorem ofList_eq_self {t : Table κ α} (distinct : t.keys.Nodup) : ofList t = t := by
  induction t using List.reverseRecOn with
  | nil => rfl
  | append_singleton t entry ih =>
    rw [keys, List.map_append, List.nodup_append] at distinct
    have absent : entry.1 ∉ keys t := fun member =>
      distinct.2.2 _ member _ (List.mem_singleton_self _) rfl
    rw [ofList, putAll_append, ← ofList, ih distinct.1]
    exact put_of_not_mem entry.2 absent

/-- The last entry whose key satisfies `p`, by its key. -/
theorem find?_reverse {t : Table κ α} (distinct : t.keys.Nodup) (p : κ → Bool) :
    t.reverse.find? (fun entry => p entry.1) =
      ((t.keys.filter p).getLast?).bind fun key => (t.get? key).map fun value => (key, value) := by
  rw [List.getLast?_filter, keys, ← List.map_reverse, List.find?_map]
  cases found : t.reverse.find? (p ∘ (·.1)) with
  | none => exact found
  | some entry =>
    have member := List.mem_reverse.mp (List.mem_of_find?_eq_some found)
    have value := (get?_eq_some_iff distinct).mpr member
    simp only [Option.map_some, Option.bind_some, value]
    exact found

end TestSkeleton.Table
