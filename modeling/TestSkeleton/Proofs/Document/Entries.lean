import Mathlib.Data.List.Perm.Basic
import TestSkeleton.Document.Yaml.Printer
import TestSkeleton.Proofs.Table

/-! Laws of the tables of documents: what an entry changes, tables of texts, and tables whose entries
stand in another order. -/

namespace TestSkeleton

namespace Entries

/-- Keys as they are told apart. -/
def keys (t : Entries) : List Scalar := t.map fun entry => entry.1.key

theorem find?_cons (key k : Scalar) (value : Value) (t : Entries) :
    find? key ((k, value) :: t) = if k.key = key.key then some value else t.find? key := by
  rw [find?, find?, List.find?_cons]
  by_cases same : k.key = key.key <;> simp [same]

theorem find?_put (key other : Scalar) (value : Value) (t : Entries) :
    (t.put key value).find? other = if other.key = key.key then some value else t.find? other := by
  induction t with
  | nil =>
    rw [put, find?_cons]
    simp [eq_comm]
  | cons entry t ih =>
    obtain ⟨k, v⟩ := entry
    by_cases present : k.key = key.key
    · rw [put, if_pos present, find?_cons, find?_cons, present]
      by_cases same : other.key = key.key
      · rw [if_pos same.symm, if_pos same]
      · rw [if_neg (Ne.symm same), if_neg same, if_neg (Ne.symm same)]
    · rw [put, if_neg present, find?_cons, find?_cons, ih]
      by_cases here : k.key = other.key
      · rw [if_pos here, if_neg fun same => present (here.trans same), if_pos here]
      · rw [if_neg here, if_neg here]

theorem get?_put (name other : Text) (value : Value) (t : Entries) :
    (t.put (.text name) value).get? other = if other = name then some value else t.get? other := by
  rw [get?, find?_put]
  simp [Scalar.key, get?]

theorem keys_put (key : Scalar) (value : Value) (t : Entries) :
    (t.put key value).keys = if key.key ∈ t.keys then t.keys else t.keys ++ [key.key] := by
  induction t with
  | nil => rfl
  | cons entry t ih =>
    obtain ⟨k, v⟩ := entry
    by_cases present : k.key = key.key
    · rw [put, if_pos present]
      simp [keys, present]
    · rw [put, if_neg present]
      simp only [keys, List.map_cons, List.mem_cons] at ih ⊢
      rw [ih]
      by_cases later : key.key ∈ t.map fun entry => entry.1.key <;> simp [later, Ne.symm present]

theorem nodup_keys_put (key : Scalar) (value : Value) {t : Entries} (distinct : t.keys.Nodup) :
    (t.put key value).keys.Nodup := by
  rw [keys_put]
  split
  · exact distinct
  · rename_i absent
    exact distinct.append (List.nodup_singleton _) (List.disjoint_singleton.mpr absent)

theorem mem_of_mem_put {key : Scalar} {value : Value} {t : Entries} {entry : Scalar × Value}
    (member : entry ∈ t.put key value) :
    (entry.1 = key ∨ ∃ old ∈ t, entry.1 = old.1) ∧ (entry.2 = value ∨ entry ∈ t) := by
  induction t with
  | nil =>
    rw [List.mem_singleton.mp member]
    exact ⟨.inl rfl, .inl rfl⟩
  | cons first t ih =>
    obtain ⟨k, v⟩ := first
    by_cases present : k.key = key.key
    · rw [put, if_pos present] at member
      rcases List.mem_cons.mp member with rfl | later
      · exact ⟨.inr ⟨_, List.mem_cons_self, rfl⟩, .inl rfl⟩
      · exact ⟨.inr ⟨_, List.mem_cons_of_mem _ later, rfl⟩, .inr (List.mem_cons_of_mem _ later)⟩
    · rw [put, if_neg present] at member
      rcases List.mem_cons.mp member with rfl | later
      · exact ⟨.inr ⟨_, List.mem_cons_self, rfl⟩, .inr List.mem_cons_self⟩
      · obtain ⟨named, valued⟩ := ih later
        refine ⟨named.imp_right ?_, valued.imp_right (List.mem_cons_of_mem _)⟩
        rintro ⟨old, listed, same⟩
        exact ⟨old, List.mem_cons_of_mem _ listed, same⟩

theorem find?_eq_some_iff {key : Scalar} {value : Value} {t : Entries} (distinct : t.keys.Nodup) :
    t.find? key = some value ↔ ∃ k, (k, value) ∈ t ∧ k.key = key.key := by
  induction t with
  | nil => simp [find?]
  | cons entry t ih =>
    obtain ⟨k, v⟩ := entry
    obtain ⟨absent, distinct⟩ := List.nodup_cons.mp distinct
    rw [find?_cons]
    by_cases here : k.key = key.key
    · rw [if_pos here]
      constructor
      · intro found
        exact ⟨k, by rw [Option.some.inj found]; exact List.mem_cons_self, here⟩
      · rintro ⟨l, member, same⟩
        rcases List.mem_cons.mp member with first | later
        · rw [(Prod.mk.inj first).2]
        · refine absurd (List.mem_map.mpr ⟨_, later, ?_⟩) absent
          exact same.trans here.symm
    · rw [if_neg here, ih distinct]
      constructor
      · rintro ⟨l, member, same⟩
        exact ⟨l, List.mem_cons_of_mem _ member, same⟩
      · rintro ⟨l, member, same⟩
        rcases List.mem_cons.mp member with first | later
        · rw [(Prod.mk.inj first).1] at same
          exact absurd same here
        · exact ⟨l, later, same⟩

theorem find?_perm {t t' : Entries} (same : t.Perm t') (distinct : t'.keys.Nodup) (key : Scalar) :
    t.find? key = t'.find? key := by
  have distinct₀ : t.keys.Nodup := (same.map _).nodup_iff.mpr distinct
  apply Option.ext
  intro value
  rw [find?_eq_some_iff distinct₀, find?_eq_some_iff distinct]
  simp only [same.mem_iff]

end Entries

/-- Pairs of texts as entries of a document. -/
def textEntries (pairs : List (Text × Text)) : Entries := pairs.map fun (k, v) => (.text k, .text v)

theorem put_textEntries (key value : Text) (t : Table Text Text) :
    (textEntries t).put (.text key) (.text value) = textEntries (t.put key value) := by
  induction t with
  | nil => rfl
  | cons entry t ih =>
    obtain ⟨k, v⟩ := entry
    by_cases same : k = key
    · subst same
      simp [textEntries, Entries.put, Table.put]
    · have apart : (k == key) = false := by simpa using same
      have away : ¬ (Scalar.text k).key = (Scalar.text key).key := by simpa [Scalar.key] using same
      have step : (textEntries ((k, v) :: t)).put (.text key) (.text value) =
          (.text k, .text v) :: (textEntries t).put (.text key) (.text value) := if_neg away
      rw [step, ih, Table.put, apart]
      rfl

theorem putAll_textEntries (t : Table Text Text) (pairs : List (Text × Text)) :
    Entries.putAll (textEntries t) (textEntries pairs) = textEntries (t.putAll pairs) := by
  induction pairs generalizing t with
  | nil => rfl
  | cons entry pairs ih =>
    have step : Entries.putAll (textEntries t) (textEntries (entry :: pairs)) =
        Entries.putAll ((textEntries t).put (.text entry.1) (.text entry.2)) (textEntries pairs) := rfl
    rw [step, put_textEntries, ih]
    rfl

theorem keys_textEntries (pairs : List (Text × Text)) :
    (textEntries pairs).keys = (Table.keys pairs).map .text := by
  rw [Entries.keys, textEntries, Table.keys, List.map_map, List.map_map]
  rfl

theorem textEntry_injective :
    Function.Injective fun (pair : Text × Text) => ((.text pair.1, .text pair.2) : Scalar × Value) := by
  intro a b same
  obtain ⟨key, value⟩ := Prod.mk.inj same
  exact Prod.ext (Scalar.text.inj key) (Scalar.text.inj (Value.scalar.inj value))

theorem exists_textEntries {t : Entries}
    (texts : ∀ entry ∈ t, ∃ pair : Text × Text, (.text pair.1, .text pair.2) = entry) :
    ∃ pairs, textEntries pairs = t := by
  induction t with
  | nil => exact ⟨[], rfl⟩
  | cons entry t ih =>
    obtain ⟨pair, rfl⟩ := texts _ List.mem_cons_self
    obtain ⟨pairs, rfl⟩ := ih fun other member => texts other (List.mem_cons_of_mem _ member)
    exact ⟨pair :: pairs, rfl⟩

/-- Values that a policy is laid out with: flags, integers, texts, and lists and tables of such, with
texts for keys, each once. -/
inductive Storable : Value → Prop where
  | flag (b : Bool) : Storable (.scalar (.flag b))
  | int (i : Int) : Storable (.scalar (.int i))
  | text (t : Text) : Storable (.text t)
  | list {items : List Value} (values : ∀ v ∈ items, Storable v) : Storable (.list items)
  | table {entries : Entries} (distinct : entries.keys.Nodup)
      (keys : ∀ entry ∈ entries, ∃ t, entry.1 = .text t)
      (values : ∀ entry ∈ entries, Storable entry.2) : Storable (.table entries)

namespace Storable

theorem texts (ts : List Text) : Storable (.texts ts) := by
  apply list
  intro v member
  obtain ⟨t, -, rfl⟩ := List.mem_map.mp member
  exact text t

theorem textTable {pairs : Table Text Text} (distinct : pairs.keys.Nodup) :
    Storable (.table (textEntries pairs)) := by
  apply table
  · rw [keys_textEntries]
    exact distinct.map fun _ _ => Scalar.text.inj
  · intro entry member
    obtain ⟨pair, -, rfl⟩ := List.mem_map.mp member
    exact ⟨pair.1, rfl⟩
  · intro entry member
    obtain ⟨pair, -, rfl⟩ := List.mem_map.mp member
    exact text pair.2

theorem put {entries : Entries} {name : Text} {value : Value} (old : Storable (.table entries))
    (new : Storable value) : Storable (.table (entries.put (.text name) value)) := by
  cases old with
  | table distinct keys values =>
    apply table
    · exact Entries.nodup_keys_put _ _ distinct
    · intro entry member
      rcases (Entries.mem_of_mem_put member).1 with same | ⟨other, listed, same⟩
      · exact ⟨name, same⟩
      · rw [same]
        exact keys other listed
    · intro entry member
      rcases (Entries.mem_of_mem_put member).2 with same | listed
      · rw [same]
        exact new
      · exact values entry listed

theorem of_get? {entries : Entries} {name : Text} {value : Value} (all : Storable (.table entries))
    (found : entries.get? name = some value) : Storable value := by
  cases all with
  | table distinct _ values =>
    obtain ⟨key, member, -⟩ := (Entries.find?_eq_some_iff distinct).mp found
    exact values _ member

theorem entries {v : Value} (stored : Storable v) : Storable (.table v.entries) := by
  cases stored with
  | table distinct keys values => exact table distinct keys values
  | flag _ | int _ | text _ | list _ => exact table List.nodup_nil nofun nofun

end Storable

/-! Tables in order -/

namespace Yaml

theorem insertPair_perm (pair : Scalar × Value) (t : Entries) : (insertPair pair t).Perm (pair :: t) := by
  induction t with
  | nil => exact .refl _
  | cons other t ih =>
    rw [insertPair]
    split
    · exact .refl _
    · exact (ih.cons other).trans (.swap pair other t)

theorem sortPairs_perm (t : Entries) : (sortPairs t).Perm t := by
  induction t with
  | nil => exact .refl _
  | cons pair t ih => exact (insertPair_perm pair (sortPairs t)).trans (ih.cons pair)

theorem pairsInOrder_eq_map (t : Entries) :
    pairsInOrder t = t.map fun entry => (entry.1, inOrder entry.2) := by
  induction t with
  | nil => rfl
  | cons entry t ih => rw [pairsInOrder, ih, List.map_cons]

theorem itemsInOrder_eq_map (items : List Value) : itemsInOrder items = items.map inOrder := by
  induction items with
  | nil => rfl
  | cons item items ih => rw [itemsInOrder, ih, List.map_cons]

theorem pairsInOrder_textEntries (pairs : List (Text × Text)) :
    pairsInOrder (textEntries pairs) = textEntries pairs := by
  rw [pairsInOrder_eq_map, textEntries, List.map_map]
  rfl

/-- Tables that are equal in order have the same entries, up to the order inside the values. -/
theorem perm_of_inOrder {t t' : Entries} (same : inOrder (.table t) = inOrder (.table t')) :
    (pairsInOrder t).Perm (pairsInOrder t') := by
  rw [inOrder, inOrder] at same
  have sorted := sortPairs_perm (pairsInOrder t)
  rw [Value.table.inj same] at sorted
  exact sorted.symm.trans (sortPairs_perm _)

theorem find?_pairsInOrder (key : Scalar) (t : Entries) :
    Entries.find? key (pairsInOrder t) = (t.find? key).map inOrder := by
  induction t with
  | nil => rfl
  | cons entry t ih =>
    obtain ⟨k, v⟩ := entry
    rw [pairsInOrder, Entries.find?_cons, Entries.find?_cons, ih]
    split <;> rfl

theorem keys_pairsInOrder (t : Entries) : Entries.keys (pairsInOrder t) = t.keys := by
  rw [pairsInOrder_eq_map, Entries.keys, List.map_map]
  rfl

theorem get?_of_inOrder {t t' : Entries} (same : inOrder (.table t) = inOrder (.table t'))
    (distinct : t'.keys.Nodup) (name : Text) :
    (t.get? name).map inOrder = (t'.get? name).map inOrder := by
  rw [Entries.get?, Entries.get?, ← find?_pairsInOrder, ← find?_pairsInOrder]
  rw [← keys_pairsInOrder] at distinct
  exact Entries.find?_perm (perm_of_inOrder same) distinct _

theorem entries_of_inOrder {v v' : Value} (same : inOrder v = inOrder v') :
    inOrder (.table v.entries) = inOrder (.table v'.entries) := by
  cases v with
  | table t =>
    cases v' with
    | table t' => exact same
    | scalar _ | list _ =>
      rw [inOrder, inOrder] at same
      cases same
  | scalar _ | list _ =>
    cases v' with
    | table t' =>
      rw [inOrder, inOrder] at same
      cases same
    | scalar _ | list _ => rfl

theorem eq_scalar_of_inOrder {v : Value} {s : Scalar} (same : inOrder v = .scalar s) :
    v = .scalar s := by
  cases v with
  | scalar t => exact same
  | list _ | table _ =>
    rw [inOrder] at same
    cases same

theorem eq_texts_of_inOrder {v : Value} {texts : List Text}
    (same : inOrder v = inOrder (.texts texts)) : v = .texts texts := by
  have plain : itemsInOrder (texts.map .text) = texts.map .text := by
    rw [itemsInOrder_eq_map, List.map_map]
    rfl
  rw [Value.texts, inOrder, plain] at same
  cases v with
  | list items =>
    rw [inOrder, itemsInOrder_eq_map] at same
    have items_eq : items.map inOrder = texts.map .text := Value.list.inj same
    have scalars : items.map inOrder = items := by
      conv_rhs => rw [← List.map_id items]
      apply List.map_congr_left
      intro item member
      have image : inOrder item ∈ texts.map .text := items_eq ▸ List.mem_map_of_mem member
      obtain ⟨t, -, shown⟩ := List.mem_map.mp image
      rw [← shown, eq_scalar_of_inOrder shown.symm]
      rfl
    rw [Value.texts, ← items_eq, scalars]
  | scalar _ | table _ =>
    rw [inOrder] at same
    cases same

theorem exists_textEntries_of_inOrder {v : Value} {pairs : List (Text × Text)}
    (same : inOrder v = inOrder (.table (textEntries pairs))) :
    ∃ t : List (Text × Text), t.Perm pairs ∧ v = .table (textEntries t) := by
  cases v with
  | table t =>
    have entries := perm_of_inOrder same
    rw [pairsInOrder_textEntries] at entries
    have texts : ∀ entry ∈ t, ∃ pair : Text × Text, (.text pair.1, .text pair.2) = entry := by
      intro entry member
      have image : (entry.1, inOrder entry.2) ∈ textEntries pairs := by
        apply entries.mem_iff.mp
        rw [pairsInOrder_eq_map]
        exact List.mem_map_of_mem member
      obtain ⟨pair, -, shown⟩ := List.mem_map.mp image
      obtain ⟨key, value⟩ := Prod.mk.inj shown
      exact ⟨pair, Prod.ext key (eq_scalar_of_inOrder value.symm).symm⟩
    obtain ⟨u, rfl⟩ := exists_textEntries texts
    rw [pairsInOrder_textEntries] at entries
    exact ⟨u, (List.map_perm_map_iff textEntry_injective).mp entries, rfl⟩
  | scalar _ | list _ =>
    rw [inOrder, inOrder] at same
    cases same

theorem storable_inOrder {v : Value} (stored : Storable v) : Storable (inOrder v) := by
  induction stored with
  | flag b => exact .flag b
  | int i => exact .int i
  | text t => exact .text t
  | list values ih =>
    rw [inOrder, itemsInOrder_eq_map]
    apply Storable.list
    intro v member
    obtain ⟨item, listed, rfl⟩ := List.mem_map.mp member
    exact ih item listed
  | @table entries distinct keys values ih =>
    rw [inOrder]
    have sorted := sortPairs_perm (pairsInOrder entries)
    have among : ∀ entry ∈ sortPairs (pairsInOrder entries), ∃ old ∈ entries,
        (old.1, inOrder old.2) = entry := by
      intro entry member
      have listed := sorted.mem_iff.mp member
      rw [pairsInOrder_eq_map] at listed
      exact List.mem_map.mp listed
    apply Storable.table
    · rw [← keys_pairsInOrder] at distinct
      exact (sorted.map _).nodup_iff.mpr distinct
    · intro entry member
      obtain ⟨old, listed, rfl⟩ := among entry member
      exact keys old listed
    · intro entry member
      obtain ⟨old, listed, rfl⟩ := among entry member
      exact ih old listed

end Yaml

end TestSkeleton
