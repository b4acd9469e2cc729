import Mathlib.Tactic.SplitIfs
import TestSkeleton.Proofs.Document.Entries

/-! What the printer writes: line ends and printable ASCII characters, whatever the texts hold.

Writing only ever adds to a page, so one lemma for each way of writing says what it adds. -/

namespace TestSkeleton.Yaml

open Text

/-- The characters that the printer writes. -/
def isInk (c : Char) : Bool := c == '\n' || isAsciiPrintable c

theorem isInk_nil : ∀ c ∈ ([] : Text), isInk c = true := nofun

/-! Digits -/

theorem exists_digit_of_mem_toDigits {base : Nat} (more : 1 < base) (n : Nat) {c : Char}
    (member : c ∈ Nat.toDigits base n) : ∃ d < base, c = Nat.digitChar d := by
  induction n using Nat.strongRecOn with
  | _ n ih =>
    rw [Nat.toDigits_eq_if more] at member
    split at member
    · rename_i small
      exact ⟨n, small, List.mem_singleton.mp member⟩
    · rename_i large
      rcases List.mem_append.mp member with front | last
      · have smaller : n / base < n := Nat.div_lt_self (by omega) more
        exact ih _ smaller front
      · exact ⟨n % base, Nat.mod_lt _ (by omega), List.mem_singleton.mp last⟩

theorem isInk_ofInt (i : Int) : ∀ c ∈ ofInt i, isInk c = true := by
  have digits : ∀ d < 10, isInk (Nat.digitChar d) = true := by decide
  have numeral : ∀ n, ∀ c ∈ ofNat n, isInk c = true := by
    intro n c member
    obtain ⟨d, small, rfl⟩ := exists_digit_of_mem_toDigits (by decide) n member
    exact digits d small
  intro c member
  cases i with
  | ofNat n => exact numeral n c member
  | negSucc n =>
    rcases List.mem_cons.mp member with rfl | later
    · decide
    · exact numeral _ c later

theorem isInk_hexOfWidth (width n : Nat) :
    ∀ c ∈ (hexOfWidth width n).map Char.toUpper, isInk c = true := by
  have digits : ∀ d < 16, isInk (Nat.digitChar d).toUpper = true := by decide
  intro c member
  obtain ⟨letter, inside, rfl⟩ := List.mem_map.mp member
  rcases List.mem_append.mp inside with zeros | numeral
  · rw [List.eq_of_mem_replicate zeros]
    decide
  · obtain ⟨d, small, rfl⟩ := exists_digit_of_mem_toDigits (by decide) n numeral
    exact digits d small

/-! Escapes -/

theorem isInk_of_escape?_eq_some {c : Char} {e : Text} (found : escape? c = some e) :
    ∀ d ∈ e, isInk d = true := by
  have letters : ∀ entry ∈ escapeLetters, isInk entry.2 = true := by decide
  have coded : ∀ (letter : Char) (width : Nat), isInk letter = true →
      ∀ d ∈ '\\' :: letter :: (hexOfWidth width c.toNat).map Char.toUpper, isInk d = true := by
    intro letter width ink d member
    rcases List.mem_cons.mp member with rfl | later
    · decide
    rcases List.mem_cons.mp later with rfl | digit
    · exact ink
    · exact isInk_hexOfWidth _ _ d digit
  rw [escape?] at found
  dsimp only at found
  split at found
  · rename_i letter known
    obtain ⟨front, behind, shape, -⟩ := List.lookup_eq_some_iff.mp known
    have listed : (c, letter) ∈ escapeLetters := by
      rw [shape]
      simp
    obtain rfl := Option.some.inj found
    intro d member
    rcases List.mem_cons.mp member with rfl | later
    · decide
    · rw [List.mem_singleton.mp later]
      exact letters _ listed
  · split at found
    · cases found
    split at found
    · obtain rfl := Option.some.inj found
      exact coded 'x' 2 (by decide)
    split at found
    · obtain rfl := Option.some.inj found
      exact coded 'u' 4 (by decide)
    · obtain rfl := Option.some.inj found
      exact coded 'U' 8 (by decide)

theorem isInk_of_escape?_eq_none {c : Char} (found : escape? c = none) : isInk c = true := by
  rw [escape?] at found
  dsimp only at found
  split at found
  · cases found
  · split at found
    · rename_i printable
      rw [isInk, printable, Bool.or_true]
    split at found
    · cases found
    split at found <;> cases found

/-! Pages -/

/-- A page that goes on from another one in ink. -/
def Page.Extends (p q : Page) : Prop :=
  ∃ added : Text, q.back = added ++ p.back ∧ ∀ c ∈ added, isInk c = true

namespace Page.Extends

variable {p q r : Page}

theorem refl (p : Page) : p.Extends p := ⟨[], rfl, nofun⟩

theorem trans (first : p.Extends q) (second : q.Extends r) : p.Extends r := by
  obtain ⟨added, back, ink⟩ := first
  obtain ⟨more, back', ink'⟩ := second
  refine ⟨more ++ added, by rw [back', back, List.append_assoc], ?_⟩
  intro c member
  rcases List.mem_append.mp member with late | early
  · exact ink' c late
  · exact ink c early

theorem mem (more : p.Extends q) {c : Char} (there : c ∈ p.back) : c ∈ q.back := by
  obtain ⟨added, back, -⟩ := more
  rw [back]
  exact List.mem_append_right _ there

theorem mark (p : Page) {t : Text} (ink : ∀ c ∈ t, isInk c = true) : p.Extends (p.mark t) :=
  ⟨t.reverse, rfl, fun c member => ink c (List.mem_reverse.mp member)⟩

theorem write (p : Page) {t : Text} (ink : ∀ c ∈ t, isInk c = true) : p.Extends (p.write t) :=
  mark p ink

theorem breakLine (p : Page) : p.Extends p.breakLine := by
  refine ⟨['\n'], rfl, ?_⟩
  decide

theorem moveTo (p : Page) (column : Nat) : p.Extends (p.moveTo column) := by
  have spaces : ∀ n, ∀ c ∈ List.replicate n ' ', isInk c = true := by
    intro n c member
    rw [List.eq_of_mem_replicate member]
    decide
  rw [Page.moveTo]
  split
  · exact mark p (spaces _)
  · exact (breakLine p).trans (mark _ (spaces _))

theorem space (p : Page) : p.Extends p.space := by
  rw [Page.space]
  split
  · exact refl p
  · exact mark p (by decide)

theorem ite {c : Prop} [Decidable c] (yes : p.Extends q) (no : p.Extends r) :
    p.Extends (if c then q else r) := by
  split
  · exact yes
  · exact no

end Page.Extends

open Page (Extends)

/-! Texts -/

theorem mem_of_mem_runs {t run : Text} {c : Char} (listed : run ∈ runs t) (inside : c ∈ run) : c ∈ t := by
  induction t generalizing run with
  | nil => cases listed
  | cons a t ih =>
    have alone {rest : List Text} (known : ∀ run ∈ rest, run ∈ runs t) (listed : run ∈ [a] :: rest) :
        c ∈ a :: t := by
      rcases List.mem_cons.mp listed with rfl | later
      · rw [List.mem_singleton.mp inside]
        exact List.mem_cons_self
      · exact List.mem_cons_of_mem _ (ih (known run later) inside)
    rw [runs] at listed
    dsimp only at listed
    cases shape : runs t with
    | nil =>
      have none : ∀ run ∈ ([] : List Text), run ∈ runs t := nofun
      rw [shape] at listed
      exact alone none listed
    | cons first rest =>
      have known : ∀ run ∈ first :: rest, run ∈ runs t := fun run member => shape ▸ member
      cases first with
      | nil =>
        rw [shape] at listed
        exact alone known listed
      | cons d first =>
        rw [shape] at listed
        have joined (listed : run ∈ (a :: d :: first) :: rest) : c ∈ a :: t := by
          rcases List.mem_cons.mp listed with rfl | later
          · rcases List.mem_cons.mp inside with rfl | deeper
            · exact List.mem_cons_self
            · exact List.mem_cons_of_mem _ (ih (known _ List.mem_cons_self) deeper)
          · exact List.mem_cons_of_mem _ (ih (known run (List.mem_cons_of_mem _ later)) inside)
        dsimp only at listed
        split_ifs at listed <;> first | exact joined listed | exact alone known listed

theorem extends_writeRuns {fold : Bool} {indent : Nat} {put : Page → Text → Page} {runs : List Text}
    (puts : ∀ run ∈ runs, ∀ p, Extends p (put p run)) (first : Bool) (p : Page) :
    Extends p (writeRuns fold indent put first p runs) := by
  induction runs generalizing first p with
  | nil => exact .refl p
  | cons run rest ih =>
    rw [writeRuns]
    apply Extends.trans _ (ih (fun run member => puts run (List.mem_cons_of_mem _ member)) false _)
    apply Extends.ite
    · exact (Extends.breakLine p).trans (.moveTo _ _)
    · exact puts run List.mem_cons_self p

theorem extends_writeRun {indent : Nat} {run : Text} (ink : ∀ c ∈ run, isInk c = true) (p : Page) :
    Extends p (writeRun indent p run) := by
  rw [writeRun]
  split
  · have breaks : ∀ (t : Text) (p : Page), Extends p (t.foldl (fun p _ => p.breakLine) p) := by
      intro t
      induction t with
      | nil => exact .refl
      | cons c t ih => exact fun p => (Extends.breakLine p).trans (ih _)
    exact (breaks _ p).trans (.moveTo _ _)
  · apply Extends.write
    intro c member
    obtain ⟨d, inside, among⟩ := List.mem_flatMap.mp member
    split at among
    · have quote : ∀ c ∈ ['\'', '\''], isInk c = true := by decide
      exact quote c among
    · rw [List.mem_singleton.mp among]
      exact ink d inside

theorem extends_writeEscaped {fold : Bool} {indent : Nat} (first : Bool) {pending : Text}
    (ink : ∀ c ∈ pending, isInk c = true) (p : Page) (t : Text) :
    Extends p (writeEscaped fold indent first pending p t) := by
  induction t generalizing first pending p with
  | nil => exact .write p ink
  | cons c t ih =>
    have slash : ∀ c ∈ ['\\'], isInk c = true := by decide
    have line (p : Page) {pending : Text} (ink : ∀ c ∈ pending, isInk c = true) :
        Extends p (((p.write pending).write ['\\']).breakLine.moveTo indent) :=
      (((Extends.write p ink).trans (.write _ slash)).trans (.breakLine _)).trans (.moveTo _ _)
    rw [writeEscaped]
    cases found : escape? c with
    | some e =>
      have written : Extends p ((p.write pending).write e) :=
        (Extends.write p ink).trans (.write _ (isInk_of_escape?_eq_some found))
      simp only [Option.isSome_some, if_true]
      split_ifs
      · exact ((written.trans (line _ isInk_nil)).trans (.write _ slash)).trans (ih false isInk_nil _)
      · exact (written.trans (line _ isInk_nil)).trans (ih false isInk_nil _)
      · exact written.trans (ih false isInk_nil _)
    | none =>
      have last {front : Text} (ink : ∀ d ∈ front, isInk d = true) : ∀ d ∈ front ++ [c], isInk d = true := by
        intro d member
        rcases List.mem_append.mp member with inside | own
        · exact ink d inside
        · rw [List.mem_singleton.mp own]
          exact isInk_of_escape?_eq_none found
      simp only [Option.isSome_none, Bool.false_eq_true, if_false]
      split_ifs
      · exact ((line p ink).trans (.write _ slash)).trans (ih false (last isInk_nil) _)
      · exact (line p ink).trans (ih false (last isInk_nil) _)
      · exact ih false (last ink) p

theorem isInk_of_fitsSingle {t : Text} (fits : fitsSingle t = true) : ∀ c ∈ t, isInk c = true := by
  intro c member
  rw [fitsSingle, Bool.and_eq_true] at fits
  exact List.all_eq_true.mp fits.1 c member

theorem extends_plain {fold : Bool} {indent : Nat} {t : Text} (ink : ∀ c ∈ t, isInk c = true) (p : Page) :
    Extends p (writeText .plain fold indent p t) := by
  apply (Extends.space p).trans
  apply extends_writeRuns
  intro run listed p
  exact .write p fun c inside => ink c (mem_of_mem_runs listed inside)

theorem extends_writeText (fold : Bool) (indent : Nat) (p : Page) (t : Text) :
    Extends p (writeText (Style.ofText t) fold indent p t) := by
  have quote : ∀ c ∈ ['\''], isInk c = true := by decide
  have doubled : ∀ c ∈ ['"'], isInk c = true := by decide
  rw [Style.ofText]
  split
  · rename_i fits
    have single : fitsSingle t = true := by
      simp only [fitsPlain, Bool.and_eq_true] at fits
      simp [fits]
    exact extends_plain (isInk_of_fitsSingle single) p
  split
  · rename_i single
    rw [writeText]
    apply Extends.trans _ (.write _ quote)
    apply ((Extends.space p).trans (.write _ quote)).trans
    apply extends_writeRuns
    intro run listed p
    exact extends_writeRun (fun c inside => isInk_of_fitsSingle single c (mem_of_mem_runs listed inside)) p
  · rw [writeText]
    apply Extends.trans _ (.write _ doubled)
    apply ((Extends.space p).trans (.write _ doubled)).trans
    exact extends_writeEscaped true isInk_nil _ t

/-! Values -/

theorem extends_writeScalar (fold : Bool) (indent : Nat) (p : Page) {s : Scalar}
    (stored : Storable (.scalar s)) : Extends p (writeScalar fold indent p s) := by
  cases stored with
  | text t => exact extends_writeText fold indent p t
  | flag b =>
    apply extends_plain
    cases b <;> decide
  | int i => exact extends_plain (isInk_ofInt i) p

theorem extends_writeKey (column : Nat) (p : Page) (name : Text) :
    Extends p (writeKey column p (.text name)) := by
  have colon : ∀ c ∈ [':'], isInk c = true := by decide
  have mark : ∀ c ∈ ['?'], isInk c = true := by decide
  rw [writeKey]
  apply (Extends.moveTo p column).trans
  apply Extends.ite
  · exact (extends_writeScalar _ _ _ (.text name)).trans (.write _ colon)
  · apply Extends.trans _ (.mark _ colon)
    apply Extends.trans _ (.moveTo _ _)
    exact (Extends.mark _ mark).trans (extends_writeScalar _ _ _ (.text name))

/-- A key is followed by its mark. -/
theorem colon_mem_writeKey (column : Nat) (p : Page) (name : Text) :
    ':' ∈ (writeKey column p (.text name)).back := by
  rw [writeKey]
  split
  · exact List.mem_append_left _ (by decide)
  · exact List.mem_append_left _ (by decide)

theorem extends_writeItems {items : List Value}
    (each : ∀ v ∈ items, ∀ column inPair p, Extends p (writeValue column inPair p v)) (column : Nat)
    (p : Page) : Extends p (writeItems column p items) := by
  induction items generalizing p with
  | nil => exact .refl p
  | cons item items ih =>
    have dash : ∀ c ∈ ['-'], isInk c = true := by decide
    rw [writeItems]
    apply Extends.trans _ (ih (fun v member => each v (List.mem_cons_of_mem _ member)) _)
    apply Extends.trans _ (each item List.mem_cons_self _ _ _)
    exact (Extends.moveTo p column).trans (.mark _ dash)

theorem extends_writePairs {pairs : Entries} (keys : ∀ entry ∈ pairs, ∃ t, entry.1 = .text t)
    (each : ∀ entry ∈ pairs, ∀ column inPair p, Extends p (writeValue column inPair p entry.2))
    (column : Nat) (p : Page) : Extends p (writePairs column p pairs) := by
  induction pairs generalizing p with
  | nil => exact .refl p
  | cons entry pairs ih =>
    obtain ⟨key, value⟩ := entry
    obtain ⟨name, named⟩ := keys _ List.mem_cons_self
    have named : key = .text name := named
    rw [writePairs, named]
    apply Extends.trans _ (ih (fun e member => keys e (List.mem_cons_of_mem _ member))
      (fun e member => each e (List.mem_cons_of_mem _ member)) _)
    exact (extends_writeKey column p name).trans (each _ List.mem_cons_self _ _ _)

theorem extends_writeValue {v : Value} (stored : Storable v) (column : Nat) (inPair : Bool) (p : Page) :
    Extends p (writeValue column inPair p v) := by
  induction stored generalizing column inPair p with
  | flag b => exact extends_writeScalar _ _ _ (.flag b)
  | int i => exact extends_writeScalar _ _ _ (.int i)
  | text t => exact extends_writeScalar _ _ _ (.text t)
  | @list items values ih =>
    cases items with
    | nil =>
      rw [writeValue]
      exact (Extends.space p).trans (.write _ (by decide))
    | cons item items =>
      rw [writeValue]
      · exact extends_writeItems ih _ p
      · intro empty
        cases empty
  | @table pairs distinct keys values ih =>
    cases pairs with
    | nil =>
      rw [writeValue]
      exact (Extends.space p).trans (.write _ (by decide))
    | cons entry pairs =>
      rw [writeValue]
      · exact extends_writePairs keys ih _ p
      · intro empty
        cases empty

/-- A document is written in ink, and is not blank. -/
theorem print_ink {root : Entries} (stored : Storable (.table root)) (filled : root ≠ []) :
    (∀ c ∈ print root, isInk c = true) ∧ ':' ∈ print root := by
  have sorted := storable_inOrder stored
  rw [inOrder] at sorted
  have perm := sortPairs_perm (pairsInOrder root)
  rw [print, if_neg (by simpa using filled)]
  cases shape : sortPairs (pairsInOrder root) with
  | nil =>
    rw [shape, pairsInOrder_eq_map] at perm
    exact absurd (List.map_eq_nil_iff.mp perm.symm.eq_nil) filled
  | cons entry rest =>
    rw [shape] at sorted
    obtain ⟨key, value⟩ := entry
    cases sorted with
    | table distinct keys values =>
      obtain ⟨name, named⟩ := keys _ List.mem_cons_self
      have named : key = .text name := named
      have first : Extends (writeKey 0 {} key) (writePairs 0 {} ((key, value) :: rest)).breakLine := by
        rw [writePairs]
        apply Extends.trans _ (.breakLine _)
        apply (extends_writeValue (values _ List.mem_cons_self) _ _ _).trans
        apply extends_writePairs
        · exact fun e member => keys e (List.mem_cons_of_mem _ member)
        · exact fun e member => extends_writeValue (values e (List.mem_cons_of_mem _ member))
      have start : Extends {} (writeKey 0 {} key) := named ▸ extends_writeKey 0 {} name
      obtain ⟨added, back, ink⟩ := start.trans first
      constructor
      · intro c member
        rw [Page.text, back, List.append_nil] at member
        exact ink c (List.mem_reverse.mp member)
      · apply List.mem_reverse.mpr
        exact first.mem (named ▸ colon_mem_writeKey 0 {} name)

end TestSkeleton.Yaml
