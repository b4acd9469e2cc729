import TestSkeleton.Extraction.V
import TestSkeleton.Proofs.Text.Basic
import TestSkeleton.Proofs.V.Nesting

/-! The parenthesis that closes the parameters of a header.

Main statement: a source is refused exactly when its brackets are no properly nested word, and otherwise the
parameters of every header end at the parenthesis that is paired with the one that opens them. -/

namespace TestSkeleton.V

open Text

section Suffix

/-! Readers of a header give back an end of the text. -/

variable {t r : Text}

theorem suffix_trimStart (t : Text) : trimStart t <:+ t := List.dropWhile_suffix isBlank

theorem suffix_of_dropKeyword? {word : Text} (read : dropKeyword? word t = some r) : r <:+ t := by
  unfold dropKeyword? at read
  split at read
  · rename_i c more found
    split at read
    · obtain rfl := Option.some.inj read
      rw [Text.dropPrefix?_eq_some.mp found]
      exact (suffix_trimStart more).trans ((List.suffix_cons c more).trans (List.suffix_append word _))
    · cases read
  · cases read

theorem suffix_of_dropSquare? (read : dropSquare? t = some r) : r <:+ t := by
  unfold dropSquare? at read
  split at read
  · rename_i inside
    split at read
    · rename_i rest found
      obtain rfl := Option.some.inj read
      have behind : ']' :: rest <:+ inside := found ▸ List.dropWhile_suffix _
      exact (List.suffix_cons ']' rest).trans (behind.trans (List.suffix_cons '[' inside))
    · cases read
  · cases read

theorem suffix_getD_dropSquare? (t : Text) : (dropSquare? t).getD t <:+ t := by
  cases found : dropSquare? t with
  | none => exact List.suffix_refl t
  | some r => exact suffix_of_dropSquare? found

theorem suffix_of_receiverType? {type : Text} (read : receiverType? t = some (type, r)) : r <:+ t := by
  unfold receiverType? at read
  split at read
  rename_i mark u marked
  have unmarked : u <:+ t := by
    split at marked
    · cases marked
      exact List.suffix_cons '&' u
    · cases marked
      exact List.suffix_refl t
  dsimp only at read
  split at read
  · cases read
  · split at read
    · rename_i rest found
      cases read
      have named : u.dropWhile isTypeNameChar <:+ t := (List.dropWhile_suffix _).trans unmarked
      have closed : ')' :: rest <:+ t :=
        found ▸ (suffix_trimStart _).trans ((suffix_getD_dropSquare? _).trans named)
      exact (suffix_trimStart rest).trans ((List.suffix_cons ')' rest).trans closed)
    · cases read

theorem suffix_of_receiverAfterMut? {leadMut : Bool} {receiver : Receiver}
    (read : receiverAfterMut? leadMut t = some (receiver, r)) : r <:+ t := by
  unfold receiverAfterMut? at read
  split at read
  · rename_i c more _ found
    split at read
    · have behind : trimStart more <:+ t :=
        (suffix_trimStart more).trans ((List.suffix_cons c more).trans (found ▸ List.dropWhile_suffix _))
      dsimp only at read
      split at read
      · rename_i inner
        cases read
        obtain ⟨u, marked, typed⟩ := Option.bind_eq_some_iff.mp inner
        exact (suffix_of_receiverType? typed).trans ((suffix_of_dropKeyword? marked).trans behind)
      · obtain ⟨⟨type, rest⟩, typed, same⟩ := Option.map_eq_some_iff.mp read
        cases same
        exact (suffix_of_receiverType? typed).trans behind
    · cases read
  · cases read

theorem suffix_of_receiver? {receiver : Receiver} (read : receiver? t = some (receiver, r)) : r <:+ t := by
  unfold receiver? at read
  split at read
  · rename_i more
    have inside : trimStart more <:+ '(' :: more := (suffix_trimStart more).trans (List.suffix_cons '(' more)
    rcases Option.or_eq_some_iff.mp read with marked | ⟨-, unmarked⟩
    · obtain ⟨u, keyword, named⟩ := Option.bind_eq_some_iff.mp marked
      exact (suffix_of_receiverAfterMut? named).trans ((suffix_of_dropKeyword? keyword).trans inside)
    · exact (suffix_of_receiverAfterMut? unmarked).trans inside
  · cases read

theorem suffix_of_nameAndOpening? {name : Text} (read : nameAndOpening? t = some (name, r)) :
    '(' :: r <:+ t := by
  unfold nameAndOpening? at read
  split at read
  · rename_i c more
    split at read
    · dsimp only at read
      split at read
      · rename_i rest found
        cases read
        have named : trimStart (more.dropWhile isWord) <:+ more :=
          (suffix_trimStart _).trans (List.dropWhile_suffix _)
        refine List.IsSuffix.trans ?_ (named.trans (List.suffix_cons c more))
        rw [← found]
        cases square : dropSquare? (trimStart (more.dropWhile isWord)) with
        | none => exact List.suffix_refl _
        | some u => exact (suffix_trimStart u).trans (suffix_of_dropSquare? square)
      · cases read
    · cases read
  · cases read

theorem suffix_of_header? {h : Header} (read : header? t = some (h, r)) : '(' :: r <:+ t := by
  unfold header? at read
  dsimp only at read
  split at read
  · cases read
  · rename_i u keyword
    have behind : u <:+ t := by
      apply (suffix_of_dropKeyword? keyword).trans
      refine List.IsSuffix.trans ?_ (List.dropWhile_suffix fun c => c == ' ' || c == '\t')
      split
      · exact suffix_of_dropKeyword? ‹_›
      · exact List.suffix_refl _
    cases received : receiver? u with
    | none =>
      simp only [received] at read
      obtain ⟨⟨name, rest⟩, named, same⟩ := Option.map_eq_some_iff.mp read
      cases same
      exact (suffix_of_nameAndOpening? named).trans behind
    | some found =>
      simp only [received] at read
      obtain ⟨⟨name, rest⟩, named, same⟩ := Option.map_eq_some_iff.mp read
      cases same
      exact (suffix_of_nameAndOpening? named).trans ((suffix_of_receiver? received).trans behind)

end Suffix

/-- Every header in the list is read at some place of the text. -/
theorem exists_suffix_of_mem_headersFrom {skip : Nat} {lineStart : Bool} {t rest : Text} {h : Header}
    (member : (h, rest) ∈ headersFrom skip lineStart t) : ∃ here, here <:+ t ∧ header? here = some (h, rest) := by
  induction t generalizing skip lineStart with
  | nil => simp [headersFrom] at member
  | cons c r ih =>
    have behind : ∀ {skip lineStart}, (h, rest) ∈ headersFrom skip lineStart r →
        ∃ here, here <:+ c :: r ∧ header? here = some (h, rest) := fun later => by
      obtain ⟨here, place, read⟩ := ih later
      exact ⟨here, place.trans (List.suffix_cons c r), read⟩
    cases skip with
    | succ skip =>
      rw [headersFrom] at member
      exact behind member
    | zero =>
      rw [headersFrom] at member
      split at member
      · rename_i found
        rcases List.mem_cons.mp member with same | later
        · cases same
          cases lineStart with
          | false => cases found
          | true => exact ⟨c :: r, List.suffix_refl _, found⟩
        · exact behind later
      · exact behind member

/-- What follows a header in the list is the text behind a parenthesis. -/
theorem suffix_of_mem_headersFrom {skip : Nat} {lineStart : Bool} {t rest : Text} {h : Header}
    (member : (h, rest) ∈ headersFrom skip lineStart t) : '(' :: rest <:+ t := by
  obtain ⟨here, place, read⟩ := exists_suffix_of_mem_headersFrom member
  exact (suffix_of_header? read).trans place

/-- Where every header has its parameters, there is one function for each header that the policy keeps. -/
theorem names_of_headers (policy : Policy) (file : Text) {found : List (Header × Text)}
    (given : ∀ h rest, (h, rest) ∈ found → (functionOf? file h rest).isSome = true) :
    (found.filterMap fun (h, rest) =>
      if policy.retains h.name h.isPublic then functionOf? file h rest else none).map (·.name) =
        (found.filter fun (h, _) => policy.retains h.name h.isPublic).map (·.1.name) := by
  induction found with
  | nil => rfl
  | cons first found ih =>
    obtain ⟨h, rest⟩ := first
    have later := ih fun h' rest' member => given h' rest' (List.mem_cons_of_mem _ member)
    obtain ⟨f, function⟩ := Option.isSome_iff_exists.mp (given h rest List.mem_cons_self)
    have name : f.name = h.name := by
      obtain ⟨cut, -, rfl⟩ := Option.map_eq_some_iff.mp function
      rfl
    cases kept : policy.retains h.name h.isPublic with
    | false => simpa [kept] using later
    | true => simpa [kept, function, name] using later

/-- What follows the parenthesis of a header is cut at the parenthesis that is paired with it, and the
parameters in between are properly nested. -/
def IsCutAtPair (code rest : Text) : Prop :=
  ∃ front inside after, code = front ++ '(' :: rest ∧ rest = inside ++ ')' :: after ∧
    cutAtClosing? 0 rest = some (inside, after) ∧
    (∀ j, Paired code front.length j ↔ j = front.length + inside.length + 1) ∧ Balanced (brackets inside)

theorem isCutAtPair_of_header {code rest : Text} {h : Header} (nested : Nested code)
    (member : (h, rest) ∈ headers code) : IsCutAtPair code rest := by
  obtain ⟨front, place⟩ := suffix_of_mem_headersFrom member
  rw [← place] at nested ⊢
  obtain ⟨inside, after, rfl, inner⟩ := exists_pair (by rfl) nested
  refine ⟨front, inside, after, rfl, rfl, cutAtClosing?_nested inner after, ?_, nested_iff_balanced.mp inner⟩
  exact fun j => paired_iff inner j

theorem IsCutAtPair.isSome {code rest : Text} (cut : IsCutAtPair code rest) (file : Text) (h : Header) :
    (functionOf? file h rest).isSome = true := by
  obtain ⟨front, inside, after, -, -, parameters, -⟩ := cut
  simp [functionOf?, parameters]

/-- A source is refused exactly when its brackets, those in comments and literals left out, are no properly
nested word. Otherwise the parameters of every header are cut off at the parenthesis that is paired with the one
that opens them, and no header is passed over for want of a parenthesis. -/
theorem extract_cuts_at_pair (policy : Policy) (file source : Text) :
    ((∃ cause, extract policy file source = .error cause) ↔ ¬Balanced (brackets (blank source))) ∧
    ∀ functions, extract policy file source = .ok functions →
      functions.map (·.name) = ((headers (blank source)).filter fun (h, _) =>
        policy.retains h.name h.isPublic).map (·.1.name) ∧
      ∀ h rest, (h, rest) ∈ headers (blank source) →
        IsCutAtPair (blank source) rest ∧ (functionOf? file h rest).isSome = true := by
  rw [← nested_iff_balanced, ← nestingFault?_eq_none_iff]
  simp only [extract]
  cases checked : nestingFault? (blank source) with
  | some fault => simp
  | none =>
    have nested := nestingFault?_eq_none_iff.mp checked
    have cut : ∀ h rest, (h, rest) ∈ headers (blank source) →
        IsCutAtPair (blank source) rest ∧ (functionOf? file h rest).isSome = true := by
      intro h rest member
      have pair := isCutAtPair_of_header nested member
      exact ⟨pair, pair.isSome file h⟩
    refine ⟨by simp, ?_⟩
    intro functions made
    cases made
    exact ⟨names_of_headers policy file fun h rest member => (cut h rest member).2, cut⟩

/-- A method with a callback among its parameters, and parentheses in a literal. -/
def callback : Text :=
  "pub fn (mut s Store) each(f fn (int, []u8) bool, key string) !int \x7b\n\treturn s.run(f, ')')\n\x7d\n".toList

theorem callback_cut :
    ¬(∃ cause, extract {} "s.v".toList callback = .error cause) ∧
    ∃ functions, extract {} "s.v".toList callback = .ok functions ∧
      functions.map (·.name) = ["each".toList] ∧
      ∀ h rest, (h, rest) ∈ headers (blank callback) →
        IsCutAtPair (blank callback) rest ∧ (functionOf? "s.v".toList h rest).isSome = true := by
  obtain ⟨refused, parameters⟩ := extract_cuts_at_pair {} "s.v".toList callback
  have balanced : Balanced (brackets (blank callback)) := nested_iff_balanced.mp (by decide)
  have accepted := fun some => refused.mp some balanced
  refine ⟨accepted, ?_⟩
  cases made : extract {} "s.v".toList callback with
  | error cause => exact absurd ⟨cause, made⟩ accepted
  | ok functions =>
    obtain ⟨names, cut⟩ := parameters functions made
    exact ⟨functions, rfl, by rw [names]; decide, cut⟩

end TestSkeleton.V
