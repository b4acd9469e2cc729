import TestSkeleton.Proofs.Generation.Arity
import TestSkeleton.Proofs.Rust.Receiver
import TestSkeleton.Proofs.Rust.ScopeName
import TestSkeleton.Proofs.Signature.SnakeCase
import TestSkeleton.Proofs.V.Parenthesis

/-! What the names of functions are made of. In V they are words. In Rust they are identifiers, and
raw ones keep their mark. -/

namespace TestSkeleton

open Text

namespace V

theorem onlyWords_of_nameAndOpening? {t name rest : Text} (read : nameAndOpening? t = some (name, rest)) :
    OnlyWords name := by
  unfold nameAndOpening? at read
  split at read
  · split at read
    · rename_i c r start
      dsimp only at read
      split at read
      · cases read
        have first : isWord c = true := Naming.isWord_of_isAsciiIdentifierContinue
          (Naming.isAsciiIdentifierContinue_of_isAsciiIdentifierStart start)
        exact onlyWords_cons.mpr ⟨first, List.all_eq_true.mp List.all_takeWhile⟩
      · cases read
    · cases read
  · cases read

theorem onlyWords_of_header? {t rest : Text} {h : Header} (read : header? t = some (h, rest)) :
    OnlyWords h.name := by
  unfold header? at read
  dsimp only at read
  split at read
  · cases read
  · obtain ⟨⟨name, rest⟩, named, same⟩ := Option.map_eq_some_iff.mp read
    cases same
    exact onlyWords_of_nameAndOpening? named

theorem onlyWords_name_of_extract {policy : Policy} {file source : Text} {functions : List Function}
    {f : Function} (extracted : extract policy file source = .ok functions) (member : f ∈ functions) :
    OnlyWords f.name := by
  obtain ⟨inside, declares, -⟩ := declares_of_extract extracted member
  generalize explicit inside = parameters at declares
  cases declares with
  | v found cut named parameters =>
    obtain ⟨here, -, read⟩ := exists_suffix_of_mem_headersFrom found
    rw [named]
    exact onlyWords_of_header? read

end V

namespace Rust

/-- The characters of identifiers, at their start or behind it, and the mark of a raw identifier. -/
def isNameCharacter (c : Char) : Bool := isIdentifierStart c || isIdentifierContinue c || c == '#'

theorem isNameCharacter_of_word? {t word rest : Text} (read : word? t = some (word, rest)) :
    ∀ c ∈ word, isNameCharacter c = true := by
  have run : ∀ (c : Char) (r : Text), isIdentifierStart c = true →
      ∀ d ∈ c :: r.takeWhile isIdentifierContinue, isNameCharacter d = true := by
    intro c r start d member
    rcases List.mem_cons.mp member with rfl | inside
    · simp [isNameCharacter, start]
    · have continues : isIdentifierContinue d = true := List.all_eq_true.mp List.all_takeWhile d inside
      simp [isNameCharacter, continues]
  unfold word? at read
  split at read
  · split at read
    · rename_i c r start
      cases read
      exact List.forall_mem_cons.mpr ⟨by decide, List.forall_mem_cons.mpr ⟨by decide, run c r start⟩⟩
    · cases read
      decide
  · split at read
    · rename_i c r _ start
      cases read
      exact run c r start
    · cases read
  · cases read

theorem isNameCharacter_nameOf {t : Tree} (grown : t.Grown) : ∀ c ∈ nameOf t, isNameCharacter c = true := by
  rcases exists_word_of_nameOf grown with none | ⟨word, isWord, ⟨s, here, rest, -, -, lexed, -⟩, same⟩
  · simp [none]
  · have cut := read?_of_lexeme? lexed
    rw [show word.kind = .word from isWord] at cut
    rw [same]
    exact isNameCharacter_of_word? cut

theorem isNameCharacter_name_of_extract {policy : Policy} {file source : Text} {functions : List Function}
    {f : Function} (extracted : extract policy file source = .ok functions) (member : f ∈ functions) :
    ∀ c ∈ f.name, isNameCharacter c = true := by
  obtain ⟨trees, declares, -, -⟩ := declares_of_extract extracted member
  cases declares with
  | rust parsed inside isFunction named parameters =>
    rw [named]
    exact isNameCharacter_nameOf (inside.grown fun u listed => (grown_parse parsed u listed).1)

end Rust

namespace Language

/-- The characters that names of functions are written with. -/
def isNameCharacter : Language → Char → Bool
  | rust => Rust.isNameCharacter
  | v => isWord

theorem isNameCharacter_of_extract {l : Language} {policy : Policy} {file source : Text}
    {functions : List Function} {f : Function} (extracted : l.extract policy file source = .ok functions)
    (member : f ∈ functions) : ∀ c ∈ f.name, l.isNameCharacter c = true := by
  cases l with
  | rust => exact Rust.isNameCharacter_name_of_extract extracted member
  | v => exact V.onlyWords_name_of_extract extracted member

end Language

end TestSkeleton
