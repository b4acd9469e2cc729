import TestSkeleton.Proofs.Rust.Grown

/-! The names that a grammar reads are words, so that the modules around a function have names
without a slash. -/

namespace TestSkeleton.Rust

open Text

/-- What has a name in a source has a single word for it. -/
theorem exists_word_of_nameOf {t : Tree} (grown : t.Grown) :
    nameOf t = [] ∨ ∃ word : Token, word.IsWord ∧ Lexical [word] ∧ nameOf t = word.text := by
  cases found : t.childOf? .name with
  | none => exact .inl (by rw [nameOf, found]; rfl)
  | some name =>
    have named : ∃ inner, name = .node .name inner ∧ name.Grown := by
      cases t with
      | leaf token => cases found
      | comment text => cases found
      | node kind children => exact grown.childOf? found
    obtain ⟨inner, rfl, read⟩ := named
    obtain ⟨word, rfl, isWord⟩ := read.content
    refine .inr ⟨word, isWord, read.lexical, ?_⟩
    simp [nameOf, found, Tree.text, Tree.tokens, Tree.tokensOfAll, textOfTokens]

theorem plain_nameOf {t : Tree} (grown : t.Grown) : '/' ∉ nameOf t := by
  rcases exists_word_of_nameOf grown with none | ⟨word, isWord, lexical, same⟩
  · rw [none]
    exact List.not_mem_nil
  · rw [same]
    exact lexical.plain isWord

section Collect

variable (policy : Policy) (file : Text)

mutual

theorem plain_scope_collect (scope : List Text) (owner : Option Text) (attributes : List Text)
    (outer : ∀ name ∈ scope, '/' ∉ name) : ∀ t : Tree, t.Grown →
    ∀ f ∈ collect policy file scope owner attributes t, ∀ name ∈ f.scope, '/' ∉ name
  | .leaf _, _, _, member => nomatch member
  | .comment _, _, _, member => nomatch member
  | .node kind children, grown, f, member => by
    have inside := grown.inside
    have body := fun scope owner outer =>
      plain_scope_collectBody scope owner outer children inside f
    unfold collect at member
    split at member
    · dsimp only at member
      split at member
      · cases member
      · rw [List.mem_singleton.mp member]
        exact outer
    · rename_i same
      cases same
      exact body scope _ outer member
    · rename_i same
      cases same
      dsimp only at member
      split at member
      · cases member
      · refine body _ none (fun name inScope => ?_) member
        rcases List.mem_append.mp inScope with above | here
        · exact outer name above
        · rw [List.mem_singleton.mp here]
          exact plain_nameOf grown
    · cases member

theorem plain_scope_collectBody (scope : List Text) (owner : Option Text)
    (outer : ∀ name ∈ scope, '/' ∉ name) : ∀ l : List Tree, (∀ t ∈ l, t.Grown) →
    ∀ f ∈ collectBody policy file scope owner l, ∀ name ∈ f.scope, '/' ∉ name
  | [], _, _, member => nomatch member
  | t :: rest, grown, f, member => by
    have later := plain_scope_collectBody scope owner outer rest
      (fun t also => grown t (List.mem_cons_of_mem _ also)) f
    cases t with
    | comment text => exact later member
    | leaf token => exact later member
    | node kind children =>
      have inside := (grown _ List.mem_cons_self).inside
      have here := plain_scope_collectAll scope owner [] outer children inside f
      unfold collectBody at member
      split at member
      · cases ‹_ = []›
      · rename_i same
        cases same
        exact here member
      · rename_i same
        cases same
        exact later member

theorem plain_scope_collectAll (scope : List Text) (owner : Option Text) (attributes : List Text)
    (outer : ∀ name ∈ scope, '/' ∉ name) : ∀ l : List Tree, (∀ t ∈ l, t.Grown) →
    ∀ f ∈ collectAll policy file scope owner attributes l, ∀ name ∈ f.scope, '/' ∉ name
  | [], _, _, member => nomatch member
  | t :: rest, grown, f, member => by
    have later := fun attributes => plain_scope_collectAll scope owner attributes outer rest
      (fun t also => grown t (List.mem_cons_of_mem _ also)) f
    have here := plain_scope_collect scope owner attributes outer t (grown _ List.mem_cons_self) f
    cases t with
    | comment text => exact later _ member
    | leaf token => exact later _ member
    | node kind children =>
      rw [collectAll] at member
      rcases List.mem_append.mp member with first | behind
      · exact here first
      · exact later _ behind

end

/-- The modules around a function of a source have names without a slash. -/
theorem plain_scope_extract {policy : Policy} {file source : Text} {functions : List Function}
    (extracted : extract policy file source = .ok functions) :
    ∀ f ∈ functions, ∀ name ∈ f.scope, '/' ∉ name := by
  rw [extract] at extracted
  cases parsed : parse source with
  | error e =>
    rw [parsed] at extracted
    cases extracted
  | ok trees =>
    rw [parsed] at extracted
    cases extracted
    exact plain_scope_collectAll policy file [] none []
      (fun _ member => absurd member List.not_mem_nil) trees
      (fun t member => (grown_parse parsed t member).1)

end Collect

end TestSkeleton.Rust
