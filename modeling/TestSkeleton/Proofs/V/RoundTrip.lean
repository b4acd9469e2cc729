import TestSkeleton.Proofs.V.HeaderText
import TestSkeleton.Proofs.V.ParameterText

/-! Extraction gives back the declarations that a source was written from. -/

namespace TestSkeleton.V

open Text Signature

theorem Generics.inert_written (g : Generics) {v : Text} (back : Inert v) : Inert (g.written ++ v) := by
  have bracketed := g.inert.bracketed (by rfl : closing? '[' = some ']') back
  simpa [Generics.written] using bracketed

theorem inert_generics (generics : Option Generics) {v : Text} (back : Inert v) :
    Inert (generics.elim [] Generics.written ++ v) := by
  cases generics with
  | none => exact back
  | some g => exact g.inert_written back

theorem ReceiverClause.inert_written (r : ReceiverClause) {v : Text} (back : Inert v) :
    Inert (r.written ++ v) := by
  have marker : Markless (if r.mode = .mutable then "mut ".toList else []) := by split <;> decide
  have reference : Markless (if r.mode = .reference then ['&'] else []) := by split <;> decide
  have type : Inert r.type := by
    have generics := inert_generics r.generics Inert.nil
    rw [List.append_nil] at generics
    exact Inert.append_markless (reference.append r.owner.markless) generics
  have front : Markless ((if r.mode = .mutable then "mut ".toList else []) ++ r.name.text ++ [' ']) :=
    (marker.append r.name.markless).append (by decide)
  have inside := Inert.append_markless front type
  have bracketed := inside.bracketed (by rfl : closing? '(' = some ')') back
  simpa [ReceiverClause.written] using bracketed

theorem inert_join {parts : List Text} (inert : ∀ part ∈ parts, Inert part) :
    Inert (join ", ".toList parts) := by
  induction parts with
  | nil => exact Inert.nil
  | cons part parts ih =>
    have here := inert part (by simp)
    have later := ih fun p member => inert p (List.mem_cons_of_mem part member)
    rw [join_cons]
    split
    · simpa using here
    · exact here.append_mark (by decide : ',' ∈ [' ', ',', '\n']) (Inert.cons (by decide : ' ' ∉ marks) later)

namespace ReceiverClause

variable (r : ReceiverClause)

theorem owner_head : ∃ c more, r.owner.text = c :: more ∧ c ≠ '&' := by
  obtain ⟨c, more, shape⟩ := List.exists_cons_of_ne_nil r.owner.filled
  refine ⟨c, more, shape, ?_⟩
  rintro rfl
  exact absurd (r.owner.word '&' (by simp [shape])) (by decide)

theorem parameter_eq : Receiver.parameter ⟨r.mode = .mutable, r.type⟩ = r.parameter := by
  obtain ⟨c, more, shape, other⟩ := r.owner_head
  cases mode : r.mode with
  | value => simp [Receiver.parameter, type, mode, shape, startsWith, dropPrefix?, Ne.symm other, parameter,
      Signature.receiver]
  | mutable => simp [Receiver.parameter, mode, parameter, Signature.receiver]
  | reference => simp [Receiver.parameter, type, mode, startsWith, dropPrefix?, parameter,
      Signature.receiver]

theorem owner_eq (isMutable : Bool) : Receiver.owner ⟨isMutable, r.type⟩ = r.owner.text := by
  have unmarked : r.type.dropWhile (· == '&') = r.owner.text ++ r.generics.elim [] Generics.written := by
    obtain ⟨c, more, shape, other⟩ := r.owner_head
    by_cases reference : r.mode = .reference <;> simp [type, reference, shape, other]
  have word : ∀ c ∈ r.owner.text, decide (c ≠ '[') = true := by
    intro c member
    have free := r.owner.markless c member
    rw [decide_eq_true_eq]
    rintro rfl
    exact free (by decide)
  rw [Receiver.owner, unmarked, beforeFirst]
  cases r.generics with
  | none =>
    rw [Option.elim_none, List.append_nil, List.takeWhile_eq_self_iff]
    exact word
  | some g => exact (takeWhile_append_mark word (by decide) (g.text ++ [']'])).1

end ReceiverClause

namespace Declaration

variable (d : Declaration)

theorem inert_lead {v : Text} (back : Inert v) : Inert (d.lead ++ v) := by
  have visibility : Markless (if d.isPublic = true then "pub ".toList else []) := by split <;> decide
  have front : Markless ((if d.isPublic = true then "pub ".toList else []) ++ "fn ".toList) :=
    visibility.append (by decide)
  have named : Inert (d.named ++ v) := by
    rw [named, List.append_assoc]
    exact Inert.append_markless d.name.markless (inert_generics d.generics back)
  have clause : Inert (d.clause ++ (d.named ++ v)) := by
    cases shape : d.receiver with
    | none => simpa [clause, shape] using named
    | some r => simpa [clause, shape] using r.inert_written (Inert.cons (by decide : ' ' ∉ marks) named)
  simpa [lead] using Inert.append_markless front clause

theorem inert_parameterText : Inert d.parameterText :=
  inert_join fun part member => (fits_parts d.groups part member).inert

theorem inert_returnText : Inert d.returnText := by
  cases shape : d.returns with
  | none => simpa [returnText, shape] using Inert.nil
  | some type => simpa [returnText, shape] using Inert.cons (by decide : ' ' ∉ marks) type.inert

theorem inert_source {v : Text} (back : Inert v) : Inert (d.source ++ v) := by
  have lineEnd : Inert ('\n' :: v) := Inert.append_mark Inert.nil (by simp) back
  have body : Inert ('\n' :: d.body) := Inert.append_mark Inert.nil (by simp) d.bodyInert
  have braces := body.bracketed (by rfl : closing? '\x7b' = some '\x7d') lineEnd
  have behind := d.inert_returnText.append_mark (by simp : ' ' ∈ [' ', ',', '\n']) braces
  have whole := d.inert_lead (d.inert_parameterText.bracketed (by rfl : closing? '(' = some ')') behind)
  simpa [source, rest] using whole

/-- The header takes one line. -/
theorem flat_header : '\n' ∉ d.parameterText ++ ')' :: (d.returnText ++ " \x7b".toList) := by
  have parameters : '\n' ∉ d.parameterText :=
    not_mem_join (by decide) fun part member => (fits_parts d.groups part member).flat
  have returns : '\n' ∉ d.returnText := by
    cases shape : d.returns with
    | none => simp [returnText, shape]
    | some type =>
      have plain : '\n' ∉ type.text := fun member => type.plain '\n' member (by simp)
      simp [returnText, shape, plain]
  simp [parameters, returns]

/-- No line of the body opens a function. -/
def Silent : Prop := ∀ line ∈ splitOn '\n' d.body, opensFunction line = false

instance : Decidable d.Silent := inferInstanceAs (Decidable (∀ line ∈ splitOn '\n' d.body, _))

variable {d}

/-- A declaration gives its own header, and the search goes on behind it. -/
theorem headersFrom_source (silent : d.Silent) (behind : Text) :
    headersFrom 0 true (d.source ++ behind) =
      (d.header, d.rest ++ behind) :: headersFrom 0 true behind := by
  have found : header? (d.source ++ behind) = some (d.header, d.rest ++ behind) := by
    simpa [source] using header?_lead d (d.rest ++ behind)
  -- behind the header, the rest of its line and then the body hold no other one
  have skipped : headersFrom 0 false (d.rest ++ behind) = headersFrom 0 true behind := by
    have line := headersFrom_line d.flat_header (d.body ++ '\x7d' :: '\n' :: behind)
    rw [headersFrom_body silent] at line
    simpa [rest] using line
  obtain ⟨c, u, first⟩ := List.exists_cons_of_ne_nil (by simp : d.lead ++ ['('] ≠ [])
  have shape : d.source ++ behind = c :: (u ++ (d.rest ++ behind)) := by
    have whole : d.source ++ behind = (d.lead ++ ['(']) ++ (d.rest ++ behind) := by simp [source]
    rw [whole, first, List.cons_append]
  have lead : (u ++ (d.rest ++ behind)).length - (d.rest ++ behind).length = u.length := by simp
  rw [shape] at found ⊢
  simp only [headersFrom, found, if_true, lead, headersFrom_skip, skipped]

variable (d)

theorem returnType_rest (behind : Text) :
    normalize (returnType (d.returnText ++ ' ' :: '\x7b' :: behind)) = d.returns.elim [] TypeText.text := by
  cases shape : d.returns with
  | none =>
    have blank : trim [' '] = [] := by decide
    simp only [returnText, shape, Option.elim_none, List.nil_append, returnType]
    simp [blank, normalize_eq_spaceFrom, spaceFrom]
  | some type =>
    have onLine : ∀ c ∈ ' ' :: (type.text ++ [' ']), (c != '\x7b' && c != '\n') = true := by
      intro c member
      rcases List.mem_cons.mp member with rfl | member
      · decide
      · rcases List.mem_append.mp member with member | member
        · have plain := type.plain c member
          simp only [List.mem_cons, not_or] at plain
          simp [plain]
        · rw [List.mem_singleton.mp member]
          decide
    have cut := (takeWhile_append_mark onLine (by decide : ('\x7b' != '\x7b' && '\x7b' != '\n') = false)
      behind).1
    have gap : ∀ c ∈ [' '], isBlank c = true := by decide
    have trimmed : trim (' ' :: (type.text ++ [' '])) = type.text := by
      rw [← List.singleton_append, trim_blanks_append gap]
      exact trim_append_blanks type.solidEnds.head type.solidEnds.last gap
    simp only [List.cons_append, List.append_assoc, List.nil_append] at cut
    simp only [returnText, shape, Option.elim_some, List.cons_append, returnType, cut, trimmed, type.normal]

theorem functionOf?_header (file behind : Text) :
    functionOf? file d.header (d.rest ++ behind) = some (d.function file) := by
  have shape : d.rest ++ behind = d.parameterText ++
      ')' :: (d.returnText ++ ' ' :: '\x7b' :: ('\n' :: (d.body ++ ['\x7d', '\n'] ++ behind))) := by
    simp [rest]
  have receiver : (d.header.receiver.map Receiver.parameter).toList =
      (d.receiver.map ReceiverClause.parameter).toList := by
    cases clause : d.receiver <;> simp [header, clause, ReceiverClause.parameter_eq]
  have owner : d.header.receiver.map Receiver.owner = d.receiver.map (·.owner.text) := by
    cases clause : d.receiver <;> simp [header, clause, ReceiverClause.owner_eq]
  have written := parameters_written d.groups
  rw [shape, functionOf?, cutAtClosing?_nested d.inert_parameterText.nested, Option.map_some]
  simp only [receiver, owner, returnType_rest, parameterText, written]
  rfl

end Declaration

theorem inert_sources (ds : List Declaration) : Inert (ds.flatMap Declaration.source) := by
  induction ds with
  | nil => exact Inert.nil
  | cons d ds ih => exact d.inert_source ih

/-- The headers of a written source are those of its declarations, and each gives its signature. -/
theorem functions_headers (policy : Policy) (file : Text) {ds : List Declaration}
    (silent : ∀ d ∈ ds, d.Silent) :
    ((headers (ds.flatMap Declaration.source)).filterMap fun (h, rest) =>
      if policy.retains h.name h.isPublic then functionOf? file h rest else none) =
        (ds.filter fun d => policy.retains d.name.text d.isPublic).map (Declaration.function file) := by
  rw [headers]
  induction ds with
  | nil => rfl
  | cons d ds ih =>
    have later := ih fun e member => silent e (List.mem_cons_of_mem d member)
    have named : d.header.name = d.name.text ∧ d.header.isPublic = d.isPublic := ⟨rfl, rfl⟩
    rw [List.flatMap_cons, Declaration.headersFrom_source (silent d (by simp)), List.filterMap_cons]
    simp only [named, d.functionOf?_header]
    cases kept : policy.retains d.name.text d.isPublic with
    | false => simpa [kept] using later
    | true => simpa [kept] using later

/-- The signatures of a written source are those of the declarations that the policy keeps. -/
theorem extract_sources (policy : Policy) (file : Text) {ds : List Declaration}
    (silent : ∀ d ∈ ds, d.Silent) :
    extract policy file (ds.flatMap Declaration.source) =
      .ok ((ds.filter fun d => policy.retains d.name.text d.isPublic).map (Declaration.function file)) := by
  have inert := inert_sources ds
  rw [extract, blank_eq_self inert.quiet]
  simp only [nestingFault?_eq_none_iff.mpr inert.nested, functions_headers policy file silent]

/-- Reading undoes writing: with private functions included and no name skipped, there is one
signature for each declaration, in order. -/
theorem extract_written {policy : Policy} {ds : List Declaration}
    (privates : policy.includePrivate = true)
    (unskipped : ∀ d ∈ ds, policy.skipsFunction d.name.text = false)
    (silent : ∀ d ∈ ds, d.Silent) (file : Text) :
    extract policy file (ds.flatMap Declaration.source) = .ok (ds.map (Declaration.function file)) := by
  have all : ds.filter (fun d => policy.retains d.name.text d.isPublic) = ds := by
    rw [List.filter_eq_self]
    intro d member
    simp [Policy.retains, privates, unskipped d member]
  rw [extract_sources policy file silent, all]

/-- A method with generic arguments on both sides, a marked receiver and two groups of parameters. -/
def storeMethod : Declaration where
  isPublic := true
  receiver := some {
    mode := .mutable
    name := ⟨"s".toList, by decide, by decide, by decide⟩
    owner := ⟨"kv.Store".toList, by decide, by decide⟩
    generics := some ⟨"K, V".toList, ⟨by decide, by decide⟩, by decide⟩ }
  name := ⟨'p', "ut".toList, by decide, by decide⟩
  generics := some ⟨"T".toList, ⟨by decide, by decide⟩, by decide⟩
  groups := [
    { front := []
      last := ⟨false, "key".toList, by decide, by decide, by decide⟩
      type := ⟨"string".toList, by decide, by decide, ⟨by decide, by decide⟩, by decide, by decide⟩ },
    { front := [⟨false, "a".toList, by decide, by decide, by decide⟩]
      last := ⟨true, "b".toList, by decide, by decide, by decide⟩
      type := ⟨"fn (int, []u8) bool".toList, by decide, by decide, ⟨by decide, by decide⟩,
        by decide, by decide⟩ }]
  returns := some ⟨"!int".toList, by decide, by decide, ⟨by decide, by decide⟩, by decide, by decide⟩
  body := "\tif key.len \x3e 0 \x7b\n\t\treturn a\n\t\x7d\n".toList
  bodyInert := ⟨by decide, by decide⟩

/-- A private function without anything that may be left out. -/
def bareFunction : Declaration where
  isPublic := false
  receiver := none
  name := ⟨'m', "ain".toList, by decide, by decide⟩
  generics := none
  groups := []
  returns := none
  body := []
  bodyInert := ⟨by decide, by decide⟩

theorem storeMethod_written :
    storeMethod.source =
      "pub fn (mut s kv.Store[K, V]) put[T](key string, a, mut b fn (int, []u8) bool) !int \x7b\n".toList ++
        storeMethod.body ++ "\x7d\n".toList ∧
    (∀ d ∈ [storeMethod, bareFunction], d.Silent) ∧
      extract { includePrivate := true } "kv.v".toList
        ([storeMethod, bareFunction].flatMap Declaration.source) =
          .ok ([storeMethod, bareFunction].map (Declaration.function "kv.v".toList)) := by
  have silent : ∀ d ∈ [storeMethod, bareFunction], d.Silent := by decide
  exact ⟨by decide, silent, extract_written rfl (by decide) silent _⟩

/-- A function whose body holds the header of another one behind a tab. -/
def outerFunction : Declaration where
  isPublic := false
  receiver := none
  name := ⟨'f', [], by decide, by decide⟩
  generics := none
  groups := [
    { front := []
      last := ⟨false, "x".toList, by decide, by decide, by decide⟩
      type := ⟨"int".toList, by decide, by decide, ⟨by decide, by decide⟩, by decide, by decide⟩ }]
  returns := some ⟨"string".toList, by decide, by decide, ⟨by decide, by decide⟩, by decide, by decide⟩
  body := "\tpub fn g() \x7b\n\t\x7d\n".toList
  bodyInert := ⟨by decide, by decide⟩

/-- No line of that body begins with `fn` or ends in `pub`, and still there is a second signature. -/
theorem outerFunction_not_alone :
    (∀ line ∈ splitOn '\n' outerFunction.body,
      startsWith "fn".toList (trimStart line) = false ∧ endsWith "pub".toList (trimEnd line) = false) ∧
    extract { includePrivate := true } "m.v".toList ([outerFunction].flatMap Declaration.source) ≠
      .ok ([outerFunction].map (Declaration.function "m.v".toList)) := by
  decide

end TestSkeleton.V
