import TestSkeleton.Proofs.Text.Basic
import TestSkeleton.Proofs.Text.Class
import TestSkeleton.Proofs.V.Declaration

/-! The header of a declaration is read as it was written. -/

namespace TestSkeleton.V

open Text

theorem trimStart_cons {c : Char} (visible : isBlank c = false) (r : Text) :
    trimStart (c :: r) = c :: r := by
  simp [trimStart, visible]

theorem trimStart_run {run : Text} (filled : run ≠ []) (solid : ∀ c ∈ run, isBlank c = false)
    (behind : Text) : trimStart (run ++ behind) = run ++ behind := by
  cases run with
  | nil => exact absurd rfl filled
  | cons c r => exact trimStart_cons (solid c (by simp)) (r ++ behind)

/-- A keyword is the whole of what stands before the first blank. -/
theorem dropKeyword?_word {word run : Text} (solidWord : ∀ c ∈ word, isBlank c = false)
    (solidRun : ∀ c ∈ run, isBlank c = false) (behind : Text) :
    dropKeyword? word (run ++ ' ' :: behind) = if run = word then some (trimStart behind) else none := by
  have space : isBlank ' ' = true := by decide
  have absent : ' ' ∉ word := by
    intro member
    rw [solidWord ' ' member] at space
    cases space
  rw [dropKeyword?, dropPrefix?_append_mark absent]
  cases found : dropPrefix? word run with
  | none =>
    have differ : run ≠ word := by
      rintro rfl
      simpa [found] using dropPrefix?_append run []
    simp [differ]
  | some more =>
    rw [dropPrefix?_eq_some] at found
    cases more with
    | nil => simp [found, space]
    | cons c more =>
      have visible : isBlank c = false := solidRun c (by simp [found])
      simp [found, visible]

/-- What stands before a character that is not blank is no keyword. -/
theorem dropKeyword?_eq_none {word run : Text} {mark : Char} (absent : mark ∉ word)
    (visible : isBlank mark = false) (solid : ∀ c ∈ run, isBlank c = false) (behind : Text) :
    dropKeyword? word (run ++ mark :: behind) = none := by
  rw [dropKeyword?, dropPrefix?_append_mark absent]
  cases found : dropPrefix? word run with
  | none => rfl
  | some more =>
    rw [dropPrefix?_eq_some] at found
    cases more with
    | nil => simp [visible]
    | cons c more =>
      have solidHead : isBlank c = false := solid c (by simp [found])
      simp [solidHead]

theorem not_blank_of_isTypeNameChar {c : Char} (word : isTypeNameChar c = true) : isBlank c = false := by
  rw [isTypeNameChar, Bool.or_eq_true, beq_iff_eq] at word
  rcases word with word | rfl
  · exact not_blank_of_isWord word
  · decide

theorem not_mem_marks {c : Char} (word : isTypeNameChar c = true) : c ∉ marks := by
  have free : ∀ mark ∈ marks, isTypeNameChar mark = false := by decide
  intro member
  rw [free c member] at word
  cases word

theorem not_mem_marks_of_isWord {c : Char} (word : isWord c = true) : c ∉ marks :=
  not_mem_marks (by simp [isTypeNameChar, word])

theorem ValueName.markless (n : ValueName) : Markless n.text :=
  fun c member => not_mem_marks_of_isWord (n.word c member)

theorem OwnerName.markless (n : OwnerName) : Markless n.text :=
  fun c member => not_mem_marks (n.word c member)

theorem FunctionName.markless (n : FunctionName) : Markless n.text := by
  have free : ∀ mark ∈ marks, isAsciiIdentifierStart mark = false := by decide
  intro c member
  rcases List.mem_cons.mp member with rfl | member
  · intro marked
    have start := n.starts
    rw [free _ marked] at start
    cases start
  · exact not_mem_marks_of_isWord (n.word c member)

theorem ValueName.solid (n : ValueName) : ∀ c ∈ n.text, isBlank c = false :=
  fun c member => not_blank_of_isWord (n.word c member)

theorem OwnerName.solid (n : OwnerName) : ∀ c ∈ n.text, isBlank c = false :=
  fun c member => not_blank_of_isTypeNameChar (n.word c member)

theorem dropSquare?_written (g : Generics) (behind : Text) :
    dropSquare? (g.written ++ behind) = some behind := by
  have inside : ∀ c ∈ g.text, (c != ']' && c != '\n') = true := by
    intro c member
    simpa using g.flat c member
  simp [Generics.written, dropSquare?, List.dropWhile_append_of_pos inside]

theorem takeWhile_append_mark {p : Char → Bool} {run : Text} {mark : Char}
    (inRun : ∀ c ∈ run, p c = true) (stops : p mark = false) (behind : Text) :
    (run ++ mark :: behind).takeWhile p = run ∧
      (run ++ mark :: behind).dropWhile p = mark :: behind := by
  have stop : ∀ c ∈ (mark :: behind).head?, p c = false := by simp [stops]
  exact ⟨takeWhile_run inRun stop, dropWhile_run inRun stop⟩

/-- Generic arguments are what is read between a name and the mark behind them. -/
theorem dropSquare?_getD (generics : Option Generics) {mark : Char} (plain : mark ≠ '[') (behind : Text) :
    (dropSquare? (generics.elim [] Generics.written ++ mark :: behind)).getD
      (generics.elim [] Generics.written ++ mark :: behind) = mark :: behind := by
  cases generics with
  | none =>
    have none : dropSquare? (mark :: behind) = none := by
      unfold dropSquare?
      split
      · rename_i same
        exact absurd (List.cons.inj same).1 plain
      · rfl
    simp [none]
  | some g => simp [dropSquare?_written]

theorem receiverType?_written (r : ReceiverClause) (behind : Text) :
    receiverType? (r.type ++ ')' :: behind) = some (r.type, trimStart behind) := by
  obtain ⟨mode, name, ⟨owner, filled, word⟩, generics⟩ := r
  have after := dropSquare?_getD generics (by decide : ')' ≠ '[') behind
  have ends : ∃ mark more, generics.elim [] Generics.written ++ ')' :: behind = mark :: more ∧
      isTypeNameChar mark = false := by
    cases generics with
    | none => exact ⟨')', behind, rfl, by decide⟩
    | some g => exact ⟨'[', _, rfl, by decide⟩
  have square : (generics.elim [] Generics.written ++ ')' :: behind).take
      ((generics.elim [] Generics.written ++ ')' :: behind).length - (')' :: behind).length) =
        generics.elim [] Generics.written := by
    simp
  have cut : (owner ++ (generics.elim [] Generics.written ++ ')' :: behind)).takeWhile isTypeNameChar =
        owner ∧
      (owner ++ (generics.elim [] Generics.written ++ ')' :: behind)).dropWhile isTypeNameChar =
        generics.elim [] Generics.written ++ ')' :: behind := by
    obtain ⟨mark, more, shape, stops⟩ := ends
    rw [shape]
    exact takeWhile_append_mark word stops more
  have closing : trimStart (')' :: behind) = ')' :: behind := trimStart_cons (by decide) behind
  have visible : owner.isEmpty = false := by simpa using filled
  by_cases reference : mode = .reference
  · simp only [receiverType?, ReceiverClause.type, reference, if_true, List.append_assoc,
      List.cons_append, List.nil_append, cut, after, closing, square, visible, Bool.false_eq_true,
      if_false]
  · simp only [receiverType?, ReceiverClause.type, reference, if_false, List.append_assoc,
      List.nil_append]
    split
    · rename_i marked
      have first : '&' ∈ owner := by
        cases owner with
        | nil => exact absurd rfl filled
        | cons c more =>
          obtain ⟨rfl, -⟩ := List.cons.inj marked
          exact List.mem_cons_self
      exact absurd (word '&' first) (by decide)
    · simp only [cut, after, closing, square, visible, Bool.false_eq_true, if_false, List.nil_append]

theorem ReceiverClause.trimStart_type (r : ReceiverClause) (behind : Text) :
    trimStart (r.type ++ behind) = r.type ++ behind := by
  by_cases reference : r.mode = .reference
  · simp only [ReceiverClause.type, reference, if_true, List.cons_append]
    exact trimStart_cons (by decide) _
  · simp only [ReceiverClause.type, reference, if_false, List.nil_append, List.append_assoc]
    exact trimStart_run r.owner.filled r.owner.solid _

/-- No type of a receiver is read as the marker `mut` in front of another one. -/
theorem ReceiverClause.dropKeyword?_type (r : ReceiverClause) (behind : Text) :
    dropKeyword? "mut".toList (r.type ++ ')' :: behind) = none := by
  by_cases reference : r.mode = .reference
  · simp only [ReceiverClause.type, reference, if_true, List.append_assoc, List.cons_append]
    have none : ∀ c ∈ ([] : Text), isBlank c = false := by simp
    exact dropKeyword?_eq_none (by decide) (by decide) none _
  · simp only [ReceiverClause.type, reference, if_false, List.nil_append, List.append_assoc]
    cases r.generics with
    | none => exact dropKeyword?_eq_none (by decide) (by decide) r.owner.solid behind
    | some g =>
      simp only [Option.elim_some, Generics.written, List.cons_append]
      exact dropKeyword?_eq_none (by decide) (by decide) r.owner.solid _

theorem receiverAfterMut?_written (r : ReceiverClause) (leadMut : Bool) (behind : Text) :
    receiverAfterMut? leadMut (r.name.text ++ ' ' :: (r.type ++ ')' :: behind)) =
      some (⟨leadMut, r.type⟩, trimStart behind) := by
  have cut := takeWhile_append_mark r.name.word (by decide : isWord ' ' = false)
    (r.type ++ ')' :: behind)
  have space : isBlank ' ' = true := by decide
  cases name : r.name.text with
  | nil => exact absurd name r.name.filled
  | cons c more =>
    rw [name] at cut
    simp only [receiverAfterMut?, cut, space, if_true, r.trimStart_type, r.dropKeyword?_type,
      receiverType?_written, Option.bind_none, Option.map_some]

theorem receiver?_written (r : ReceiverClause) (behind : Text) :
    receiver? (r.written ++ behind) = some (⟨r.mode = .mutable, r.type⟩, trimStart behind) := by
  have named := trimStart_run r.name.filled r.name.solid (' ' :: (r.type ++ ')' :: behind))
  have solidMarker : ∀ c ∈ "mut".toList, isBlank c = false := by decide
  by_cases marked : r.mode = .mutable
  · have keyword := dropKeyword?_word solidMarker solidMarker
      (r.name.text ++ ' ' :: (r.type ++ ')' :: behind))
    have shape : r.written ++ behind =
        '(' :: ("mut".toList ++ ' ' :: (r.name.text ++ ' ' :: (r.type ++ ')' :: behind))) := by
      simp [ReceiverClause.written, marked]
    rw [shape, receiver?, trimStart_run (by decide) solidMarker, keyword, if_pos rfl, named,
      Option.bind_some, receiverAfterMut?_written]
    simp [marked]
  · have keyword := dropKeyword?_word solidMarker r.name.solid (r.type ++ ')' :: behind)
    have shape : r.written ++ behind = '(' :: (r.name.text ++ ' ' :: (r.type ++ ')' :: behind)) := by
      simp [ReceiverClause.written, marked]
    rw [shape, receiver?, named, keyword, if_neg r.name.other, Option.bind_none, Option.none_or,
      receiverAfterMut?_written]
    simp [marked]

theorem FunctionName.solid_first (n : FunctionName) : isBlank n.first = false := by
  cases blank : isBlank n.first with
  | false => rfl
  | true =>
    have start := n.starts
    rw [isAsciiIdentifierStart_of_isBlank blank] at start
    cases start

theorem nameAndOpening?_named (d : Declaration) (behind : Text) :
    nameAndOpening? (d.named ++ '(' :: behind) = some (d.name.text, behind) := by
  obtain ⟨-, -, n, generics⟩ := d
  have opening : trimStart ('(' :: behind) = '(' :: behind := trimStart_cons (by decide) behind
  cases generics with
  | none =>
    have cut := takeWhile_append_mark n.word (by decide : isWord '(' = false) behind
    simp only [Declaration.named, FunctionName.text, nameAndOpening?, n.starts, if_true,
      List.cons_append, List.append_nil, Option.elim_none, cut, opening]
    simp [dropSquare?]
  | some g =>
    have square : trimStart (g.written ++ '(' :: behind) = g.written ++ '(' :: behind :=
      trimStart_cons (by decide) _
    have cut := takeWhile_append_mark n.word (by decide : isWord '[' = false)
      (g.text ++ [']'] ++ '(' :: behind)
    have read := dropSquare?_written g ('(' :: behind)
    simp only [Generics.written, List.cons_append, List.append_assoc, List.nil_append]
      at square read cut
    simp only [Declaration.named, FunctionName.text, nameAndOpening?, n.starts, if_true,
      List.cons_append, List.append_assoc, List.nil_append, Generics.written, Option.elim_some, cut,
      square, read,
      Option.map_some, Option.getD_some, opening]

/-- Without a receiver the name follows, which is no parenthesis. -/
theorem receiver?_name (n : FunctionName) (behind : Text) : receiver? (n.text ++ behind) = none := by
  have other : n.first ≠ '(' := by
    intro same
    have start := n.starts
    rw [same] at start
    cases start
  simp [FunctionName.text, receiver?, other]

theorem trimStart_named (d : Declaration) (behind : Text) :
    trimStart (d.named ++ behind) = d.named ++ behind :=
  trimStart_cons d.name.solid_first _

theorem trimStart_clause (d : Declaration) (behind : Text) :
    trimStart (d.clause ++ (d.named ++ behind)) = d.clause ++ (d.named ++ behind) := by
  cases clause : d.receiver with
  | none =>
    simp only [Declaration.clause, clause, Option.elim_none, List.nil_append]
    exact trimStart_named d behind
  | some r =>
    simp only [Declaration.clause, clause, Option.elim_some]
    exact trimStart_cons (by decide) _

/-- The receiver and its absence are both told from what follows `fn`. -/
theorem receiver?_clause (d : Declaration) (behind : Text) :
    receiver? (d.clause ++ (d.named ++ behind)) =
      d.receiver.map fun r => (⟨r.mode = .mutable, r.type⟩, d.named ++ behind) := by
  cases clause : d.receiver with
  | none =>
    simp only [Declaration.clause, clause, Option.elim_none, List.nil_append, Option.map_none]
    simp only [Declaration.named, List.append_assoc]
    exact receiver?_name d.name _
  | some r =>
    have space : trimStart (' ' :: (d.named ++ behind)) = d.named ++ behind := by
      have blank : isBlank ' ' = true := by decide
      rw [trimStart, List.dropWhile_cons_of_pos blank]
      exact trimStart_named d behind
    simp only [Declaration.clause, clause, Option.elim_some, Option.map_some, List.append_assoc,
      List.cons_append, List.nil_append, receiver?_written, space]

/-- The header of a declaration, in front of whatever follows it. -/
theorem header?_lead (d : Declaration) (behind : Text) :
    header? (d.lead ++ '(' :: behind) = some (d.header, behind) := by
  have fnSolid : ∀ c ∈ "fn".toList, isBlank c = false := by decide
  have pubSolid : ∀ c ∈ "pub".toList, isBlank c = false := by decide
  have fnRead : dropKeyword? "fn".toList ("fn".toList ++ ' ' :: (d.clause ++ (d.named ++ '(' :: behind))) =
      some (d.clause ++ (d.named ++ '(' :: behind)) := by
    rw [dropKeyword?_word fnSolid fnSolid, if_pos rfl, trimStart_clause]
  cases published : d.isPublic with
  | true =>
    have pubRead := dropKeyword?_word pubSolid pubSolid
      ("fn".toList ++ ' ' :: (d.clause ++ (d.named ++ '(' :: behind)))
    rw [if_pos rfl, trimStart_run (by decide) fnSolid] at pubRead
    have shape : d.lead ++ '(' :: behind =
        "pub".toList ++ ' ' :: ("fn".toList ++ ' ' :: (d.clause ++ (d.named ++ '(' :: behind))) := by
      simp [Declaration.lead, published]
    have unspaced : ("pub".toList ++ ' ' :: ("fn".toList ++ ' ' ::
        (d.clause ++ (d.named ++ '(' :: behind)))).dropWhile (fun c => c == ' ' || c == '\t') =
        "pub".toList ++ ' ' :: ("fn".toList ++ ' ' :: (d.clause ++ (d.named ++ '(' :: behind))) := rfl
    simp only [shape, header?, unspaced, pubRead, fnRead, receiver?_clause]
    cases clause : d.receiver <;>
      simp [nameAndOpening?_named, Declaration.clause, Declaration.header, clause, published]
  | false =>
    have pubRead := dropKeyword?_word pubSolid fnSolid (d.clause ++ (d.named ++ '(' :: behind))
    rw [if_neg (by decide)] at pubRead
    have shape : d.lead ++ '(' :: behind =
        "fn".toList ++ ' ' :: (d.clause ++ (d.named ++ '(' :: behind)) := by
      simp [Declaration.lead, published]
    have unspaced : ("fn".toList ++ ' ' :: (d.clause ++ (d.named ++ '(' :: behind))).dropWhile
        (fun c => c == ' ' || c == '\t') =
        "fn".toList ++ ' ' :: (d.clause ++ (d.named ++ '(' :: behind)) := rfl
    simp only [shape, header?, unspaced, pubRead, fnRead, receiver?_clause]
    cases clause : d.receiver <;>
      simp [nameAndOpening?_named, Declaration.clause, Declaration.header, clause, published]

/-! Headers are found at the declarations and nowhere between them. -/

theorem headersFrom_skip (u v : Text) : headersFrom u.length false (u ++ v) = headersFrom 0 false v := by
  induction u with
  | nil => rfl
  | cons c u ih => simpa [headersFrom] using ih

/-- The rest of a line holds no header. -/
theorem headersFrom_line {u : Text} (flat : '\n' ∉ u) (v : Text) :
    headersFrom 0 false (u ++ '\n' :: v) = headersFrom 0 true v := by
  induction u with
  | nil => simp [headersFrom]
  | cons c u ih =>
    obtain ⟨other, later⟩ := List.ne_and_not_mem_of_not_mem_cons flat
    have within : (c == '\n') = false := by simpa using Ne.symm other
    simpa [headersFrom, within] using ih later

theorem headersFrom_of_header?_eq_none {t : Text} (none : header? t = none) :
    headersFrom 0 true t = headersFrom 0 false t := by
  cases t with
  | nil => rfl
  | cons c r => simp [headersFrom, none]

/-- What stands before the blanks at the front is cut off by a character that is not blank. -/
theorem trimStart_append_mark (u : Text) {mark : Char} (behind : Text) :
    trimStart (u ++ mark :: behind) =
      if u.all isBlank then trimStart (mark :: behind) else trimStart u ++ mark :: behind := by
  induction u with
  | nil => rfl
  | cons c u ih =>
    cases blank : isBlank c with
    | true => simpa [trimStart, blank] using ih
    | false => simp [trimStart, blank]

theorem dropKeyword?_of_startsWith {word t : Text} (other : startsWith word t = false) :
    dropKeyword? word t = none := by
  rw [startsWith, Option.isSome_eq_false_iff, Option.isNone_iff_eq_none] at other
  simp [dropKeyword?, other]

theorem startsWith_append_mark {lead : Text} {mark : Char} (absent : mark ∉ lead) (run behind : Text) :
    startsWith lead (run ++ mark :: behind) = startsWith lead run := by
  simp [startsWith, dropPrefix?_append_mark absent]

/-- No `fn` begins behind the blanks at the front. -/
def Mute (t : Text) : Prop := startsWith "fn".toList (trimStart t) = false

theorem Mute.startsWith_eq_false {u : Text} (mute : Mute u) : startsWith "fn".toList u = false := by
  cases found : dropPrefix? "fn".toList u with
  | none => simp only [startsWith, found, Option.isSome_none]
  | some r =>
    rw [dropPrefix?_eq_some] at found
    have solid : trimStart u = u := by
      rw [found]
      exact trimStart_run (by decide) (by decide) r
    rwa [Mute, solid] at mute

theorem Mute.append {u : Text} {mark : Char} {behind : Text} (front : Mute u)
    (back : Mute (mark :: behind)) (absent : mark ∉ "fn".toList) : Mute (u ++ mark :: behind) := by
  rw [Mute, trimStart_append_mark]
  split
  · exact back
  · rw [startsWith_append_mark absent]
    exact front

theorem mute_of_opensFunction {line : Text} (silent : opensFunction line = false) : Mute line := by
  simp only [opensFunction, Bool.or_eq_false_iff] at silent
  exact silent.1

theorem dropWhile_append_mark {p : Char → Bool} {mark : Char} (stops : p mark = false) (u behind : Text) :
    (u ++ mark :: behind).dropWhile p = u.dropWhile p ++ mark :: behind := by
  induction u with
  | nil => simp [stops]
  | cons c u ih => cases found : p c <;> simp [found, ih]

theorem dropWhile_dropWhile {p q : Char → Bool} (finer : ∀ c, p c = true → q c = true) (t : Text) :
    (t.dropWhile p).dropWhile q = t.dropWhile q := by
  induction t with
  | nil => rfl
  | cons c t ih =>
    cases found : p c with
    | false => simp [found]
    | true => simp [found, finer c found, ih]

theorem opensFunction_indent (line : Text) :
    opensFunction (line.dropWhile fun c => c == ' ' || c == '\t') = opensFunction line := by
  have finer : ∀ c, (c == ' ' || c == '\t') = true → isBlank c = true := by
    intro c indent
    rw [Bool.or_eq_true, beq_iff_eq, beq_iff_eq] at indent
    rcases indent with rfl | rfl <;> decide
  simp only [opensFunction, trimStart, dropWhile_dropWhile finer]

/-- What follows `pub` and blanks begins no `fn`, be it in the same line or a later one. -/
theorem startsWith_behind_pub {line r : Text} {mark : Char} {behind : Text}
    (silent : opensFunction line = false) (absent : mark ∉ "pub".toList ∧ mark ∉ "fn".toList)
    (back : Mute (mark :: behind))
    (keyword : dropKeyword? "pub".toList (line ++ mark :: behind) = some r) :
    startsWith "fn".toList r = false := by
  rw [dropKeyword?, dropPrefix?_append_mark absent.1] at keyword
  cases found : dropPrefix? "pub".toList line with
  | none =>
    rw [found] at keyword
    cases keyword
  | some v =>
    cases v with
    -- the blanks behind `pub` begin with the mark and may go on in later lines
    | nil =>
      simp only [found, Option.map_some, List.nil_append] at keyword
      split at keyword
      · rename_i blank
        obtain rfl := Option.some.inj keyword
        rwa [Mute, trimStart, List.dropWhile_cons_of_pos blank] at back
      · cases keyword
    | cons c w =>
      simp only [found, Option.map_some, List.cons_append] at keyword
      split at keyword
      · rename_i blank
        obtain rfl := Option.some.inj keyword
        have solid : trimStart line = line := by
          rw [dropPrefix?_eq_some.mp found]
          exact trimStart_run (by decide) (by decide) (c :: w)
        simp only [opensFunction, solid, dropKeyword?, found, blank, if_true, Option.any_some,
          Bool.or_eq_false_iff] at silent
        exact Mute.append silent.2 back absent.2
      · cases keyword

/-- A line that opens no function starts no header, when what follows it is mute. -/
theorem header?_line {line : Text} {mark : Char} {behind : Text} (silent : opensFunction line = false)
    (marks : mark = '\n' ∨ mark = '\x7d') (back : Mute (mark :: behind)) :
    header? (line ++ mark :: behind) = none := by
  have absent : mark ∉ "pub".toList ∧ mark ∉ "fn".toList ∧ (mark == ' ' || mark == '\t') = false := by
    rcases marks with rfl | rfl <;> decide
  obtain ⟨noPub, noFn, noIndent⟩ := absent
  have cut := dropWhile_append_mark (p := fun c => c == ' ' || c == '\t') noIndent line behind
  rw [← opensFunction_indent] at silent
  simp only [header?, cut]
  generalize line.dropWhile (fun c => c == ' ' || c == '\t') = u at silent
  have fnNone : dropKeyword? "fn".toList (u ++ mark :: behind) = none := by
    apply dropKeyword?_of_startsWith
    rw [startsWith_append_mark noFn]
    exact (mute_of_opensFunction silent).startsWith_eq_false
  cases keyword : dropKeyword? "pub".toList (u ++ mark :: behind) with
  | none => simp only [fnNone]
  | some r =>
    have other := startsWith_behind_pub silent ⟨noPub, noFn⟩ back keyword
    simp only [dropKeyword?_of_startsWith other]

/-- A line is followed by a line end and the lines behind it, or by the brace that closes the body. -/
theorem join_lines_brace (line : Text) (lines : List Text) (rest : Text) :
    join ['\n'] (line :: lines) ++ '\x7d' :: rest =
      line ++ if lines = [] then '\x7d' :: rest else '\n' :: (join ['\n'] lines ++ '\x7d' :: rest) := by
  rw [join_cons]
  split <;> simp

theorem mute_brace (rest : Text) : Mute ('\x7d' :: rest) := by
  rw [Mute, trimStart_cons (by decide)]
  rfl

theorem mute_lineEnd {t : Text} (mute : Mute t) : Mute ('\n' :: t) := by
  have blank : isBlank '\n' = true := by decide
  rwa [Mute, trimStart, List.dropWhile_cons_of_pos blank]

theorem mute_lines {lines : List Text} (silent : ∀ line ∈ lines, opensFunction line = false)
    (rest : Text) : Mute (join ['\n'] lines ++ '\x7d' :: rest) := by
  induction lines with
  | nil => exact mute_brace rest
  | cons line lines ih =>
    have front := mute_of_opensFunction (silent line (by simp))
    have later := ih fun l member => silent l (List.mem_cons_of_mem line member)
    rw [join_lines_brace]
    split
    · exact front.append (mute_brace rest) (by decide)
    · exact front.append (mute_lineEnd later) (by decide)

/-- Lines that open no function hold no header, and neither does the brace behind them. -/
theorem headersFrom_lines {lines : List Text} (filled : lines ≠ [])
    (silent : ∀ line ∈ lines, opensFunction line = false) (flat : ∀ line ∈ lines, '\n' ∉ line)
    (rest : Text) :
    headersFrom 0 true (join ['\n'] lines ++ '\x7d' :: '\n' :: rest) = headersFrom 0 true rest := by
  induction lines with
  | nil => exact absurd rfl filled
  | cons line lines ih =>
    have here := silent line (by simp)
    have later := fun l member => silent l (List.mem_cons_of_mem line member)
    have flatHere := flat line (by simp)
    rw [join_lines_brace]
    split
    · rw [headersFrom_of_header?_eq_none (header?_line here (.inr rfl) (mute_brace _))]
      have flatBrace : '\n' ∉ line ++ ['\x7d'] := by simp [flatHere]
      simpa using headersFrom_line flatBrace rest
    · rename_i more
      -- a header could only begin here and go on behind the line, which the lines behind rule out
      have none := header?_line here (.inl rfl) (mute_lineEnd (mute_lines later ('\n' :: rest)))
      rw [headersFrom_of_header?_eq_none none, headersFrom_line flatHere]
      exact ih more later fun l member => flat l (List.mem_cons_of_mem line member)

/-- A body without a line that opens a function holds no header. -/
theorem headersFrom_body {body : Text}
    (silent : ∀ line ∈ splitOn '\n' body, opensFunction line = false) (rest : Text) :
    headersFrom 0 true (body ++ '\x7d' :: '\n' :: rest) = headersFrom 0 true rest := by
  have flat : ∀ line ∈ splitOn '\n' body, '\n' ∉ line := fun line member =>
    not_mem_of_mem_splitWhere (p := (· == '\n')) rfl member
  have filled : splitOn '\n' body ≠ [] := splitWhere_ne_nil _ body
  have none := headersFrom_lines filled silent flat rest
  rwa [join_splitOn] at none

end TestSkeleton.V
