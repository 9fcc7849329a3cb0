import PipelineShell.Token

namespace PipelineShell

/-! ## Kinds of characters -/

theorem Operator.eq_char_of_ofChar? {c : Char} {op : Operator} (h : ofChar? c = some op) :
    c = op.char := by
  unfold ofChar? at h
  split at h <;> cases h <;> rfl

theorem QuoteMark.eq_char_of_ofChar? {c : Char} {mark : QuoteMark} (h : ofChar? c = some mark) :
    c = mark.char := by
  unfold ofChar? at h
  split at h <;> cases h <;> rfl

@[simp] theorem isBlank_operator (op : Operator) : isBlank op.char = false := by
  cases op <;> rfl

@[simp] theorem isBlank_quoteMark (mark : QuoteMark) : isBlank mark.char = false := by
  cases mark <;> rfl

@[simp] theorem Operator.ofChar?_quoteMark (mark : QuoteMark) :
    Operator.ofChar? mark.char = none := by
  cases mark <;> rfl

@[simp] theorem isWordChar_operator (op : Operator) : isWordChar op.char = false := by
  simp [isWordChar]

@[simp] theorem isWordChar_quoteMark (mark : QuoteMark) : isWordChar mark.char = false := by
  simp [isWordChar]

theorem isWordChar_iff {c : Char} : isWordChar c = true ↔
    isBlank c = false ∧ Operator.ofChar? c = none ∧ QuoteMark.ofChar? c = none := by
  simp [isWordChar, and_assoc]

namespace Token

/-! ## Spellings -/

/-- A text that no word runs on into. -/
def EndsWord (text : Word) : Prop := ∀ c ∈ text.head?, isWordChar c = false

inductive Spells : List Token → Word → Prop
  | nil : Spells [] []
  | blank {c : Char} {tokens : List Token} {text : Word} (blank : isBlank c = true)
    (rest : Spells tokens text) : Spells tokens (c :: text)
  | operator (op : Operator) {tokens : List Token} {text : Word} (rest : Spells tokens text) :
    Spells (operator op :: tokens) (op.char :: text)
  | quoted (mark : QuoteMark) {body : Word} {tokens : List Token} {text : Word}
    (free : mark.char ∉ body) (rest : Spells tokens text) :
    Spells (quoted mark body :: tokens) (mark.char :: (body ++ mark.char :: text))
  | word {word : Word} {tokens : List Token} {text : Word} (nonempty : word ≠ [])
    (plain : ∀ c ∈ word, isWordChar c = true) (ends : EndsWord text)
    (rest : Spells tokens text) : Spells (.word word :: tokens) (word ++ text)

/-! ## Cutting, one token at a time -/

theorem splitAt?_append {c : Char} {body : Word} (free : c ∉ body) (after : Word) :
    splitAt? c (body ++ c :: after) = some (body, after) := by
  induction body with
  | nil => simp [splitAt?]
  | cons d body ih =>
    obtain ⟨other, free⟩ := not_or.1 (mt List.mem_cons.2 free)
    simp [splitAt?, Ne.symm other, ih free]

@[simp] theorem scan_nil : scan [] = some [] := by
  rw [scan]

theorem scan_blank {c : Char} (blank : isBlank c = true) (rest : Word) :
    scan (c :: rest) = scan rest := by
  rw [scan, if_pos blank]

theorem scan_operator (op : Operator) (rest : Word) :
    scan (op.char :: rest) = (scan rest).map (operator op :: ·) := by
  rw [scan]
  simp

theorem scan_quoted (mark : QuoteMark) {body : Word} (free : mark.char ∉ body) (rest : Word) :
    scan (mark.char :: (body ++ mark.char :: rest)) = (scan rest).map (quoted mark body :: ·) := by
  rw [scan]
  simp only [isBlank_quoteMark, Bool.false_eq_true, if_false, Operator.ofChar?_quoteMark,
    QuoteMark.ofChar?_char]
  split
  · next found =>
    rw [splitAt?_append free] at found
    cases found
    rfl
  · next missing =>
    rw [splitAt?_append free] at missing
    cases missing

theorem scan_wordChar {c : Char} (plain : isWordChar c = true) (rest : Word) :
    scan (c :: rest) = (scan (rest.dropWhile isWordChar)).map
      (word (c :: rest.takeWhile isWordChar) :: ·) := by
  obtain ⟨blank, notOperator, notMark⟩ := isWordChar_iff.1 plain
  rw [scan]
  simp [blank, notOperator, notMark]

theorem span_of_endsWord {text rest : Word} (plain : ∀ c ∈ text, isWordChar c = true)
    (ends : EndsWord rest) : (text ++ rest).takeWhile isWordChar = text ∧
      (text ++ rest).dropWhile isWordChar = rest := by
  rw [List.takeWhile_append_of_pos plain, List.dropWhile_append_of_pos plain]
  cases rest with
  | nil => simp
  | cons c rest =>
    have stops : isWordChar c = false := ends c rfl
    simp [stops]

theorem scan_word {text rest : Word} (nonempty : text ≠ [])
    (plain : ∀ c ∈ text, isWordChar c = true) (ends : EndsWord rest) :
    scan (text ++ rest) = (scan rest).map (word text :: ·) := by
  obtain ⟨c, others, rfl⟩ := List.exists_cons_of_ne_nil nonempty
  obtain ⟨first, plain⟩ := List.forall_mem_cons.1 plain
  obtain ⟨taken, left⟩ := span_of_endsWord plain ends
  rw [List.cons_append, scan_wordChar first, taken, left]

/-! ## Cutting is the inverse of spelling -/

theorem Spells.scan_eq {tokens : List Token} {text : Word} (spells : Spells tokens text) :
    scan text = some tokens := by
  induction spells with
  | nil => exact scan_nil
  | blank blank _ ih => rw [scan_blank blank, ih]
  | operator op _ ih => rw [scan_operator, ih, Option.map_some]
  | quoted mark free _ ih => rw [scan_quoted mark free, ih, Option.map_some]
  | word nonempty plain ends _ ih => rw [scan_word nonempty plain ends, ih, Option.map_some]

theorem endsWord_dropWhile (text : Word) : EndsWord (text.dropWhile isWordChar) := by
  intro c member
  have := List.head?_dropWhile_not isWordChar text
  rw [Option.mem_def.1 member] at this
  simpa using this

theorem spells_of_scan {text : Word} {tokens : List Token} (scanned : scan text = some tokens) :
    Spells tokens text := by
  fun_induction scan text generalizing tokens with
  | case1 =>
    cases scanned
    exact .nil
  | case2 c rest blank ih => exact .blank blank (ih scanned)
  | case3 c rest _ op found ih =>
    obtain ⟨others, later, rfl⟩ := Option.map_eq_some_iff.1 scanned
    rw [Operator.eq_char_of_ofChar? found]
    exact .operator op (ih later)
  | case4 c rest _ mark found _ body after split ih =>
    obtain ⟨others, later, rfl⟩ := Option.map_eq_some_iff.1 scanned
    obtain ⟨rfl, free⟩ := splitAt?_eq_some split
    rw [QuoteMark.eq_char_of_ofChar? found] at free ⊢
    exact .quoted mark free (ih later)
  | case5 => cases scanned
  | case6 c rest blank notMark notOperator ih =>
    obtain ⟨others, later, rfl⟩ := Option.map_eq_some_iff.1 scanned
    have first : isWordChar c = true := isWordChar_iff.2 ⟨by simpa using blank, notOperator, notMark⟩
    have plain : ∀ d ∈ c :: rest.takeWhile isWordChar, isWordChar d = true :=
      List.forall_mem_cons.2 ⟨first, List.all_eq_true.1 List.all_takeWhile⟩
    have spelled := Spells.word (List.cons_ne_nil _ _) plain (endsWord_dropWhile rest) (ih later)
    rwa [List.cons_append, List.takeWhile_append_dropWhile] at spelled

/-- A text is cut into the tokens that it spells, and not cut at all if it spells none. -/
theorem scan_eq_some_iff {text : Word} {tokens : List Token} :
    scan text = some tokens ↔ Spells tokens text :=
  ⟨spells_of_scan, Spells.scan_eq⟩

def IsProper : Token → Prop
  | word text => text ≠ [] ∧ ∀ c ∈ text, isWordChar c = true
  | quoted mark body => mark.char ∉ body
  | operator _ => True

theorem exists_spells {tokens : List Token} (proper : ∀ token ∈ tokens, token.IsProper) :
    ∃ text, Spells tokens text := by
  induction tokens with
  | nil => exact ⟨[], .nil⟩
  | cons token tokens ih =>
    obtain ⟨first, proper⟩ := List.forall_mem_cons.1 proper
    obtain ⟨text, spells⟩ := ih proper
    cases token with
    | word word =>
      have ends : EndsWord (' ' :: text) := by
        rintro _ ⟨⟩
        rfl
      exact ⟨_, .word first.1 first.2 ends (.blank rfl spells)⟩
    | quoted mark body => exact ⟨_, .quoted mark first spells⟩
    | operator op => exact ⟨_, .operator op spells⟩

namespace Spells

theorem proper {tokens : List Token} {text : Word} (spells : Spells tokens text) :
    ∀ token ∈ tokens, token.IsProper := by
  induction spells with
  | nil => exact nofun
  | blank _ _ ih => exact ih
  | operator op _ ih => exact List.forall_mem_cons.2 ⟨trivial, ih⟩
  | quoted mark free _ ih => exact List.forall_mem_cons.2 ⟨free, ih⟩
  | word nonempty plain _ _ ih => exact List.forall_mem_cons.2 ⟨⟨nonempty, plain⟩, ih⟩

theorem text_ne_nil {tokens : List Token} {text : Word} (spells : Spells tokens text)
    (nonempty : tokens ≠ []) : text ≠ [] := by
  cases spells with
  | nil => exact absurd rfl nonempty
  | blank | operator | quoted => exact List.cons_ne_nil _ _
  | word filled => exact List.append_ne_nil_of_left_ne_nil filled _

theorem append {tokens tokens' : List Token} {text text' : Word} (spells : Spells tokens text)
    (spells' : Spells tokens' text')
    (seam : ∀ last, tokens.getLast? = some (.word last) → EndsWord text') :
    Spells (tokens ++ tokens') (text ++ text') := by
  induction spells with
  | nil => exact spells'
  | blank blank _ ih => exact .blank blank (ih seam)
  | operator op _ ih =>
    exact .operator op (ih fun last found => seam last (by simp [List.getLast?_cons, found]))
  | @quoted mark body tokens text free _ ih =>
    have later := ih fun last found => seam last (by simp [List.getLast?_cons, found])
    simpa using Spells.quoted mark free later
  | @word word tokens text nonempty plain ends rest ih =>
    have later := ih fun last found => seam last (by simp [List.getLast?_cons, found])
    rw [List.append_assoc]
    refine .word nonempty plain ?_ later
    cases text with
    | cons c text => exact ends
    | nil =>
      have noTokens : tokens = [] := Decidable.by_contra fun some => rest.text_ne_nil some rfl
      exact seam word (by simp [noTokens])

end Spells

end Token

end PipelineShell
