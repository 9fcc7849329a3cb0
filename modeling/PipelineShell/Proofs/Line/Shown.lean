import PipelineShell.Proofs.Line.Writing

namespace PipelineShell

open Grammar Token

def Word.IsPlain (word : Word) : Prop := word ≠ [] ∧ ∀ c ∈ word, isWordChar c = true

instance : DecidablePred Word.IsPlain := fun word =>
  decidable_of_iff (word ≠ [] ∧ word.all isWordChar = true) (by rw [Word.IsPlain, List.all_eq_true])

namespace Statement

/-- Every stage has an argument, no word needs quotation marks, and the first argument is not the
word that leaves. -/
structure IsPlain (statement : Statement) : Prop where
  filled : ∀ stage ∈ statement.pipeline.stages, stage.args ≠ []
  plain : ∀ word ∈ statement.words, Word.IsPlain word
  notExit : statement.pipeline.stages.head?.bind Stage.program? ≠ some "exit".toList

def openText (statement : Statement) : Word :=
  statement.pipeline.text ++ redirectionText .less statement.input ++
    redirectionText .greater statement.output

/-- The text of a statement, with a semicolon unless it ends in an ampersand. -/
def closedText (statement : Statement) : Word :=
  statement.text ++ if statement.background then [] else [';']

theorem head?_words {statement : Statement}
    (filled : ∀ stage ∈ statement.pipeline.stages, stage.args ≠ []) :
    statement.words.head? = statement.pipeline.stages.head?.bind Stage.program? := by
  obtain ⟨first, others, stages⟩ : ∃ first others,
      statement.pipeline.stages = first :: others :=
    List.exists_cons_of_ne_nil (by simp [Pipeline.stages])
  rw [words, stages]
  obtain ⟨program, args, found⟩ := List.exists_cons_of_ne_nil (filled first (by simp [stages]))
  simp [Stage.program?, found]

def plainDraft (statement : Statement) : Draft := .ofStatement .word statement

theorem IsPlain.isReadable {statement : Statement} (plain : statement.IsPlain) :
    statement.plainDraft.IsReadable := by
  refine ⟨fun operands member => ?_, fun starts => ?_⟩
  · rw [plainDraft, Draft.stages_ofStatement] at member
    obtain ⟨stage, inPipeline, rfl⟩ := List.mem_map.1 member
    simpa using plain.filled stage inPipeline
  · rw [plainDraft, Draft.operands_ofStatement, List.head?_map, head?_words plain.filled] at starts
    obtain ⟨program, found, same⟩ := Option.map_eq_some_iff.1 starts
    cases same
    exact plain.notExit found

end Statement

section

variable {tokens : List Token} {tail : Word}

theorem endsWord_cons {c : Char} (other : isWordChar c = false) (text : Word) :
    EndsWord (c :: text) := by
  rintro _ ⟨⟩
  exact other

theorem itemTokens_words (args : List Word) :
    itemTokens (arguments (args.map .word)) = args.map .word := by
  simp [itemTokens, arguments, List.flatMap_map, Item.tokens, Operand.token, ← List.map_eq_flatMap]

theorem itemTokens_append (first second : List Item) :
    itemTokens (first ++ second) = itemTokens first ++ itemTokens second :=
  List.flatMap_append

theorem text_cons (stage : Stage) (earlier : List Stage) (last : Stage) :
    Pipeline.text ⟨stage :: earlier, last⟩ =
      stage.text ++ ([' ', '|', ' '] ++ Pipeline.text ⟨earlier, last⟩) := by
  have others : (earlier ++ [last]).map Stage.text ≠ [] := by simp
  rw [Pipeline.text, Pipeline.stages, List.cons_append, List.map_cons,
    List.intercalate_cons_of_ne_nil others, List.append_assoc]
  rfl

theorem spells_words {args : List Word} (filled : args ≠ []) (plain : ∀ word ∈ args, word.IsPlain)
    (ends : EndsWord tail) (rest : Spells tokens tail) :
    Spells (args.map .word ++ tokens) ([' '].intercalate args ++ tail) := by
  induction args with
  | nil => exact absurd rfl filled
  | cons word args ih =>
    obtain ⟨⟨nonempty, chars⟩, plain⟩ := List.forall_mem_cons.1 plain
    cases args with
    | nil => simpa using Spells.word nonempty chars ends rest
    | cons next args =>
      have later := ih (List.cons_ne_nil _ _) plain
      have spaced := Spells.word nonempty chars (endsWord_cons rfl _) (.blank (c := ' ') rfl later)
      simpa [List.intercalate_cons_cons] using spaced

theorem spells_pipeline {earlier : List Stage} {last : Stage}
    (filled : ∀ stage ∈ earlier ++ [last], stage.args ≠ [])
    (plain : ∀ stage ∈ earlier ++ [last], ∀ word ∈ stage.args, word.IsPlain)
    (ends : EndsWord tail) (rest : Spells tokens tail) :
    Spells (earlier.flatMap (fun stage => stage.args.map .word ++ [.operator .pipe]) ++
        (last.args.map .word ++ tokens))
      (Pipeline.text ⟨earlier, last⟩ ++ tail) := by
  induction earlier with
  | nil =>
    have words := spells_words (filled last (.head _)) (plain last (.head _)) ends rest
    simpa [Pipeline.text, Pipeline.stages, Stage.text] using words
  | cons stage earlier ih =>
    obtain ⟨first, filled⟩ := List.forall_mem_cons.1 filled
    obtain ⟨words, plain⟩ := List.forall_mem_cons.1 plain
    have barred := spells_words first words (endsWord_cons rfl _)
      (.blank (c := ' ') rfl (.operator .pipe (.blank (c := ' ') rfl (ih filled plain))))
    simpa [text_cons, Stage.text, Operator.char] using barred

theorem endsWord_redirectionText (op : Operator) (path : Option Word) (ends : EndsWord tail) :
    EndsWord (Statement.redirectionText op path ++ tail) := by
  cases path with
  | none => exact ends
  | some path => exact endsWord_cons rfl _

theorem spells_redirection (direction : Direction) {path : Option Word}
    (plain : ∀ word ∈ path, word.IsPlain) (ends : EndsWord tail) (rest : Spells tokens tail) :
    Spells (itemTokens ((path.map Operand.word).toList.map (.redirection direction)) ++ tokens)
      (Statement.redirectionText direction.operator path ++ tail) := by
  cases path with
  | none => exact rest
  | some path =>
    obtain ⟨nonempty, chars⟩ := plain path rfl
    have target := Spells.word nonempty chars ends rest
    have redirected := Spells.blank (c := ' ') rfl
      (.operator direction.operator (.blank (c := ' ') rfl target))
    simpa [itemTokens, Item.tokens, Operand.token, Statement.redirectionText] using redirected

end

namespace Statement

variable {statement : Statement} {tokens : List Token} {tail : Word}

theorem IsPlain.spells_open (plain : statement.IsPlain) (ends : EndsWord tail)
    (rest : Spells tokens tail) :
    Spells (statement.plainDraft.tokens ++ tokens) (statement.openText ++ tail) := by
  obtain ⟨filled, words, -⟩ := plain
  obtain ⟨⟨earlier, last⟩, input, output, background⟩ := statement
  have inStages : ∀ stage ∈ earlier ++ [last], ∀ word ∈ stage.args, word.IsPlain := by
    intro stage inPipeline word member
    refine words word (List.mem_append_left _ (List.mem_append_left _ ?_))
    exact List.mem_flatMap.2 ⟨stage, inPipeline, member⟩
  have inInput : ∀ word ∈ input, word.IsPlain := by
    intro word member
    exact words word (List.mem_append_left _ (List.mem_append_right _ (Option.mem_toList.2 member)))
  have inOutput : ∀ word ∈ output, word.IsPlain := by
    intro word member
    exact words word (List.mem_append_right _ (Option.mem_toList.2 member))
  have redirected := spells_redirection .input inInput
    (endsWord_redirectionText .greater output ends)
    (spells_redirection .output inOutput ends rest)
  have whole := spells_pipeline filled inStages
    (endsWord_redirectionText .less input (endsWord_redirectionText .greater output ends)) redirected
  simpa [plainDraft, Draft.ofStatement, Draft.tokens, Draft.redirections, itemTokens_words,
    itemTokens_append, List.flatMap_map, openText] using whole

theorem IsPlain.spells_closed (plain : statement.IsPlain) (rest : Spells tokens tail) :
    Spells (statement.plainDraft.terminated ++ tokens) (statement.closedText ++ tail) := by
  cases background : statement.background with
  | false =>
    have closed := plain.spells_open (endsWord_cons rfl tail) (.operator .semicolon rest)
    simpa [closedText, text, openText, background, Draft.terminated, Draft.terminator, plainDraft,
      Draft.ofStatement, Terminator.operator, Operator.char] using closed
  | true =>
    have closed := plain.spells_open (endsWord_cons rfl _)
      (.blank (c := ' ') rfl (.operator .ampersand rest))
    simpa [closedText, text, openText, background, Draft.terminated, Draft.terminator, plainDraft,
      Draft.ofStatement, Terminator.operator, Operator.char] using closed

theorem spells_closedTexts {statements : List Statement}
    (plain : ∀ statement ∈ statements, statement.IsPlain) (rest : Spells tokens tail) :
    Spells ((statements.map plainDraft).flatMap Draft.terminated ++ tokens)
      (statements.flatMap closedText ++ tail) := by
  induction statements with
  | nil => exact rest
  | cons statement statements ih =>
    obtain ⟨first, plain⟩ := List.forall_mem_cons.1 plain
    simpa using first.spells_closed (ih plain)

theorem map_plainDraft (statements : List Statement) :
    (statements.map plainDraft).map Draft.statement = statements := by
  have same (statement : Statement) : statement.plainDraft.statement = statement :=
    Draft.statement_ofStatement (fun _ => rfl) statement
  simp [Function.comp_def, same]

theorem forall_isReadable {statements : List Statement}
    (plain : ∀ statement ∈ statements, statement.IsPlain) :
    ∀ draft ∈ statements.map plainDraft, draft.IsReadable := by
  intro draft member
  obtain ⟨statement, inList, rfl⟩ := List.mem_map.1 member
  exact (plain statement inList).isReadable

end Statement

open Statement

/-- Statements whose words need no quotation marks are read back from the texts that they are shown
with; the last one may do without its semicolon. -/
theorem reads_what_is_shown {statements : List Statement}
    (plain : ∀ statement ∈ statements, statement.IsPlain) :
    Line.parse {} (statements.flatMap closedText) = ⟨⟨statements, {}⟩, none⟩ ∧
      ∀ front last, statements = front ++ [last] →
        Line.parse {} (front.flatMap closedText ++ last.text) = ⟨⟨statements, {}⟩, none⟩ := by
  have closed : Line.parse {} (statements.flatMap closedText) = ⟨⟨statements, {}⟩, none⟩ := by
    have spells := spells_closedTexts plain .nil
    have reads := Site.read_drafts [] {} (forall_isReadable plain) []
    rw [List.append_nil, List.append_nil] at spells
    rw [List.append_nil, map_plainDraft, Site.read_nil] at reads
    rw [parse_of_scan {} spells.scan_eq, reads]
    simp [Site.line]
  refine ⟨closed, ?_⟩
  rintro front last rfl
  cases background : last.background with
  | true => simpa [closedText, background] using closed
  | false =>
    obtain ⟨plain_front, plain_last⟩ := List.forall_mem_append.1 plain
    have isPlain : last.IsPlain := plain_last last (.head _)
    have shown : last.openText = last.text := by simp [openText, Statement.text, background]
    have ends : Token.EndsWord [] := by simp [EndsWord]
    have spells := spells_closedTexts plain_front (isPlain.spells_open ends .nil)
    rw [List.append_nil, List.append_nil, shown] at spells
    have reads := Site.read_draft front {} isPlain.isReadable []
    have same : { last.plainDraft.statement with background := false } = last := by
      rw [plainDraft, Draft.statement_ofStatement fun _ => rfl, ← background]
    have full : Site.lacks ⟨front, some last, {}⟩ = false := by
      simpa [Site.lacks, Stage.isEmpty] using
        isPlain.filled last.pipeline.last (by simp [Pipeline.stages])
    rw [List.append_nil, same, Site.read_nil, full] at reads
    rw [parse_of_scan {} spells.scan_eq, Site.read_drafts _ _ (forall_isReadable plain_front),
      map_plainDraft]
    exact reads

theorem reads_what_is_shown_two :
    let first : Statement :=
      { pipeline := ⟨[⟨["a".toList, "exit".toList]⟩], ⟨["é".toList]⟩⟩, input := some "i".toList
        output := some "o".toList, background := true }
    let second : Statement := { pipeline := ⟨[], ⟨["b".toList]⟩⟩, output := some "exit".toList }
    first.IsPlain ∧ second.IsPlain ∧
      Line.parse {} "a exit | é < i > o &b > exit;".toList = ⟨⟨[first, second], {}⟩, none⟩ ∧
      Line.parse {} "a exit | é < i > o &b > exit".toList = ⟨⟨[first, second], {}⟩, none⟩ := by
  intro first second
  have plain_first : first.IsPlain := ⟨by decide, by decide, by decide⟩
  have plain_second : second.IsPlain := ⟨by decide, by decide, by decide⟩
  have plain : ∀ statement ∈ [first, second], statement.IsPlain := by
    simp [plain_first, plain_second]
  have reads := reads_what_is_shown plain
  exact ⟨plain_first, plain_second, reads.1, reads.2 [first] second rfl⟩

end PipelineShell
