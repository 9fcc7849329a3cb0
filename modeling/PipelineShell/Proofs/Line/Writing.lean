import PipelineShell.Proofs.Line.Acceptance
import PipelineShell.Proofs.Line.Spelling

namespace PipelineShell

def Statement.words (statement : Statement) : List Word :=
  statement.pipeline.stages.flatMap Stage.args ++ statement.input.toList ++
    statement.output.toList

/-- Every stage has an argument, and every argument and path lacks one of the two quotation marks. -/
structure Statement.IsExpressible (statement : Statement) : Prop where
  filled : ∀ stage ∈ statement.pipeline.stages, stage.args ≠ []
  quotable : ∀ word ∈ statement.words, ∃ mark : QuoteMark, mark.char ∉ word

namespace Grammar

/-! ## Drafts -/

structure Draft where
  earlier : List (List Operand) := []
  last : List Operand
  input : Option Operand := none
  output : Option Operand := none
  background : Bool := false

def arguments (operands : List Operand) : List Item := operands.map .argument

def meant (operands : List Operand) : Stage := ⟨operands.map Operand.value⟩

namespace Draft

def stages (draft : Draft) : List (List Operand) := draft.earlier ++ [draft.last]

def operands (draft : Draft) : List Operand :=
  draft.stages.flatten ++ draft.input.toList ++ draft.output.toList

def redirections (draft : Draft) : List Item :=
  draft.input.toList.map (.redirection .input) ++ draft.output.toList.map (.redirection .output)

def tokens (draft : Draft) : List Token :=
  draft.earlier.flatMap (fun operands => itemTokens (arguments operands) ++ [.operator .pipe]) ++
    itemTokens (arguments draft.last ++ draft.redirections)

def terminator (draft : Draft) : Terminator :=
  if draft.background then .ampersand else .semicolon

def terminated (draft : Draft) : List Token :=
  draft.tokens ++ [.operator draft.terminator.operator]

def statement (draft : Draft) : Statement where
  pipeline := ⟨draft.earlier.map meant, meant draft.last⟩
  input := draft.input.map Operand.value
  output := draft.output.map Operand.value
  background := draft.background

structure IsReadable (draft : Draft) : Prop where
  filled : ∀ operands ∈ draft.stages, operands ≠ []
  notExit : draft.operands.head? ≠ some exitWord

def ofStatement (write : Word → Operand) (statement : Statement) : Draft where
  earlier := statement.pipeline.earlier.map (·.args.map write)
  last := statement.pipeline.last.args.map write
  input := statement.input.map write
  output := statement.output.map write
  background := statement.background

section

variable {write : Word → Operand}

theorem stages_ofStatement (statement : Statement) :
    (ofStatement write statement).stages = statement.pipeline.stages.map (·.args.map write) := by
  simp [ofStatement, stages, Pipeline.stages]

theorem operands_ofStatement (statement : Statement) :
    (ofStatement write statement).operands = statement.words.map write := by
  have path (path : Option Word) : (path.map write).toList = path.toList.map write := by
    cases path <;> rfl
  rw [operands, stages_ofStatement]
  simp [Statement.words, ofStatement, path, List.flatMap, List.map_flatten, Function.comp_def]

theorem statement_ofStatement (faithful : ∀ word, (write word).value = word)
    (statement : Statement) : (ofStatement write statement).statement = statement := by
  obtain ⟨⟨earlier, last⟩, input, output, background⟩ := statement
  simp [ofStatement, Draft.statement, meant, Function.comp_def, faithful]

end

end Draft

/-! ## Drafts are read as what they mean -/

@[simp] theorem argument?_arguments (operands : List Operand) :
    (arguments operands).filterMap Item.argument? = operands.map Operand.value := by
  simp [arguments, List.filterMap_map, Function.comp_def, Item.argument?]

@[simp] theorem target?_arguments (direction : Direction) (operands : List Operand) :
    (arguments operands).filterMap (Item.target? direction) = [] := by
  simp [arguments, List.filterMap_map, Function.comp_def, Item.target?]

theorem any_isArgument_arguments {operands : List Operand} (filled : operands ≠ []) :
    (arguments operands).any Item.isArgument = true := by
  obtain ⟨first, others, rfl⟩ := List.exists_cons_of_ne_nil filled
  rfl

namespace Draft

theorem IsReadable.exists_first {draft : Draft} (readable : draft.IsReadable) :
    ∃ first others, first ≠ exitWord ∧ draft.tokens = (Item.argument first).tokens ++ others := by
  obtain ⟨filled, notExit⟩ := readable
  obtain ⟨earlier, last, input, output, background⟩ := draft
  cases earlier with
  | nil =>
    obtain ⟨first, others, rfl⟩ := List.exists_cons_of_ne_nil (filled last (by simp [stages]))
    exact ⟨first, _, by simpa [operands, stages] using notExit, rfl⟩
  | cons stage earlier =>
    obtain ⟨first, others, rfl⟩ := List.exists_cons_of_ne_nil (filled stage (by simp [stages]))
    exact ⟨first, _, by simpa [operands, stages] using notExit, rfl⟩

theorem argument?_redirections (draft : Draft) :
    draft.redirections.filterMap Item.argument? = [] := by
  cases input : draft.input <;> cases output : draft.output <;>
    simp [redirections, input, output, Item.argument?]

theorem target?_redirections_input (draft : Draft) :
    draft.redirections.filterMap (Item.target? .input) =
      (draft.input.map Operand.value).toList := by
  cases input : draft.input <;> cases output : draft.output <;>
    simp [redirections, input, output, Item.target?]

theorem target?_redirections_output (draft : Draft) :
    draft.redirections.filterMap (Item.target? .output) =
      (draft.output.map Operand.value).toList := by
  cases input : draft.input <;> cases output : draft.output <;>
    simp [redirections, input, output, Item.target?]

theorem foldl_addItem_last (draft : Draft) (earlier : List Stage) :
    (arguments draft.last ++ draft.redirections).foldl addItem { pipeline := ⟨earlier, {}⟩ } =
      { pipeline := ⟨earlier, meant draft.last⟩
        input := draft.input.map Operand.value
        output := draft.output.map Operand.value } := by
  rw [foldl_addItem]
  simp [lastTarget, argument?_redirections, target?_redirections_input,
    target?_redirections_output, meant]
  cases draft.input <;> cases draft.output <;> simp

end Draft

namespace Site

theorem read_opening (closed : List Statement) (flags : Flags) (item : Item) (rest : List Token)
    (start : item ≠ .argument exitWord) :
    read ⟨closed, none, flags⟩ (item.tokens ++ rest) =
      read ⟨closed, some {}, flags⟩ (item.tokens ++ rest) := by
  rw [read_item _ _ _ fun _ => start, read_item ⟨closed, some {}, flags⟩ _ _ nofun]
  rfl

theorem read_earlier (closed : List Statement) (flags : Flags) (stages : List (List Operand))
    (filled : ∀ operands ∈ stages, operands ≠ []) (earlier : List Stage) (rest : List Token) :
    read ⟨closed, some { pipeline := ⟨earlier, {}⟩ }, flags⟩
        (stages.flatMap (fun operands => itemTokens (arguments operands) ++ [.operator .pipe]) ++
          rest) =
      read ⟨closed, some { pipeline := ⟨earlier ++ stages.map meant, {}⟩ }, flags⟩ rest := by
  induction stages generalizing earlier with
  | nil => simp
  | cons operands stages ih =>
    obtain ⟨first, filled⟩ := List.forall_mem_cons.1 filled
    have added : (arguments operands).foldl add
        ⟨closed, some { pipeline := ⟨earlier, {}⟩ }, flags⟩ =
        ⟨closed, some { pipeline := ⟨earlier, meant operands⟩ }, flags⟩ := by
      rw [addAll_some, foldl_addItem]
      simp [lastTarget, meant]
    have full : lacks ⟨closed, some { pipeline := ⟨earlier, meant operands⟩ }, flags⟩ = false := by
      rw [← added, lacks_addAll, any_isArgument_arguments first, Bool.not_true, Bool.and_false]
    rw [List.flatMap_cons, List.append_assoc, List.append_assoc, read_items _ _ _ (fun h => by cases h), added,
      List.singleton_append, read_bar, full, if_neg Bool.false_ne_true]
    have later := ih filled (earlier ++ [meant operands])
    simpa [extend, Pipeline.extend, Pipeline.stages] using later

theorem read_draft (closed : List Statement) (flags : Flags) {draft : Draft}
    (readable : draft.IsReadable) (rest : List Token) :
    read ⟨closed, none, flags⟩ (draft.tokens ++ rest) =
      read ⟨closed, some { draft.statement with background := false }, flags⟩ rest := by
  obtain ⟨first, others, notExit, starts⟩ := readable.exists_first
  have opens : read ⟨closed, none, flags⟩ (draft.tokens ++ rest) =
      read ⟨closed, some { pipeline := ⟨[], {}⟩ }, flags⟩ (draft.tokens ++ rest) := by
    rw [starts, List.append_assoc]
    exact read_opening closed flags (.argument first) _ (by simpa using notExit)
  have filled : ∀ operands ∈ draft.earlier, operands ≠ [] := fun operands member =>
    readable.filled operands (List.mem_append_left _ member)
  rw [opens, Draft.tokens, List.append_assoc, read_earlier _ _ _ filled,
    read_items _ _ _ (fun h => by cases h), addAll_some, List.nil_append, Draft.foldl_addItem_last]
  rfl

theorem read_terminated_draft (closed : List Statement) (flags : Flags) {draft : Draft}
    (readable : draft.IsReadable) (rest : List Token) :
    read ⟨closed, none, flags⟩ (draft.terminated ++ rest) =
      read ⟨closed ++ [draft.statement], none, flags⟩ rest := by
  have full : lacks ⟨closed, some { draft.statement with background := false }, flags⟩ = false := by
    simpa [lacks, Draft.statement, meant, Stage.isEmpty] using
      readable.filled draft.last (by simp [Draft.stages])
  rw [Draft.terminated, List.append_assoc, read_draft closed flags readable, List.singleton_append,
    read_terminator, full, if_neg Bool.false_ne_true, Draft.terminator]
  cases background : draft.background <;> simp [close, Draft.statement, background]

theorem read_drafts (closed : List Statement) (flags : Flags) {drafts : List Draft}
    (readable : ∀ draft ∈ drafts, draft.IsReadable) (rest : List Token) :
    read ⟨closed, none, flags⟩ (drafts.flatMap Draft.terminated ++ rest) =
      read ⟨closed ++ drafts.map Draft.statement, none, flags⟩ rest := by
  induction drafts generalizing closed with
  | nil => simp
  | cons draft drafts ih =>
    obtain ⟨first, readable⟩ := List.forall_mem_cons.1 readable
    rw [List.flatMap_cons, List.append_assoc, read_terminated_draft closed flags first, ih _ readable]
    simp

end Site

/-! ## Quotations -/

/-- A quotation in marks that the word does not hold. -/
def Operand.IsQuotation : Operand → Prop
  | word _ => False
  | quoted mark body => mark.char ∉ body

instance : DecidablePred Operand.IsQuotation
  | .word _ => inferInstanceAs (Decidable False)
  | .quoted mark body => inferInstanceAs (Decidable (mark.char ∉ body))

def Quotes (text : Word) (statements : List Statement) : Prop :=
  ∃ drafts : List Draft, drafts.map Draft.statement = statements ∧
    (∀ draft ∈ drafts, ∀ operand ∈ draft.operands, operand.IsQuotation) ∧
    Token.Spells (drafts.flatMap Draft.terminated) text

namespace Draft

theorem stages_statement (draft : Draft) :
    draft.statement.pipeline.stages = draft.stages.map meant := by
  simp [statement, Pipeline.stages, stages]

theorem isReadable_of_quotations {draft : Draft}
    (filled : ∀ stage ∈ draft.statement.pipeline.stages, stage.args ≠ [])
    (quotations : ∀ operand ∈ draft.operands, operand.IsQuotation) : draft.IsReadable := by
  refine ⟨fun operands member => ?_, fun starts => ?_⟩
  · have stage : meant operands ∈ draft.statement.pipeline.stages := by
      rw [stages_statement]
      exact List.mem_map_of_mem member
    simpa [meant] using filled _ stage
  · exact quotations _ (List.mem_of_mem_head? starts)

theorem mem_terminated {draft : Draft} {token : Token} (member : token ∈ draft.terminated) :
    (∃ operand ∈ draft.operands, token = operand.token) ∨ ∃ op, token = .operator op := by
  obtain ⟨earlier, last, input, output, background⟩ := draft
  cases input <;> cases output <;>
    simp [terminated, tokens, itemTokens, arguments, redirections, Item.tokens] at member <;>
    simp [operands, stages] <;> grind

end Draft

def markFor (word : Word) : QuoteMark :=
  if QuoteMark.single.char ∈ word then .double else .single

theorem markFor_not_mem {word : Word} (quotable : ∃ mark : QuoteMark, mark.char ∉ word) :
    (markFor word).char ∉ word := by
  unfold markFor
  split
  · next single =>
    obtain ⟨mark, free⟩ := quotable
    cases mark with
    | single => exact absurd single free
    | double => exact free
  · next free => exact free

theorem exists_quotes {statements : List Statement}
    (expressible : ∀ statement ∈ statements, statement.IsExpressible) :
    ∃ text, Quotes text statements := by
  let write (word : Word) : Operand := .quoted (markFor word) word
  let drafts := statements.map (Draft.ofStatement write)
  have quotations : ∀ draft ∈ drafts, ∀ operand ∈ draft.operands, operand.IsQuotation := by
    intro draft member operand inDraft
    obtain ⟨statement, inList, rfl⟩ := List.mem_map.1 member
    rw [Draft.operands_ofStatement] at inDraft
    obtain ⟨word, inStatement, rfl⟩ := List.mem_map.1 inDraft
    exact markFor_not_mem ((expressible statement inList).quotable word inStatement)
  have proper : ∀ token ∈ drafts.flatMap Draft.terminated, token.IsProper := by
    intro token member
    obtain ⟨draft, inDrafts, member⟩ := List.mem_flatMap.1 member
    rcases Draft.mem_terminated member with ⟨operand, inDraft, rfl⟩ | ⟨op, rfl⟩
    · have quotation := quotations draft inDrafts operand inDraft
      cases operand with
      | word word => exact quotation.elim
      | quoted mark body => exact quotation
    · trivial
  obtain ⟨text, spells⟩ := Token.exists_spells proper
  have same (statement : Statement) : (Draft.ofStatement write statement).statement = statement :=
    Draft.statement_ofStatement (fun _ => rfl) statement
  exact ⟨text, drafts, by simp [drafts, Function.comp_def, same], quotations, spells⟩

/-! ## What is read can be written in quotation marks -/

theorem quotable_of_isProper {operand : Operand} (proper : operand.token.IsProper) :
    ∃ mark : QuoteMark, mark.char ∉ operand.value := by
  cases operand with
  | quoted mark body => exact ⟨mark, proper⟩
  | word word =>
    refine ⟨.single, fun member => ?_⟩
    have plain := proper.2 _ member
    rw [isWordChar_quoteMark] at plain
    cases plain

theorem mem_tokens_of_mem_items {phrase : StatementPhrase} {item : Item} {token : Token}
    (member : item ∈ phrase.items) (inItem : token ∈ item.tokens) : token ∈ phrase.tokens := by
  have inStage {stage : StagePhrase} (member : item ∈ stage.items) : token ∈ stage.tokens :=
    List.mem_flatMap.2 ⟨item, member, inItem⟩
  obtain ⟨stage, inPhrase, member⟩ := List.mem_flatMap.1 member
  rw [StatementPhrase.tokens, List.mem_append]
  rcases List.mem_cons.1 inPhrase with rfl | later
  · exact .inl (inStage member)
  · exact .inr (List.mem_flatMap.2 ⟨stage, later, .tail _ (inStage member)⟩)

theorem exists_operand_of_mem_words {phrase : StatementPhrase} {background : Bool} {word : Word}
    (member : word ∈ (phrase.statement background).words) :
    ∃ operand : Operand, operand.value = word ∧ ∃ item ∈ phrase.items, operand.token ∈ item.tokens := by
  have path {direction : Direction} (found : word ∈ (lastTarget direction phrase.items).toList) :
      ∃ operand : Operand, operand.value = word ∧
        ∃ item ∈ phrase.items, operand.token ∈ item.tokens := by
    rw [Option.mem_toList] at found
    obtain ⟨item, inItems, target⟩ := List.mem_filterMap.1 (List.mem_of_getLast? found)
    cases item with
    | argument operand => cases target
    | redirection other operand =>
      simp only [Item.target?, Option.ite_none_right_eq_some, Option.some.injEq] at target
      exact ⟨operand, target.2, _, inItems, .tail _ (.head _)⟩
  rw [Statement.words, List.mem_append, List.mem_append] at member
  rcases member with (argument | input) | output
  · rw [StatementPhrase.statement, Pipeline.stages_ofStages, ← List.map_cons] at argument
    obtain ⟨stage, inStages, inStage⟩ := List.mem_flatMap.1 argument
    obtain ⟨stagePhrase, inPhrase, rfl⟩ := List.mem_map.1 inStages
    obtain ⟨item, inItems, isArgument⟩ := List.mem_filterMap.1 inStage
    cases item with
    | redirection direction target => cases isArgument
    | argument operand =>
      cases isArgument
      exact ⟨operand, rfl, _, List.mem_flatMap.2 ⟨stagePhrase, inPhrase, inItems⟩, .head _⟩
  · exact path input
  · exact path output

theorem isExpressible_statement {phrase : StatementPhrase}
    (proper : ∀ token ∈ phrase.tokens, token.IsProper) (background : Bool) :
    (phrase.statement background).IsExpressible := by
  refine ⟨fun stage member => ?_, fun word member => ?_⟩
  · rw [StatementPhrase.statement, Pipeline.stages_ofStages, ← List.map_cons] at member
    obtain ⟨stagePhrase, -, rfl⟩ := List.mem_map.1 member
    simpa [Stage.isEmpty] using isEmpty_stage stagePhrase
  · obtain ⟨operand, rfl, item, inItems, inItem⟩ := exists_operand_of_mem_words member
    exact quotable_of_isProper (proper _ (mem_tokens_of_mem_items inItems inItem))

theorem isExpressible_of_mem_statements {phrase : LinePhrase}
    (proper : ∀ token ∈ phrase.tokens, token.IsProper) {statement : Statement}
    (member : statement ∈ phrase.statements) : statement.IsExpressible := by
  rcases List.mem_append.1 member with terminated | ending
  · obtain ⟨⟨phrase', terminator⟩, inLine, rfl⟩ := List.mem_map.1 terminated
    refine isExpressible_statement (fun token inPhrase => proper token ?_) _
    exact List.mem_append_left _ (List.mem_flatMap.2 ⟨_, inLine, List.mem_append_left _ inPhrase⟩)
  · cases last : phrase.ending with
    | nothing | exit ignored => simp [last, Ending.statements] at ending
    | statement phrase' =>
      simp only [last, Ending.statements, List.mem_singleton] at ending
      subst ending
      refine isExpressible_statement (fun token inPhrase => proper token ?_) _
      exact List.mem_append_right _ (by simpa [last, Ending.tokens] using inPhrase)

theorem exists_phrase_of_parse {line : Line} {text : Word}
    (reads : (line.parse text).error? = none) :
    ∃ phrase : LinePhrase, Token.Spells phrase.tokens text ∧
      (line.parse text).line.statements = line.statements ++ phrase.statements := by
  cases scanned : Token.scan text with
  | none => simp [Line.parse, scanned] at reads
  | some tokens =>
    rw [parse_of_scan line scanned] at reads ⊢
    obtain ⟨phrase, rfl⟩ : IsLine tokens := Site.phrase_of_read _ _ reads
    exact ⟨phrase, Token.spells_of_scan scanned, by rw [Site.read_line]⟩

/-- The command language expresses the statements whose stages have arguments and whose arguments
and paths lack a quotation mark, and no others. -/
theorem expresses_exactly :
    (∀ statements : List Statement, (∀ statement ∈ statements, statement.IsExpressible) →
      (∃ text, Quotes text statements) ∧
        ∀ text, Quotes text statements → Line.parse {} text = ⟨⟨statements, {}⟩, none⟩) ∧
    ∀ (line : Line) (text : Word), (line.parse text).error? = none →
      ∃ appended, (line.parse text).line.statements = line.statements ++ appended ∧
        ∀ statement ∈ appended, statement.IsExpressible := by
  constructor
  · intro statements expressible
    refine ⟨exists_quotes expressible, ?_⟩
    rintro text ⟨drafts, rfl, quotations, spells⟩
    have readable : ∀ draft ∈ drafts, draft.IsReadable := fun draft member =>
      Draft.isReadable_of_quotations (expressible _ (List.mem_map_of_mem member)).filled
        (quotations draft member)
    have reads := Site.read_drafts [] {} readable []
    rw [List.append_nil, Site.read_nil] at reads
    rw [parse_of_scan {} spells.scan_eq, reads]
    simp [Site.line]
  · intro line text reads
    obtain ⟨phrase, spells, appended⟩ := exists_phrase_of_parse reads
    exact ⟨phrase.statements, appended, fun statement =>
      isExpressible_of_mem_statements spells.proper⟩

theorem expresses_exactly_marks :
    let statement : Statement :=
      { pipeline := ⟨[⟨["exit".toList, "it's".toList]⟩], ⟨[[], "|".toList]⟩⟩
        input := some "a \"b".toList, background := true }
    let text := "'exit' \"it's\"|'' \"|\"<'a \"b'&".toList
    statement.IsExpressible ∧ Quotes text [statement] ∧
      Line.parse {} text = ⟨⟨[statement], {}⟩, none⟩ := by
  intro statement text
  have expressible : statement.IsExpressible := by
    refine ⟨by decide, fun word member => ⟨markFor word, ?_⟩⟩
    revert word
    decide
  have quotes : Quotes text [statement] := by
    refine ⟨[{ earlier := [[.quoted .single "exit".toList, .quoted .double "it's".toList]]
               last := [.quoted .single [], .quoted .double "|".toList]
               input := some (.quoted .single "a \"b".toList), background := true }], rfl, by decide, ?_⟩
    exact Token.scan_eq_some_iff.1 (by decide +kernel)
  exact ⟨expressible, quotes,
    (expresses_exactly.1 [statement] (by simpa using expressible)).2 text quotes⟩

end Grammar

end PipelineShell
