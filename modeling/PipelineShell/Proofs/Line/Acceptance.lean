import PipelineShell.Proofs.Line.Reading

namespace PipelineShell.Grammar

/-! ## Building statements -/

theorem lastTarget_append (direction : Direction) (items items' : List Item) :
    lastTarget direction (items ++ items') =
      (lastTarget direction items').or (lastTarget direction items) := by
  simp [lastTarget, List.getLast?_append]

theorem lastTarget_cons (direction : Direction) (item : Item) (items : List Item) :
    lastTarget direction (item :: items) =
      (lastTarget direction items).or (item.target? direction) := by
  rw [← List.singleton_append, lastTarget_append]
  cases h : item.target? direction <;> simp [lastTarget, h]

theorem foldl_addItem (s : Statement) (items : List Item) :
    items.foldl addItem s =
      { pipeline := ⟨s.pipeline.earlier, ⟨s.pipeline.last.args ++ items.filterMap Item.argument?⟩⟩
        input := (lastTarget .input items).or s.input
        output := (lastTarget .output items).or s.output
        background := s.background } := by
  induction items generalizing s with
  | nil => simp [lastTarget]
  | cons item items ih =>
    rw [List.foldl_cons, ih, lastTarget_cons, lastTarget_cons]
    cases item with
    | argument operand =>
      simp [addItem, Item.argument?, Item.target?, Pipeline.push, Stage.push]
    | redirection direction target =>
      cases direction <;>
        simp [addItem, List.filterMap_cons, Item.argument?, Item.target?]

def addStage (s : Statement) (phrase : StagePhrase) : Statement :=
  phrase.items.foldl addItem { s with pipeline := s.pipeline.extend }

theorem foldl_addStage (s : Statement) (phrases : List StagePhrase) :
    let built := phrases.foldl addStage s
    built.pipeline.stages = s.pipeline.stages ++ phrases.map StagePhrase.stage ∧
      built.input = (lastTarget .input (phrases.flatMap StagePhrase.items)).or s.input ∧
      built.output = (lastTarget .output (phrases.flatMap StagePhrase.items)).or s.output ∧
      built.background = s.background := by
  induction phrases generalizing s with
  | nil => simp [lastTarget]
  | cons phrase phrases ih =>
    obtain ⟨stages, input, output, background⟩ := ih (addStage s phrase)
    simp only [List.foldl_cons, List.flatMap_cons, lastTarget_append, stages, input, output,
      background]
    simp [addStage, foldl_addItem, Pipeline.stages, Pipeline.extend, StagePhrase.stage,
      Option.or_assoc]

theorem build_statement (phrase : StatementPhrase) :
    phrase.rest.foldl addStage (phrase.first.items.foldl addItem {}) = phrase.statement false := by
  obtain ⟨stages, input, output, background⟩ :=
    foldl_addStage (phrase.first.items.foldl addItem {}) phrase.rest
  generalize phrase.rest.foldl addStage (phrase.first.items.foldl addItem {}) = built at *
  obtain ⟨pipeline, _, _, _⟩ := built
  simp only [foldl_addItem] at stages input output background
  subst input output background
  have same : pipeline = (phrase.statement false).pipeline := by
    apply Pipeline.eq_of_stages
    rw [stages, StatementPhrase.statement, Pipeline.stages_ofStages]
    simp [Pipeline.stages, StagePhrase.stage]
  subst same
  simp [StatementPhrase.statement, StatementPhrase.items, StatementPhrase.stages,
    lastTarget_append]

theorem isEmpty_stage (phrase : StagePhrase) : phrase.stage.isEmpty = false := by
  obtain ⟨item, member, isArgument⟩ := List.any_eq_true.1 phrase.hasArgument
  obtain ⟨word, h⟩ := Option.isSome_iff_exists.1 isArgument
  have : word ∈ phrase.stage.args := List.mem_filterMap.2 ⟨item, member, h⟩
  exact List.isEmpty_eq_false_iff_exists_mem.2 ⟨word, this⟩

theorem isEmpty_last_statement (phrase : StatementPhrase) (background : Bool) :
    (phrase.statement background).pipeline.last.isEmpty = false := by
  have member : (phrase.statement background).pipeline.last ∈
      (phrase.statement background).pipeline.stages := by
    simp [Pipeline.stages]
  rw [StatementPhrase.statement, Pipeline.stages_ofStages, List.mem_cons] at member
  rcases member with h | h
  · rw [StatementPhrase.statement, h]
    exact isEmpty_stage _
  · obtain ⟨stage, -, h⟩ := List.mem_map.1 h
    rw [StatementPhrase.statement, ← h]
    exact isEmpty_stage _

/-! ## A phrase is read as what it stands for -/

namespace Site

theorem lacks_add (site : Site) (item : Item) :
    (site.add item).lacks = (site.lacks && !item.isArgument) := by
  obtain ⟨closed, current, flags⟩ := site
  cases item with
  | argument operand =>
    simp [add, addItem, lacks, Item.isArgument, Item.argument?, Pipeline.push, Stage.push,
      Stage.isEmpty]
  | redirection direction target =>
    cases direction <;> cases current <;>
      simp [add, addItem, lacks, Item.isArgument, Item.argument?, Stage.isEmpty]

theorem lacks_addAll (site : Site) (items : List Item) :
    (items.foldl add site).lacks = (site.lacks && !items.any Item.isArgument) := by
  induction items generalizing site with
  | nil => simp
  | cons item items ih =>
    rw [List.foldl_cons, ih, lacks_add, List.any_cons, Bool.not_or, Bool.and_assoc]

theorem addAll_some (closed : List Statement) (s : Statement) (flags : Flags)
    (items : List Item) :
    items.foldl add ⟨closed, some s, flags⟩ = ⟨closed, some (items.foldl addItem s), flags⟩ := by
  induction items generalizing s with
  | nil => rfl
  | cons item items ih => exact ih (addItem s item)

theorem read_items (site : Site) (items : List Item) (rest : List Token)
    (h : site.current = none → items.head? ≠ some (.argument exitWord)) :
    site.read (itemTokens items ++ rest) = (items.foldl add site).read rest := by
  induction items generalizing site with
  | nil => rfl
  | cons item items ih =>
    have start : site.current = none → item ≠ .argument exitWord :=
      fun closed equal => h closed (by rw [equal]; rfl)
    rw [itemTokens, List.flatMap_cons, List.append_assoc, site.read_item _ _ start]
    exact ih (site.add item) (fun closed => by simp [add] at closed)

theorem read_barred (closed : List Statement) (s : Statement) (flags : Flags)
    (stages : List StagePhrase) (rest : List Token) (full : s.pipeline.last.isEmpty = false) :
    read ⟨closed, some s, flags⟩ (barredTokens stages ++ rest) =
      read ⟨closed, some (stages.foldl addStage s), flags⟩ rest := by
  induction stages generalizing s with
  | nil => rfl
  | cons phrase stages ih =>
    have full' : (addStage s phrase).pipeline.last.isEmpty = false := by
      have h := lacks_addAll ⟨closed, some { s with pipeline := s.pipeline.extend }, flags⟩
        phrase.items
      rwa [phrase.hasArgument, Bool.not_true, Bool.and_false, addAll_some] at h
    have opened : lacks ⟨closed, some s, flags⟩ = false := full
    rw [barredTokens, List.flatMap_cons, List.cons_append, List.cons_append, List.append_assoc,
      read_bar, opened, if_neg Bool.false_ne_true, StagePhrase.tokens,
      read_items _ _ _ (fun h => by simp [extend] at h)]
    exact (congrArg (read · _) (addAll_some closed _ flags phrase.items)).trans (ih _ full')

theorem read_statement (closed : List Statement) (flags : Flags) (phrase : StatementPhrase)
    (rest : List Token) :
    read ⟨closed, none, flags⟩ (phrase.tokens ++ rest) =
      read ⟨closed, some (phrase.statement false), flags⟩ rest := by
  have added : phrase.first.items.foldl add ⟨closed, none, flags⟩ =
      ⟨closed, some (phrase.first.items.foldl addItem {}), flags⟩ := by
    cases h : phrase.first.items with
    | nil => simpa [h] using phrase.first.hasArgument
    | cons item items => exact addAll_some closed (addItem {} item) flags items
  have full : (phrase.first.items.foldl addItem {}).pipeline.last.isEmpty = false := by
    have h := lacks_addAll ⟨closed, none, flags⟩ phrase.first.items
    rwa [phrase.first.hasArgument, Bool.not_true, Bool.and_false, added] at h
  rw [StatementPhrase.tokens, List.append_assoc, StagePhrase.tokens,
    read_items _ _ _ (fun _ => phrase.notExit), added, read_barred _ _ _ _ _ full,
    build_statement]

theorem read_terminated (closed : List Statement) (flags : Flags) (phrase : StatementPhrase)
    (terminator : Terminator) (rest : List Token) :
    read ⟨closed, none, flags⟩ (phrase.tokens ++ .operator terminator.operator :: rest) =
      read ⟨closed ++ [phrase.statement terminator.background], none, flags⟩ rest := by
  have opened : lacks ⟨closed, some (phrase.statement false), flags⟩ = false :=
    isEmpty_last_statement phrase false
  rw [read_statement, read_terminator, opened, if_neg Bool.false_ne_true]
  cases terminator <;> rfl

theorem read_line (closed : List Statement) (flags : Flags) (phrase : LinePhrase) :
    read ⟨closed, none, flags⟩ phrase.tokens =
      ⟨⟨closed ++ phrase.statements, { flags with exit := flags.exit || phrase.ending.isExit }⟩,
        none⟩ := by
  obtain ⟨terminated, ending⟩ := phrase
  induction terminated generalizing closed with
  | nil =>
    cases ending with
    | nothing => simp [LinePhrase.tokens, LinePhrase.statements, Ending.tokens, Ending.statements,
        Ending.isExit, read_nil, line]
    | statement phrase =>
      have opened : lacks ⟨closed, some (phrase.statement false), flags⟩ = false :=
        isEmpty_last_statement phrase false
      have h := read_statement closed flags phrase []
      rw [List.append_nil, read_nil, opened] at h
      simpa [LinePhrase.tokens, LinePhrase.statements, Ending.tokens, Ending.statements,
        Ending.isExit, line] using h
    | exit ignored =>
      have h := read_exit ⟨closed, none, flags⟩ ignored rfl
      simpa [LinePhrase.tokens, LinePhrase.statements, Ending.tokens, Ending.statements,
        Ending.isExit, line, Line.requestExit] using h
  | cons head terminated ih =>
    obtain ⟨phrase, terminator⟩ := head
    have h := ih (closed ++ [phrase.statement terminator.background])
    simp only [LinePhrase.tokens, LinePhrase.statements, List.flatMap_cons, List.append_assoc,
      List.map_cons, List.cons_append, List.nil_append] at h ⊢
    rw [read_terminated, h]

end Site

/-! ## What is read without an error is a phrase -/

theorem tokens_induction {motive : List Token → Prop} (nil : motive [])
    (item : ∀ (item : Item) rest, motive rest → motive (item.tokens ++ rest))
    (bar : ∀ rest, motive rest → motive (.operator .pipe :: rest))
    (terminator : ∀ (terminator : Terminator) rest, motive rest →
      motive (.operator terminator.operator :: rest))
    (dangling : ∀ (direction : Direction) rest,
      (∀ operand : Operand, rest.head? ≠ some operand.token) →
      motive (.operator direction.operator :: rest)) : ∀ tokens, motive tokens
  | [] => nil
  | .word text :: rest =>
    item (.argument (.word text)) rest (tokens_induction nil item bar terminator dangling rest)
  | .quoted mark body :: rest =>
    item (.argument (.quoted mark body)) rest
      (tokens_induction nil item bar terminator dangling rest)
  | .operator .pipe :: rest => bar rest (tokens_induction nil item bar terminator dangling rest)
  | .operator .semicolon :: rest =>
    terminator .semicolon rest (tokens_induction nil item bar terminator dangling rest)
  | .operator .ampersand :: rest =>
    terminator .ampersand rest (tokens_induction nil item bar terminator dangling rest)
  | .operator .less :: .word text :: rest =>
    item (.redirection .input (.word text)) rest
      (tokens_induction nil item bar terminator dangling rest)
  | .operator .less :: .quoted mark body :: rest =>
    item (.redirection .input (.quoted mark body)) rest
      (tokens_induction nil item bar terminator dangling rest)
  | .operator .greater :: .word text :: rest =>
    item (.redirection .output (.word text)) rest
      (tokens_induction nil item bar terminator dangling rest)
  | .operator .greater :: .quoted mark body :: rest =>
    item (.redirection .output (.quoted mark body)) rest
      (tokens_induction nil item bar terminator dangling rest)
  | [.operator .less] => dangling .input [] (by simp)
  | [.operator .greater] => dangling .output [] (by simp)
  | .operator .less :: .operator op :: rest =>
    dangling .input _ (by rintro (_ | _) <;> simp [Operand.token])
  | .operator .greater :: .operator op :: rest =>
    dangling .output _ (by rintro (_ | _) <;> simp [Operand.token])

/-- Tokens that complete a statement which is being built, and what follows it. `lacks` says that
its last stage still needs an argument. -/
def Completes (lacks : Bool) (tokens : List Token) : Prop :=
  ∃ (items : List Item) (stages : List StagePhrase) (next : Option (Terminator × LinePhrase)),
    tokens = itemTokens items ++ (barredTokens stages ++
      next.elim [] fun (terminator, phrase) => .operator terminator.operator :: phrase.tokens) ∧
    (lacks = true → items.any Item.isArgument = true)

namespace Completes

theorem nil : Completes false [] := ⟨[], [], none, rfl, by simp⟩

theorem item {lacks : Bool} {item : Item} {rest : List Token}
    (h : Completes (lacks && !item.isArgument) rest) : Completes lacks (item.tokens ++ rest) := by
  obtain ⟨items, stages, next, rfl, full⟩ := h
  refine ⟨item :: items, stages, next, by simp [itemTokens], fun h => ?_⟩
  cases isArgument : item.isArgument with
  | true => simp [isArgument]
  | false => simpa [isArgument] using full (by simp [h, isArgument])

theorem bar {rest : List Token} (h : Completes true rest) :
    Completes false (.operator .pipe :: rest) := by
  obtain ⟨items, stages, next, rfl, full⟩ := h
  refine ⟨[], ⟨items, full rfl⟩ :: stages, next, ?_, by simp⟩
  simp [itemTokens, barredTokens, StagePhrase.tokens]

theorem terminator (terminator : Terminator) {rest : List Token} (h : IsLine rest) :
    Completes false (.operator terminator.operator :: rest) := by
  obtain ⟨phrase, rfl⟩ := h
  exact ⟨[], [], some (terminator, phrase), rfl, by simp⟩

theorem isLine {item : Item} {rest : List Token} (start : item ≠ .argument exitWord)
    (h : Completes (!item.isArgument) rest) : IsLine (item.tokens ++ rest) := by
  obtain ⟨items, stages, next, rfl, full⟩ := h
  have hasArgument : (item :: items).any Item.isArgument = true := by
    cases isArgument : item.isArgument with
    | true => simp [isArgument]
    | false => simpa [isArgument] using full (by simp [isArgument])
  let phrase : StatementPhrase :=
    ⟨⟨item :: items, hasArgument⟩, stages, fun h => start (Option.some.inj h)⟩
  cases next with
  | none =>
    refine ⟨⟨[], .statement phrase⟩, ?_⟩
    simp [LinePhrase.tokens, Ending.tokens, phrase, StatementPhrase.tokens, StagePhrase.tokens,
      itemTokens]
  | some next =>
    obtain ⟨terminator, line⟩ := next
    refine ⟨⟨(phrase, terminator) :: line.terminated, line.ending⟩, ?_⟩
    simp [LinePhrase.tokens, phrase, StatementPhrase.tokens, StagePhrase.tokens, itemTokens]

end Completes

theorem Site.phrase_of_read (site : Site) (tokens : List Token)
    (h : (site.read tokens).error? = none) :
    if site.current.isSome then Completes site.lacks tokens else IsLine tokens := by
  induction tokens using tokens_induction generalizing site with
  | nil =>
    rw [read_nil] at h
    obtain ⟨closed, _ | statement, flags⟩ := site
    · exact ⟨⟨[], .nothing⟩, rfl⟩
    · cases full : lacks ⟨closed, some statement, flags⟩ with
      | true => simp [full] at h
      | false => exact .nil
  | item item rest ih =>
    obtain ⟨closed, _ | statement, flags⟩ := site
    · by_cases exits : item = .argument exitWord
      · subst exits
        exact ⟨⟨[], .exit rest⟩, rfl⟩
      · rw [read_item _ _ _ fun _ => exits] at h
        have := ih _ h
        rw [lacks_add] at this
        exact Completes.isLine exits this
    · rw [read_item _ _ _ fun h => by cases h] at h
      have := ih _ h
      rw [lacks_add] at this
      exact Completes.item this
  | bar rest ih =>
    rw [read_bar] at h
    cases full : site.lacks with
    | true => simp [full] at h
    | false =>
      obtain ⟨closed, _ | statement, flags⟩ := site
      · cases full
      · rw [full, if_neg Bool.false_ne_true] at h
        exact Completes.bar (ih _ h)
  | terminator terminator rest ih =>
    rw [read_terminator] at h
    cases full : site.lacks with
    | true => simp [full] at h
    | false =>
      obtain ⟨closed, _ | statement, flags⟩ := site
      · cases full
      · rw [full, if_neg Bool.false_ne_true] at h
        have := ih _ h
        cases terminator <;> exact Completes.terminator _ this
  | dangling direction rest noTarget =>
    rw [read_dangling _ _ _ noTarget] at h
    cases h

/-! ## An error is about the first offending token -/

theorem FirstOffense.unique {accepted : List Token → Prop} {start rest start' rest' : List Token}
    (h : FirstOffense accepted start rest) (h' : FirstOffense accepted start' rest')
    (same : start ++ rest = start' ++ rest') : start = start' ∧ rest = rest' := by
  -- The first offense is where the longest viable start ends.
  rcases List.append_eq_append_iff.1 same with ⟨more, rfl, rfl⟩ | ⟨more, rfl, rfl⟩
  · cases more with
    | nil => simp
    | cons next more =>
      obtain ⟨tail, viable⟩ := h'.viable
      exact absurd ⟨more ++ tail, by simpa using viable⟩ (h.hopeless next rfl)
  · cases more with
    | nil => simp
    | cons next more =>
      obtain ⟨tail, viable⟩ := h.viable
      exact absurd ⟨more ++ tail, by simpa using viable⟩ (h'.hopeless next rfl)

theorem Offends.unique {accepted : List Token → Prop} {tokens : List Token}
    {error error' : ParseError} (h : Offends accepted tokens error)
    (h' : Offends accepted tokens error') : error = error' := by
  obtain ⟨start, rest, same, first, rfl⟩ := h
  obtain ⟨start', rest', same', first', rfl⟩ := h'
  obtain ⟨rfl, rfl⟩ := first.unique first' (same.trans same'.symm)
  rfl

theorem offense_append (front start rest : List Token)
    (complete : ∀ direction : Direction, front.getLast? ≠ some (.operator direction.operator)) :
    offense (front ++ start) rest = offense start rest := by
  unfold offense
  rw [List.getLast?_append]
  cases h : start.getLast? with
  | some token => rfl
  | none =>
    have noInput : front.getLast? ≠ some (.operator .less) := complete .input
    have noOutput : front.getLast? ≠ some (.operator .greater) := complete .output
    simp only [Option.none_or]

theorem Offends.prepend {accepted accepted' : List Token → Prop} {tokens : List Token}
    {error : ParseError} (front : List Token)
    (complete : ∀ direction : Direction, front.getLast? ≠ some (.operator direction.operator))
    (same : ∀ tokens, accepted (front ++ tokens) ↔ accepted' tokens)
    (h : Offends accepted' tokens error) : Offends accepted (front ++ tokens) error := by
  obtain ⟨start, rest, rfl, ⟨rejected, ⟨tail, viable⟩, hopeless⟩, rfl⟩ := h
  refine ⟨front ++ start, rest, List.append_assoc .., ⟨?_, ⟨tail, ?_⟩, ?_⟩,
    (offense_append _ _ _ complete).symm⟩
  · rwa [List.append_assoc, same]
  · rwa [List.append_assoc, same]
  · rintro next member ⟨tail, viable⟩
    rw [List.append_assoc, List.append_assoc, same, ← List.append_assoc] at viable
    exact hopeless next member ⟨tail, viable⟩

namespace Site

def Accepts (site : Site) (tokens : List Token) : Prop := (site.read tokens).error? = none

theorem accepts_argument (site : Site) : site.Accepts [.word ['a']] := by
  have noExit : Item.argument (.word ['a']) ≠ .argument exitWord := by decide
  have full : (site.add (.argument (.word ['a']))).lacks = false := by
    rw [lacks_add]
    exact Bool.and_false _
  have h := site.read_item (.argument (.word ['a'])) [] fun _ => noExit
  rw [read_nil, full, Bool.and_false] at h
  exact congrArg Reading.error? h

theorem viable_nil (site : Site) : Viable site.Accepts [] := ⟨_, site.accepts_argument⟩

theorem viable_redirection (site : Site) (direction : Direction) :
    Viable site.Accepts [.operator direction.operator] := by
  have h := site.read_item (.redirection direction (.word ['a'])) [.word ['a']] (by simp)
  exact ⟨[.word ['a'], .word ['a']], (congrArg Reading.error? h).trans (accepts_argument _)⟩

theorem offends_after {site site' : Site} {tokens : List Token} {error : ParseError}
    (front : List Token)
    (complete : ∀ direction : Direction, front.getLast? ≠ some (.operator direction.operator))
    (goesOn : ∀ tokens, site.read (front ++ tokens) = site'.read tokens)
    (h : Offends site'.Accepts tokens error) : Offends site.Accepts (front ++ tokens) error :=
  h.prepend front complete fun tokens => by rw [Accepts, goesOn, Accepts]

theorem offends_here {site : Site} (op : Operator) (rest : List Token)
    (refused : ∀ tokens, (site.read (.operator op :: tokens)).error? ≠ none) :
    Offends site.Accepts (.operator op :: rest) (.emptyCommand (some op)) := by
  refine ⟨[], _, rfl, ⟨refused rest, site.viable_nil, ?_⟩, rfl⟩
  rintro next member ⟨tail, accepts⟩
  cases Option.some.inj member
  exact refused tail accepts

theorem offends_nil {site : Site} (rejected : ¬ site.Accepts []) :
    Offends site.Accepts [] (.emptyCommand none) :=
  ⟨[], [], rfl, ⟨rejected, site.viable_nil, by simp⟩, rfl⟩

theorem offends_dangling (site : Site) (direction : Direction) (rest : List Token)
    (noTarget : ∀ operand : Operand, rest.head? ≠ some operand.token) :
    Offends site.Accepts (.operator direction.operator :: rest)
      (.missingTarget direction.operator) := by
  have refused (tokens : List Token)
      (h : ∀ operand : Operand, tokens.head? ≠ some operand.token) :
      ¬ site.Accepts (.operator direction.operator :: tokens) := by
    rw [Accepts, read_dangling _ _ _ h]
    exact Option.some_ne_none _
  refine ⟨[.operator direction.operator], rest, rfl,
    ⟨refused rest noTarget, site.viable_redirection direction, ?_⟩, by cases direction <;> rfl⟩
  rintro next member ⟨tail, accepts⟩
  exact refused (next :: tail) (fun operand equal => noTarget operand (member.trans equal)) accepts

theorem offends_of_read (site : Site) (tokens : List Token) (error : ParseError)
    (h : (site.read tokens).error? = some error) : Offends site.Accepts tokens error := by
  induction tokens using tokens_induction generalizing site with
  | nil =>
    have rejected : ¬ site.Accepts [] := by simp [Accepts, h]
    rw [read_nil] at h
    simp only at h
    split at h
    · cases h
      exact offends_nil rejected
    · cases h
  | item item rest ih =>
    by_cases exits : site.current = none ∧ item = .argument exitWord
    · obtain ⟨closed, rfl⟩ := exits
      change (site.read (exitWord.token :: rest)).error? = _ at h
      rw [read_exit _ _ closed] at h
      cases h
    · have goesOn (tokens : List Token) :
          site.read (item.tokens ++ tokens) = (site.add item).read tokens :=
        site.read_item item tokens fun closed equal => exits ⟨closed, equal⟩
      rw [goesOn] at h
      refine offends_after _ (fun direction => ?_) goesOn (ih _ h)
      obtain ⟨_ | _⟩ | ⟨_, _ | _⟩ := item <;> simp [Item.tokens, Operand.token]
  | bar rest ih =>
    rw [read_bar] at h
    cases full : site.lacks with
    | true =>
      rw [full, if_pos rfl] at h
      cases h
      exact offends_here _ rest fun tokens => by simp [read_bar, full]
    | false =>
      rw [full, if_neg Bool.false_ne_true] at h
      refine offends_after [.operator .pipe] (fun direction => ?_) (fun tokens => ?_) (ih _ h)
      · cases direction <;> simp [Direction.operator]
      · rw [List.singleton_append, read_bar, full, if_neg Bool.false_ne_true]
  | terminator terminator rest ih =>
    rw [read_terminator] at h
    cases full : site.lacks with
    | true =>
      rw [full, if_pos rfl] at h
      cases h
      exact offends_here _ rest fun tokens => by simp [read_terminator, full]
    | false =>
      rw [full, if_neg Bool.false_ne_true] at h
      refine offends_after [.operator terminator.operator] (fun direction => ?_) (fun tokens => ?_)
        (ih _ h)
      · cases direction <;> cases terminator <;> simp [Direction.operator, Terminator.operator]
      · rw [List.singleton_append, read_terminator, full, if_neg Bool.false_ne_true]
  | dangling direction rest noTarget =>
    rw [read_dangling _ _ _ noTarget] at h
    cases h
    exact site.offends_dangling direction rest noTarget

end Site

/-! ## Texts -/

theorem parse_of_scan (line : Line) {text : Word} {tokens : List Token}
    (scanned : Token.scan text = some tokens) :
    line.parse text = Site.read ⟨line.statements, none, line.flags⟩ tokens := by
  simp [Line.parse, scanned, Site.read, Site.line]

theorem accepts_iff_isLine (closed : List Statement) (flags : Flags) (tokens : List Token) :
    Site.Accepts ⟨closed, none, flags⟩ tokens ↔ IsLine tokens := by
  constructor
  · exact Site.phrase_of_read _ tokens
  · rintro ⟨phrase, rfl⟩
    exact congrArg Reading.error? (Site.read_line closed flags phrase)

/-- Reading accepts exactly the command lines, builds exactly the statements of the phrase, and
requests an exit exactly for a phrase that ends in one; every error is about the first offending
token. -/
theorem parse_exact (line : Line) {text : Word} {tokens : List Token}
    (scanned : Token.scan text = some tokens) :
    ((line.parse text).error? = none ↔ IsLine tokens) ∧
      (∀ phrase : LinePhrase, phrase.tokens = tokens →
        line.parse text =
          ⟨⟨line.statements ++ phrase.statements,
            { line.flags with exit := line.flags.exit || phrase.ending.isExit }⟩, none⟩) ∧
      ∀ error, (line.parse text).error? = some error ↔ Offends IsLine tokens error := by
  have same : Site.Accepts ⟨line.statements, none, line.flags⟩ = IsLine :=
    funext fun tokens => propext (accepts_iff_isLine ..)
  rw [parse_of_scan line scanned]
  refine ⟨accepts_iff_isLine .., ?_, fun error => ⟨?_, ?_⟩⟩
  · rintro phrase rfl
    exact Site.read_line ..
  · intro h
    rw [← same]
    exact Site.offends_of_read _ _ _ h
  · intro h
    rw [← same] at h
    cases read : (Site.read ⟨line.statements, none, line.flags⟩ tokens).error? with
    | none =>
      obtain ⟨start, rest, rfl, first, -⟩ := h
      exact absurd read first.rejected
    | some error' => rw [(Site.offends_of_read _ _ _ read).unique h]

theorem parse_exact_exit_line :
    Token.scan "<'i' a|b&exit;".toList = some [.operator .less, .quoted .single ['i'], .word ['a'],
        .operator .pipe, .word ['b'], .operator .ampersand, exitWord.token, .operator .semicolon] ∧
      ((Line.parse {} "<'i' a|b&exit;".toList).error? = none ↔
        IsLine [.operator .less, .quoted .single ['i'], .word ['a'], .operator .pipe, .word ['b'],
          .operator .ampersand, exitWord.token, .operator .semicolon]) ∧
      (∀ phrase : LinePhrase,
        phrase.tokens = [.operator .less, .quoted .single ['i'], .word ['a'], .operator .pipe,
          .word ['b'], .operator .ampersand, exitWord.token, .operator .semicolon] →
        Line.parse {} "<'i' a|b&exit;".toList =
          ⟨⟨[] ++ phrase.statements, ⟨false, false || phrase.ending.isExit⟩⟩, none⟩) ∧
      ∀ error, (Line.parse {} "<'i' a|b&exit;".toList).error? = some error ↔
        Offends IsLine [.operator .less, .quoted .single ['i'], .word ['a'], .operator .pipe,
          .word ['b'], .operator .ampersand, exitWord.token, .operator .semicolon] error :=
  have scanned : Token.scan "<'i' a|b&exit;".toList = some [.operator .less,
      .quoted .single ['i'], .word ['a'], .operator .pipe, .word ['b'], .operator .ampersand,
      exitWord.token, .operator .semicolon] := by
    decide +kernel
  ⟨scanned, parse_exact {} scanned⟩

end PipelineShell.Grammar
