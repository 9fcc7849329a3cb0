import PipelineShell.Proofs.Line.Halves
import PipelineShell.Proofs.Line.Spelling

namespace PipelineShell

namespace Token

def HasOpenQuotation (text : Word) : Prop :=
  ∃ (tokens : List Token) (front : Word) (mark : QuoteMark) (body : Word),
    text = front ++ mark.char :: body ∧ Spells tokens front ∧ mark.char ∉ body

theorem Spells.scan_open {tokens : List Token} {front : Word} (spells : Spells tokens front)
    {mark : QuoteMark} {body : Word} (isOpen : mark.char ∉ body) :
    scan (front ++ mark.char :: body) = none := by
  have unsplit : splitAt? mark.char body = none := by
    cases split : splitAt? mark.char body with
    | none => rfl
    | some parts =>
      obtain ⟨rfl, -⟩ := splitAt?_eq_some split
      simp at isOpen
  have missing : scan (mark.char :: body) = none := by
    rw [scan]
    simp only [isBlank_quoteMark, Bool.false_eq_true, if_false, Operator.ofChar?_quoteMark,
      QuoteMark.ofChar?_char]
    split
    next found =>
      rw [unsplit] at found
      cases found
    next => rfl
  induction spells with
  | nil => exact missing
  | blank blank _ ih => rw [List.cons_append, scan_blank blank, ih]
  | operator op _ ih => rw [List.cons_append, scan_operator, ih, Option.map_none]
  | @quoted other quotation tokens text free _ ih =>
    have whole : other.char :: (quotation ++ other.char :: text) ++ mark.char :: body =
        other.char :: (quotation ++ other.char :: (text ++ mark.char :: body)) := by
      simp
    rw [whole, scan_quoted other free, ih, Option.map_none]
  | @word word tokens text nonempty plain ends _ ih =>
    have stops : EndsWord (text ++ mark.char :: body) := by
      cases text with
      | nil =>
        rintro _ ⟨⟩
        exact isWordChar_quoteMark mark
      | cons c text => exact ends
    rw [List.append_assoc, scan_word nonempty plain stops, ih, Option.map_none]

theorem hasOpenQuotation_of_scan {text : Word} (uncut : scan text = none) :
    HasOpenQuotation text := by
  fun_induction scan text with
  | case1 => cases uncut
  | case2 c rest blank ih =>
    obtain ⟨tokens, front, mark, body, rfl, spells, isOpen⟩ := ih uncut
    exact ⟨tokens, c :: front, mark, body, rfl, .blank blank spells, isOpen⟩
  | case3 c rest _ op found ih =>
    obtain ⟨tokens, front, mark, body, rfl, spells, isOpen⟩ := ih (Option.map_eq_none_iff.1 uncut)
    rw [Operator.eq_char_of_ofChar? found]
    exact ⟨.operator op :: tokens, op.char :: front, mark, body, rfl, .operator op spells, isOpen⟩
  | case4 c rest _ other found _ quotation after split ih =>
    obtain ⟨tokens, front, mark, body, rfl, spells, isOpen⟩ := ih (Option.map_eq_none_iff.1 uncut)
    obtain ⟨rfl, free⟩ := splitAt?_eq_some split
    rw [QuoteMark.eq_char_of_ofChar? found] at free ⊢
    exact ⟨.quoted other quotation :: tokens, other.char :: (quotation ++ other.char :: front),
      mark, body, by simp, .quoted other free spells, isOpen⟩
  | case5 c rest _ mark found _ unsplit =>
    rw [QuoteMark.eq_char_of_ofChar? found] at unsplit ⊢
    refine ⟨[], [], mark, rest, rfl, .nil, fun closes => ?_⟩
    obtain ⟨body, after, rfl, free⟩ := List.eq_append_cons_of_mem closes
    rw [splitAt?_append free] at unsplit
    cases unsplit
  | case6 c rest blank notMark notOperator ih =>
    obtain ⟨tokens, front, mark, body, left, spells, isOpen⟩ :=
      ih (Option.map_eq_none_iff.1 uncut)
    have first : isWordChar c = true :=
      isWordChar_iff.2 ⟨by simpa using blank, notOperator, notMark⟩
    have plain : ∀ d ∈ c :: rest.takeWhile isWordChar, isWordChar d = true :=
      List.forall_mem_cons.2 ⟨first, List.all_eq_true.1 List.all_takeWhile⟩
    have ends : EndsWord front := by
      have ends := endsWord_dropWhile rest
      rw [left] at ends
      cases front with
      | nil => simp [EndsWord]
      | cons d front => exact ends
    refine ⟨_, _, mark, body, ?_, .word (List.cons_ne_nil _ _) plain ends spells, isOpen⟩
    rw [List.append_assoc, ← left, List.cons_append, List.takeWhile_append_dropWhile]

theorem scan_eq_none_iff {text : Word} : scan text = none ↔ HasOpenQuotation text := by
  constructor
  · exact hasOpenQuotation_of_scan
  · rintro ⟨tokens, front, mark, body, rfl, spells, isOpen⟩
    exact spells.scan_open isOpen

end Token

namespace Statement

def IsWhole (statement : Statement) : Prop :=
  ∀ stage ∈ statement.pipeline.stages, stage.isEmpty = false

def IsBegun (statement : Statement) : Prop :=
  ∀ stage ∈ statement.pipeline.earlier, stage.isEmpty = false

theorem isWhole_iff (statement : Statement) :
    statement.IsWhole ↔ statement.IsBegun ∧ statement.pipeline.last.isEmpty = false := by
  simp [IsWhole, IsBegun, Pipeline.stages, or_imp, forall_and]

theorem IsWhole.isBegun {statement : Statement} (whole : statement.IsWhole) : statement.IsBegun :=
  (statement.isWhole_iff.1 whole).1

end Statement

namespace Grammar

theorem isBegun_addItem {statement : Statement} (item : Item) :
    (addItem statement item).IsBegun ↔ statement.IsBegun := by
  rcases item with operand | ⟨_ | _, target⟩ <;> exact Iff.rfl

namespace Site

theorem flags_read (site : Site) (tokens : List Token) :
    (site.read tokens).line.flags = site.flags ∨
      (site.read tokens).error? = none ∧
        (site.read tokens).line.flags = { site.flags with exit := true } := by
  induction tokens using tokens_induction generalizing site with
  | nil => exact .inl (by rw [read_nil]; rfl)
  | item item rest ih =>
    by_cases exits : site.current = none ∧ item = .argument exitWord
    · obtain ⟨closed, rfl⟩ := exits
      have leaves : site.read ((Item.argument exitWord).tokens ++ rest) = _ :=
        read_exit site rest closed
      rw [leaves]
      exact .inr ⟨rfl, rfl⟩
    · rw [read_item site item rest fun closed same => exits ⟨closed, same⟩]
      exact ih (site.add item)
  | bar rest ih =>
    rw [read_bar]
    split
    · exact .inl rfl
    · exact ih site.extend
  | terminator terminator rest ih =>
    rw [read_terminator]
    split
    · exact .inl rfl
    · have kept : (site.close terminator).flags = site.flags := by cases terminator <;> rfl
      rw [← kept]
      exact ih _
  | dangling direction rest noTarget =>
    rw [read_dangling _ _ _ noTarget]
    exact .inl rfl

/-- Reading adds whole statements behind those that are there, and one that is begun at most. -/
def Leaves (site : Site) (line : Line) : Prop :=
  ∃ (whole : List Statement) (last? : Option Statement),
    line.statements = site.closed ++ (whole ++ last?.toList) ∧
      (∀ statement ∈ whole, statement.IsWhole) ∧ ∀ statement ∈ last?, statement.IsBegun

theorem leaves_line (site : Site) (begun : ∀ statement ∈ site.current, statement.IsBegun)
    (flags : Flags) : site.Leaves ⟨site.line.statements, flags⟩ :=
  ⟨[], site.current, rfl, nofun, begun⟩

theorem Leaves.of_close {site : Site} {terminator : Terminator} {line : Line}
    (begun : ∀ statement ∈ site.current, statement.IsBegun) (full : site.lacks = false)
    (leaves : (site.close terminator).Leaves line) : site.Leaves line := by
  obtain ⟨closed, _ | statement, flags⟩ := site
  · cases full
  obtain ⟨whole, last?, added, complete, begun'⟩ := leaves
  have isWhole : statement.IsWhole :=
    statement.isWhole_iff.2 ⟨begun statement rfl, by simpa [lacks] using full⟩
  cases terminator with
  | semicolon =>
    refine ⟨statement :: whole, last?, by simpa [close] using added, ?_, begun'⟩
    exact List.forall_mem_cons.2 ⟨isWhole, complete⟩
  | ampersand =>
    refine ⟨{ statement with background := true } :: whole, last?, by simpa [close] using added, ?_,
      begun'⟩
    exact List.forall_mem_cons.2 ⟨isWhole, complete⟩

theorem leaves_read (site : Site) (begun : ∀ statement ∈ site.current, statement.IsBegun)
    (tokens : List Token) : site.Leaves (site.read tokens).line := by
  induction tokens using tokens_induction generalizing site with
  | nil =>
    rw [read_nil]
    exact site.leaves_line begun _
  | item item rest ih =>
    by_cases exits : site.current = none ∧ item = .argument exitWord
    · obtain ⟨closed, rfl⟩ := exits
      have leaves : site.read ((Item.argument exitWord).tokens ++ rest) = _ :=
        read_exit site rest closed
      rw [leaves]
      exact site.leaves_line begun _
    · rw [read_item site item rest fun closed same => exits ⟨closed, same⟩]
      refine ih (site.add item) fun statement built => ?_
      obtain rfl := Option.some.inj built
      rw [isBegun_addItem]
      cases current : site.current with
      | none => simp [Statement.IsBegun]
      | some statement => exact begun statement current
  | bar rest ih =>
    rw [read_bar]
    cases full : site.lacks with
    | true => exact site.leaves_line begun _
    | false =>
      rw [if_neg Bool.false_ne_true]
      refine ih site.extend fun statement built => ?_
      obtain ⟨closed, _ | current, flags⟩ := site
      · cases full
      obtain rfl := Option.some.inj built
      -- The stage before the bar is one of the earlier ones now.
      exact current.isWhole_iff.2 ⟨begun current rfl, by simpa [lacks] using full⟩
  | terminator terminator rest ih =>
    rw [read_terminator]
    cases full : site.lacks with
    | true => exact site.leaves_line begun _
    | false =>
      rw [if_neg Bool.false_ne_true]
      refine .of_close begun full (ih _ fun statement isOpen => ?_)
      cases terminator <;> cases isOpen
  | dangling direction rest noTarget =>
    rw [read_dangling _ _ _ noTarget]
    exact site.leaves_line begun _

end Site

/-- No tokens are a text with an open quotation, so nothing of it is read. -/
theorem unterminatedQuote_iff (line : Line) (text : Word) :
    (line.parse text).error? = some .unterminatedQuote ↔ Token.HasOpenQuotation text := by
  rw [← Token.scan_eq_none_iff]
  cases scanned : Token.scan text with
  | none => simp [Line.parse, scanned]
  | some tokens =>
    rw [parse_of_scan line scanned]
    -- An error of the tokens themselves is about one of them.
    refine iff_of_false (fun error => ?_) (by simp)
    obtain ⟨start, rest, -, -, isOffense⟩ := Site.offends_of_read _ _ _ error
    unfold offense at isOffense
    split at isOffense <;> try cases isOffense
    split at isOffense <;> cases isOffense

theorem parse_of_open (line : Line) {text : Word} (isOpen : Token.HasOpenQuotation text) :
    line.parse text = ⟨line, some .unterminatedQuote⟩ := by
  simp [Line.parse, Token.scan_eq_none_iff.2 isOpen]

theorem flags_parse (line : Line) (text : Word) :
    (line.parse text).line.flags = line.flags ∨
      (line.parse text).error? = none ∧
        (line.parse text).line.flags = { line.flags with exit := true } := by
  cases scanned : Token.scan text with
  | none =>
    rw [parse_of_open line (Token.scan_eq_none_iff.1 scanned)]
    exact .inl rfl
  | some tokens =>
    rw [parse_of_scan line scanned]
    exact Site.flags_read ..

theorem leaves_parse (line : Line) (text : Word) :
    Site.Leaves ⟨line.statements, none, line.flags⟩ (line.parse text).line := by
  cases scanned : Token.scan text with
  | none =>
    rw [parse_of_open line (Token.scan_eq_none_iff.1 scanned)]
    exact ⟨[], none, by simp, nofun, nofun⟩
  | some tokens =>
    rw [parse_of_scan line scanned]
    exact Site.leaves_read ⟨line.statements, none, line.flags⟩ nofun tokens

/-- The statements and the flags that a line had before a text was read into it are still there,
whether the text was accepted or not. A rejected text does not even add a wish to leave. Nothing at
all is added by a text with an open quotation, wherever that is; after any other error every added
statement is whole, but the last stage of the last one may lack its arguments. -/
theorem parse_only_adds (line : Line) (text : Word) :
    ∃ added : List Statement,
      (line.parse text).line.statements = line.statements ++ added ∧
      (line.parse text).line.flags.error = line.flags.error ∧
      (line.flags.exit = true → (line.parse text).line.flags.exit = true) ∧
      (∀ error, (line.parse text).error? = some error →
        (line.parse text).line.flags = line.flags ∧
        (∀ statement ∈ added.dropLast, statement.IsWhole) ∧
        ∀ statement ∈ added.getLast?, statement.IsBegun) ∧
      ((line.parse text).error? = some .unterminatedQuote ↔ Token.HasOpenQuotation text) ∧
      (Token.HasOpenQuotation text → (line.parse text).line = line) := by
  have flags := flags_parse line text
  obtain ⟨whole, last?, added, complete, begun⟩ := leaves_parse line text
  have allButLast : ∀ statement ∈ (whole ++ last?.toList).dropLast, statement.IsWhole := by
    cases last? with
    | none => exact fun statement member =>
        complete statement (List.dropLast_subset _ (by simpa using member))
    | some last => simpa using complete
  have last : ∀ statement ∈ (whole ++ last?.toList).getLast?, statement.IsBegun := by
    cases last? with
    | none => exact fun statement member =>
        (complete statement (List.mem_of_getLast? (by simpa using member))).isBegun
    | some last => simpa using begun
  refine ⟨whole ++ last?.toList, added, ?_, ?_, fun error stops => ⟨?_, allButLast, last⟩,
    unterminatedQuote_iff line text, fun isOpen => by rw [parse_of_open line isOpen]⟩
  · rcases flags with same | ⟨-, exits⟩
    · rw [same]
    · rw [exits]
  · rcases flags with same | ⟨-, exits⟩
    · rw [same]
      exact id
    · rw [exits]
      exact fun _ => rfl
  · rcases flags with same | ⟨accepted, -⟩
    · exact same
    · rw [accepted] at stops
      cases stops

/-- A stray bar leaves the statement that was there alone, and the one before it begun. -/
example : Line.parse { statements := [⟨⟨[], ⟨[['a']]⟩⟩, none, none, true⟩], flags := ⟨true, true⟩ }
      "b >f||".toList =
    ⟨⟨[⟨⟨[], ⟨[['a']]⟩⟩, none, none, true⟩, ⟨⟨[⟨[['b']]⟩], {}⟩, none, some ['f'], false⟩],
      ⟨true, true⟩⟩, some (.emptyCommand (some .pipe))⟩ := by
  decide +kernel

end Grammar

end PipelineShell
