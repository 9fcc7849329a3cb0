import PipelineShell.Proofs.Line.Acceptance
import PipelineShell.Proofs.Line.Spelling

namespace PipelineShell

def Reading.inBackground (reading : Reading) (index : Nat) : Reading :=
  { reading with line := { reading.line with
      statements := reading.line.statements.modify index fun statement =>
        { statement with background := true } } }

namespace Grammar

/-! ## Where statements start -/

def endsStatement : Token → Bool
  | .operator .semicolon | .operator .ampersand => true
  | _ => false

/-- No statement is open after these tokens; `closed` says whether none is open before them. -/
def leavesClosed (closed : Bool) (tokens : List Token) : Bool :=
  (tokens.getLast?.map endsStatement).getD closed

/-- No unquoted `exit` stands where a statement starts. -/
def ExitFree (closed : Bool) (tokens : List Token) : Prop :=
  ∀ before after, tokens = before ++ exitWord.token :: after → leavesClosed closed before = false

@[simp] theorem leavesClosed_nil (closed : Bool) : leavesClosed closed [] = closed := rfl

theorem leavesClosed_append (closed : Bool) (first second : List Token) :
    leavesClosed closed (first ++ second) = leavesClosed (leavesClosed closed first) second := by
  rw [leavesClosed, List.getLast?_append]
  cases last : second.getLast? <;> simp [leavesClosed, last]

@[simp] theorem leavesClosed_item (closed : Bool) (item : Item) :
    leavesClosed closed item.tokens = false := by
  obtain ⟨_ | _⟩ | ⟨_, _ | _⟩ := item <;> rfl

@[simp] theorem leavesClosed_bar (closed : Bool) :
    leavesClosed closed [.operator .pipe] = false := rfl

@[simp] theorem leavesClosed_terminator (closed : Bool) (terminator : Terminator) :
    leavesClosed closed [.operator terminator.operator] = true := by
  cases terminator <;> rfl

theorem ExitFree.of_append {closed : Bool} {first second : List Token}
    (exitFree : ExitFree closed (first ++ second)) :
    ExitFree (leavesClosed closed first) second := by
  rintro before after rfl
  rw [← leavesClosed_append]
  exact exitFree (first ++ before) after (List.append_assoc ..).symm

theorem ExitFree.not_exit {item : Item} {rest : List Token}
    (exitFree : ExitFree true (item.tokens ++ rest)) : item ≠ .argument exitWord := by
  rintro rfl
  cases exitFree [] rest rfl

namespace Site

/-! ## Going on from a site -/

structure Reached (site : Site) (tokens : List Token) (reached : Site) : Prop where
  goes_on : ∀ more, site.read (tokens ++ more) = reached.read more
  line_eq : reached.line = (site.read tokens).line
  isNone_eq : reached.current.isNone = leavesClosed site.current.isNone tokens
  full : reached.current.isSome = true → reached.lacks = false

namespace Reached

variable {site site' reached : Site} {front rest : List Token}

theorem cons (reached_rest : Reached site' rest reached)
    (goes_on : ∀ more, site.read (front ++ more) = site'.read more)
    (isNone_eq : site'.current.isNone = leavesClosed site.current.isNone front) :
    Reached site (front ++ rest) reached where
  goes_on more := by rw [List.append_assoc, goes_on, reached_rest.goes_on]
  line_eq := by rw [goes_on, reached_rest.line_eq]
  isNone_eq := by rw [leavesClosed_append, ← isNone_eq, reached_rest.isNone_eq]
  full := reached_rest.full

end Reached

theorem exists_reached (site : Site) (tokens : List Token)
    (reads : (site.read tokens).error? = none)
    (exitFree : ExitFree site.current.isNone tokens) : ∃ reached, Reached site tokens reached := by
  induction tokens using tokens_induction generalizing site with
  | nil =>
    refine ⟨site, fun more => rfl, by rw [read_nil], rfl, fun opened => ?_⟩
    rw [read_nil, opened] at reads
    cases full : site.lacks with
    | true => simp [full] at reads
    | false => rfl
  | item item rest ih =>
    have goes_on (more : List Token) : site.read (item.tokens ++ more) = (site.add item).read more := by
      refine read_item site item more fun closed => ?_
      rw [closed] at exitFree
      exact exitFree.not_exit
    have isNone_eq : (site.add item).current.isNone =
        leavesClosed site.current.isNone item.tokens := by
      rw [leavesClosed_item]
      rfl
    obtain ⟨reached, there⟩ := ih (site.add item) (by rwa [← goes_on])
      (isNone_eq ▸ exitFree.of_append)
    exact ⟨reached, there.cons goes_on isNone_eq⟩
  | bar rest ih =>
    rw [← List.singleton_append] at exitFree ⊢
    rw [read_bar] at reads
    cases full : site.lacks with
    | true => simp [full] at reads
    | false =>
      have goes_on (more : List Token) : site.read ([.operator .pipe] ++ more) =
          site.extend.read more := by
        rw [List.singleton_append, read_bar, full, if_neg Bool.false_ne_true]
      have opened : site.current.isNone = false := by
        cases current : site.current with
        | none => simp [lacks, current] at full
        | some statement => rfl
      have isNone_eq : site.extend.current.isNone =
          leavesClosed site.current.isNone [.operator .pipe] := by
        simpa [extend] using opened
      rw [full, if_neg Bool.false_ne_true] at reads
      obtain ⟨reached, there⟩ := ih site.extend reads (isNone_eq ▸ exitFree.of_append)
      exact ⟨reached, there.cons goes_on isNone_eq⟩
  | terminator terminator rest ih =>
    rw [← List.singleton_append] at exitFree ⊢
    rw [read_terminator] at reads
    cases full : site.lacks with
    | true => simp [full] at reads
    | false =>
      have goes_on (more : List Token) : site.read ([.operator terminator.operator] ++ more) =
          (site.close terminator).read more := by
        rw [List.singleton_append, read_terminator, full, if_neg Bool.false_ne_true]
      have isNone_eq : (site.close terminator).current.isNone =
          leavesClosed site.current.isNone [.operator terminator.operator] := by
        rw [leavesClosed_terminator]
        cases terminator <;> rfl
      rw [full, if_neg Bool.false_ne_true] at reads
      obtain ⟨reached, there⟩ := ih (site.close terminator) reads (isNone_eq ▸ exitFree.of_append)
      exact ⟨reached, there.cons goes_on isNone_eq⟩
  | dangling direction rest noTarget =>
    rw [read_dangling _ _ _ noTarget] at reads
    cases reads

/-! ## Closed statements are left alone -/

def behind (front : List Statement) (site : Site) : Site :=
  { site with closed := front ++ site.closed }

theorem line_behind (front : List Statement) (site : Site) :
    (site.behind front).line = { site.line with statements := front ++ site.line.statements } := by
  simp [behind, line]

theorem close_behind (front : List Statement) (site : Site) (terminator : Terminator) :
    (site.behind front).close terminator = (site.close terminator).behind front := by
  cases terminator <;> simp [behind, close]

theorem read_prefix (front : List Statement) (site : Site) (tokens : List Token) :
    (site.behind front).read tokens =
      ⟨{ (site.read tokens).line with statements := front ++ (site.read tokens).line.statements },
        (site.read tokens).error?⟩ := by
  have lacks_eq (site : Site) : (site.behind front).lacks = site.lacks := rfl
  induction tokens using tokens_induction generalizing site with
  | nil => rw [read_nil, read_nil, line_behind]; rfl
  | item item rest ih =>
    by_cases exits : site.current = none ∧ item = .argument exitWord
    · obtain ⟨closed, rfl⟩ := exits
      have closed' : (site.behind front).current = none := closed
      have exit (site : Site) (closed : site.current = none) :
          site.read ((Item.argument exitWord).tokens ++ rest) = ⟨site.line.requestExit, none⟩ :=
        read_exit site rest closed
      rw [exit _ closed, exit _ closed', line_behind]
      rfl
    · have start : site.current = none → item ≠ .argument exitWord :=
        fun closed same => exits ⟨closed, same⟩
      rw [read_item site item rest start, read_item (site.behind front) item rest start]
      exact ih (site.add item)
  | bar rest ih =>
    rw [read_bar, read_bar, lacks_eq]
    split
    · rw [line_behind]
    · exact ih site.extend
  | terminator terminator rest ih =>
    rw [read_terminator, read_terminator, lacks_eq]
    split
    · rw [line_behind]
    · rw [close_behind]
      exact ih (site.close terminator)
  | dangling direction rest noTarget =>
    rw [read_dangling _ _ _ noTarget, read_dangling _ _ _ noTarget, line_behind]

end Site

/-! ## Texts in parts -/

theorem modify_length {α : Type} (f : α → α) (front : List α) (a : α) (rest : List α) :
    (front ++ a :: rest).modify front.length f = front ++ f a :: rest :=
  List.modifyTailIdx_add (List.modifyHead f) 0 front (a :: rest)

/-- It makes no difference to what is read whether the statement before it is in the background. -/
theorem read_close_ampersand (closed : List Statement) (statement : Statement) (flags : Flags)
    (tokens : List Token) :
    (Site.close ⟨closed, some statement, flags⟩ .ampersand).read tokens =
      ((Site.close ⟨closed, some statement, flags⟩ .semicolon).read tokens).inBackground
        closed.length := by
  have behind (last : Statement) : (⟨closed ++ [last], none, flags⟩ : Site) =
      Site.behind (closed ++ [last]) ⟨[], none, flags⟩ := by
    simp [Site.behind]
  have semicolon : Site.close ⟨closed, some statement, flags⟩ .semicolon = _ := behind statement
  have ampersand : Site.close ⟨closed, some statement, flags⟩ .ampersand = _ :=
    behind { statement with background := true }
  rw [semicolon, ampersand, Site.read_prefix, Site.read_prefix]
  simp [Reading.inBackground, modify_length]

theorem parse_line_of_closed {site : Site} (closed : site.current.isNone = true) {text : Word}
    {tokens : List Token} (scanned : Token.scan text = some tokens) :
    site.line.parse text = site.read tokens := by
  obtain ⟨statements, current, flags⟩ := site
  obtain rfl : current = none := Option.isNone_iff_eq_none.1 closed
  rw [parse_of_scan _ scanned]
  simp [Site.line]

theorem exists_reached_of_parse {line : Line} {text : Word} {tokens : List Token}
    (scanned : Token.scan text = some tokens) (reads : (line.parse text).error? = none)
    (exitFree : ExitFree true tokens) :
    ∃ reached : Site, reached.line = (line.parse text).line ∧
      reached.current.isNone = leavesClosed true tokens ∧
      (reached.current.isSome = true → reached.lacks = false) ∧
      ∀ (rest : Word) (more : List Token), Token.Spells more rest →
        (∀ last, tokens.getLast? = some (.word last) → Token.EndsWord rest) →
        line.parse (text ++ rest) = reached.read more := by
  have start := parse_of_scan line scanned
  rw [start] at reads ⊢
  obtain ⟨reached, goes_on, line_eq, isNone_eq, full⟩ := Site.exists_reached _ _ reads exitFree
  refine ⟨reached, line_eq, isNone_eq, full, fun rest more spells seam => ?_⟩
  have both := ((Token.spells_of_scan scanned).append spells seam).scan_eq
  rw [parse_of_scan line both, goes_on]

/-- Reading a text and then another one is reading both at once: next to each other if the first
one leaves no statement open, else with a semicolon between them. An ampersand in place of that
semicolon only puts the last statement of the first text in the background. -/
theorem parse_join (line : Line) {first second : Word} {tokens : List Token}
    (scanned : Token.scan first = some tokens) (reads : (line.parse first).error? = none)
    (exitFree : ExitFree true tokens) (scans : (Token.scan second).isSome = true) :
    (leavesClosed true tokens = true →
      line.parse (first ++ second) = (line.parse first).line.parse second) ∧
    (leavesClosed true tokens = false →
      line.parse (first ++ ';' :: second) = (line.parse first).line.parse second ∧
      line.parse (first ++ '&' :: second) = (line.parse (first ++ ';' :: second)).inBackground
        ((line.parse first).line.statements.length - 1)) := by
  obtain ⟨others, scanned_second⟩ := Option.isSome_iff_exists.1 scans
  have spells := Token.spells_of_scan scanned_second
  obtain ⟨reached, line_eq, isNone_eq, full, goes_on⟩ :=
    exists_reached_of_parse scanned reads exitFree
  rw [← line_eq]
  constructor
  · intro closed
    have seam : ∀ last, tokens.getLast? = some (.word last) → Token.EndsWord second := by
      intro last found
      simp [leavesClosed, found, endsStatement] at closed
    rw [goes_on second others spells seam,
      parse_line_of_closed (isNone_eq.trans closed) scanned_second]
  · intro opened
    obtain ⟨closed, _ | statement, flags⟩ := reached
    · rw [opened] at isNone_eq
      cases isNone_eq
    have full : Site.lacks ⟨closed, some statement, flags⟩ = false := full rfl
    have ended (terminator : Terminator) :
        line.parse (first ++ terminator.operator.char :: second) =
          (Site.close ⟨closed, some statement, flags⟩ terminator).read others := by
      have seam : ∀ last, tokens.getLast? = some (.word last) →
          Token.EndsWord (terminator.operator.char :: second) := by
        rintro last - _ ⟨⟩
        exact isWordChar_operator terminator.operator
      rw [goes_on _ _ (.operator terminator.operator spells) seam, Site.read_terminator, full,
        if_neg Bool.false_ne_true]
    have semicolon : line.parse (first ++ ';' :: second) = _ := ended .semicolon
    have ampersand : line.parse (first ++ '&' :: second) = _ := ended .ampersand
    have line_closed : Site.line ⟨closed, some statement, flags⟩ =
        (Site.close ⟨closed, some statement, flags⟩ .semicolon).line := by
      simp [Site.line, Site.close]
    have last_index : (Site.line ⟨closed, some statement, flags⟩).statements.length - 1 =
        closed.length := by
      simp [Site.line]
    refine ⟨?_, ?_⟩
    · rw [semicolon, line_closed, parse_line_of_closed rfl scanned_second]
    · rw [ampersand, semicolon, last_index, read_close_ampersand]

theorem parse_join_failing :
    Token.scan "a | b >o".toList = some [.word ['a'], .operator .pipe, .word ['b'],
        .operator .greater, .word ['o']] ∧
      (Line.parse {} "a | b >o".toList).error? = none ∧
      ExitFree true [.word ['a'], .operator .pipe, .word ['b'], .operator .greater, .word ['o']] ∧
      Line.parse {} "a | b >o;c;|d".toList =
        (Line.parse {} "a | b >o".toList).line.parse "c;|d".toList ∧
      Line.parse {} "a | b >o&c;|d".toList =
        (Line.parse {} "a | b >o;c;|d".toList).inBackground 0 := by
  have scanned : Token.scan "a | b >o".toList = some [.word ['a'], .operator .pipe, .word ['b'],
      .operator .greater, .word ['o']] := by
    decide +kernel
  have reads : (Line.parse {} "a | b >o".toList).error? = none := by decide +kernel
  have exitFree : ExitFree true [.word ['a'], .operator .pipe, .word ['b'], .operator .greater,
      .word ['o']] := by
    intro before after same
    have member : exitWord.token ∈ before ++ exitWord.token :: after := by simp
    rw [← same] at member
    exact absurd member (by decide)
  have scans : (Token.scan "c;|d".toList).isSome = true := by decide +kernel
  have joined := (parse_join {} scanned reads exitFree scans).2 rfl
  have last_index : (Line.parse {} "a | b >o".toList).line.statements.length - 1 = 0 := by
    decide +kernel
  rw [last_index] at joined
  exact ⟨scanned, reads, exitFree, joined.1, joined.2⟩

end Grammar

end PipelineShell
