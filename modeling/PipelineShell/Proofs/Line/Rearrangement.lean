import Mathlib.Data.List.Chain
import Mathlib.Logic.Relation
import PipelineShell.Proofs.Line.Seam
import PipelineShell.Proofs.Line.Writing

namespace PipelineShell

/-- Both texts are accepted and leave the same line, or both are rejected for the same reason. -/
def Reading.Agrees (reading reading' : Reading) : Prop :=
  reading.error? = reading'.error? ∧ (reading.error? = none → reading.line = reading'.line)

namespace Reading.Agrees

variable {first second third : Reading}

theorem refl (reading : Reading) : reading.Agrees reading := ⟨rfl, fun _ => rfl⟩

theorem symm (agrees : first.Agrees second) : second.Agrees first :=
  ⟨agrees.1.symm, fun accepted => (agrees.2 (agrees.1.trans accepted)).symm⟩

theorem trans (agrees : first.Agrees second) (agrees' : second.Agrees third) :
    first.Agrees third :=
  ⟨agrees.1.trans agrees'.1, fun accepted =>
    (agrees.2 accepted).trans (agrees'.2 (agrees.1.symm.trans accepted))⟩

theorem of_error {error : ParseError} (h : first.error? = some error)
    (h' : second.error? = some error) : first.Agrees second :=
  ⟨h.trans h'.symm, fun accepted => by simp [accepted] at h⟩

end Reading.Agrees

namespace Grammar

/-! ## Parts -/

inductive Part
  | item (item : Item)
  | bar
  | stray (direction : Direction)
deriving DecidableEq

namespace Part

def tokens : Part → List Token
  | .item written => written.tokens
  | .bar => [.operator .pipe]
  | .stray direction => [.operator direction.operator]

def isRedirection : Part → Bool
  | .item (.redirection ..) => true
  | .item (.argument _) | .bar | .stray _ => false

def target? (wanted : Direction) : Part → Option Word
  | .item written => written.target? wanted
  | .bar | .stray _ => none

def IsStray (part : Part) : Prop := ∃ direction, part = stray direction

def IsArgument (part : Part) : Prop := ∃ operand, part = item (.argument operand)

instance : DecidablePred IsStray
  | .stray direction => isTrue ⟨direction, rfl⟩
  | .item _ | .bar => isFalse nofun

instance : DecidablePred IsArgument
  | .item (.argument operand) => isTrue ⟨operand, rfl⟩
  | .item (.redirection ..) | .bar | .stray _ => isFalse nofun

end Part

def partTokens (parts : List Part) : List Token := parts.flatMap Part.tokens

def targets (direction : Direction) (parts : List Part) : List Word :=
  parts.filterMap (Part.target? direction)

def skeleton (parts : List Part) : List Part := parts.filter (!·.isRedirection)

/-- No operand follows a redirection without a path. -/
def IsDivided (parts : List Part) : Prop :=
  parts.IsChain fun part next => part.IsStray → ¬ next.IsArgument

instance (parts : List Part) : Decidable (IsDivided parts) :=
  inferInstanceAs (Decidable (parts.IsChain fun part next => part.IsStray → ¬ next.IsArgument))

structure IsStatement (parts : List Part) : Prop where
  divided : IsDivided parts
  notExit : parts.head? ≠ some (.item (.argument exitWord))

/-- One redirection is taken out and put in at another place. The redirections in each direction
keep their order. -/
inductive Moves : List Part → List Part → Prop
  | intro {front back front' back' : List Part} {direction : Direction} {target : Operand}
    (others : front ++ back = front' ++ back')
    (order : ∀ wanted,
      targets wanted (front ++ .item (.redirection direction target) :: back) =
        targets wanted (front' ++ .item (.redirection direction target) :: back')) :
    Moves (front ++ .item (.redirection direction target) :: back)
      (front' ++ .item (.redirection direction target) :: back')

def lastOnly : List Part → List Part
  | [] => []
  | .item (.redirection direction target) :: rest =>
    if targets direction rest = [] then .item (.redirection direction target) :: lastOnly rest
    else lastOnly rest
  | part :: rest => part :: lastOnly rest

/-- The same arguments and bars in the same order, and the same last path in each direction. -/
structure Rearranged (parts parts' : List Part) : Prop where
  skeleton_eq : skeleton parts = skeleton parts'
  last_eq : ∀ direction, (targets direction parts).getLast? = (targets direction parts').getLast?

section

variable {parts parts' : List Part}

theorem targets_append (direction : Direction) (front back : List Part) :
    targets direction (front ++ back) = targets direction front ++ targets direction back :=
  List.filterMap_append ..

theorem skeleton_insert (front back : List Part) (direction : Direction) (target : Operand) :
    skeleton (front ++ .item (.redirection direction target) :: back) = skeleton (front ++ back) := by
  simp [skeleton, Part.isRedirection]

theorem Moves.rearranged (moves : Moves parts parts') : Rearranged parts parts' := by
  obtain ⟨others, order⟩ := moves
  refine ⟨?_, fun direction => by rw [order]⟩
  rw [skeleton_insert, skeleton_insert, others]

theorem Rearranged.of_moves (moves : Relation.ReflTransGen Moves parts parts') :
    Rearranged parts parts' := by
  induction moves with
  | refl => exact ⟨rfl, fun _ => rfl⟩
  | tail _ move ih =>
    exact ⟨ih.skeleton_eq.trans move.rearranged.skeleton_eq,
      fun direction => (ih.last_eq direction).trans (move.rearranged.last_eq direction)⟩

theorem Rearranged.cons (same : Rearranged parts parts') (part : Part) :
    Rearranged (part :: parts) (part :: parts') := by
  refine ⟨?_, fun direction => ?_⟩
  · have skeleton_eq := same.skeleton_eq
    simp only [skeleton] at skeleton_eq ⊢
    rw [List.filter_cons, List.filter_cons, skeleton_eq]
  · have last_eq := same.last_eq direction
    simp only [targets] at last_eq ⊢
    cases target : part.target? direction with
    | none => rwa [List.filterMap_cons_none target, List.filterMap_cons_none target]
    | some path =>
      rw [List.filterMap_cons_some target, List.filterMap_cons_some target, List.getLast?_cons,
        List.getLast?_cons, last_eq]

theorem eq_nil_iff_skeleton : parts = [] ↔
    skeleton parts = [] ∧ ∀ direction, (targets direction parts).getLast? = none := by
  constructor
  · rintro rfl
    exact ⟨rfl, fun _ => rfl⟩
  · rintro ⟨bare, unredirected⟩
    cases parts with
    | nil => rfl
    | cons part parts =>
      rcases part with (operand | ⟨direction, target⟩) | _ | direction
      · cases bare
      · have redirected := List.getLast?_eq_none_iff.1 (unredirected direction)
        simp [targets, Part.target?, Item.target?] at redirected
      · cases bare
      · cases bare

theorem Rearranged.eq_nil_iff (same : Rearranged parts parts') : parts = [] ↔ parts' = [] := by
  simp only [@eq_nil_iff_skeleton parts, @eq_nil_iff_skeleton parts', same.skeleton_eq, same.last_eq]

theorem rearranged_lastOnly (parts : List Part) : Rearranged parts (lastOnly parts) := by
  fun_induction lastOnly parts with
  | case1 => exact ⟨rfl, fun _ => rfl⟩
  | case2 direction target rest alone ih => exact ih.cons _
  | case3 direction target rest followed ih =>
    refine ⟨?_, fun wanted => ?_⟩
    · rw [← ih.skeleton_eq]
      exact skeleton_insert [] rest direction target
    · rw [← ih.last_eq, ← List.singleton_append, targets_append, List.getLast?_append]
      by_cases same : wanted = direction
      · subst same
        rw [List.getLast?_eq_some_getLast followed]
        rfl
      · simp [targets, Part.target?, Item.target?, Ne.symm same]
  | case4 part rest other ih => exact ih.cons part

end

/-! ## What parts build -/

def assemble : Pipeline → List Part → Except ParseError Pipeline
  | pipeline, [] => .ok pipeline
  | pipeline, .item (.argument operand) :: rest => assemble (pipeline.push operand.value) rest
  | pipeline, .item (.redirection ..) :: rest => assemble pipeline rest
  | pipeline, .bar :: rest =>
    if pipeline.last.isEmpty then .error (.emptyCommand (some .pipe))
    else assemble pipeline.extend rest
  | _, .stray direction :: _ => .error (.missingTarget direction.operator)

theorem assemble_skeleton (pipeline : Pipeline) (parts : List Part) :
    assemble pipeline (skeleton parts) = assemble pipeline parts := by
  fun_induction assemble pipeline parts with
  | case1 => rfl
  | case2 pipeline operand rest ih => exact ih
  | case3 pipeline direction target rest ih => exact ih
  | case4 pipeline rest empty =>
    change assemble pipeline (.bar :: skeleton rest) = _
    rw [assemble, if_pos empty]
  | case5 pipeline rest full ih =>
    change assemble pipeline (.bar :: skeleton rest) = _
    rw [assemble, if_neg full, ih]
  | case6 => rfl

def redirected (statement : Statement) (parts : List Part) (pipeline : Pipeline) : Statement :=
  { statement with
    pipeline := pipeline
    input := (targets .input parts).getLast?.or statement.input
    output := (targets .output parts).getLast?.or statement.output }

theorem redirected_cons (statement : Statement) (item : Item) (parts : List Part)
    (pipeline : Pipeline) :
    redirected (addItem statement item) parts pipeline =
      redirected statement (.item item :: parts) pipeline := by
  cases item with
  | argument operand => rfl
  | redirection direction target =>
    cases direction <;>
      simp [redirected, addItem, targets, Part.target?, Item.target?, List.getLast?_cons]

def EndsHere (after : List Token) : Prop := ∀ token ∈ after.head?, endsStatement token = true

theorem partTokens_cons (part : Part) (parts : List Part) :
    partTokens (part :: parts) = part.tokens ++ partTokens parts :=
  List.flatMap_cons

section

variable {parts parts' : List Part} {after : List Token}

theorem EndsHere.not_operand (ends : EndsHere after) {direction : Direction}
    (divided : IsDivided (.stray direction :: parts)) (operand : Operand) :
    (partTokens parts ++ after).head? ≠ some operand.token := by
  intro first
  cases parts with
  | nil =>
    have ended := ends _ first
    cases operand <;> cases ended
  | cons part parts =>
    rcases part with (argument | ⟨next, target⟩) | _ | next
    · exact List.IsChain.rel divided ⟨direction, rfl⟩ ⟨argument, rfl⟩
    all_goals cases operand <;> cases first

namespace Site

def ReadsParts (closed : List Statement) (flags : Flags) (statement : Statement)
    (parts : List Part) (after : List Token) : Except ParseError Pipeline → Prop
  | .ok pipeline =>
    read ⟨closed, some statement, flags⟩ (partTokens parts ++ after) =
      read ⟨closed, some (redirected statement parts pipeline), flags⟩ after
  | .error error =>
    (read ⟨closed, some statement, flags⟩ (partTokens parts ++ after)).error? = some error

theorem ReadsParts.cons {closed : List Statement} {flags : Flags} {statement next : Statement}
    {part : Part} {result : Except ParseError Pipeline}
    (later : ReadsParts closed flags next parts after result)
    (goes_on : read ⟨closed, some statement, flags⟩ (part.tokens ++ (partTokens parts ++ after)) =
      read ⟨closed, some next, flags⟩ (partTokens parts ++ after))
    (same : ∀ pipeline, redirected next parts pipeline =
      redirected statement (part :: parts) pipeline) :
    ReadsParts closed flags statement (part :: parts) after result := by
  cases result with
  | ok pipeline =>
    rw [ReadsParts, partTokens_cons, List.append_assoc, goes_on, ← same]
    exact later
  | error error =>
    rw [ReadsParts, partTokens_cons, List.append_assoc, goes_on]
    exact later

theorem read_parts (closed : List Statement) (flags : Flags) (ends : EndsHere after)
    (divided : IsDivided parts) (statement : Statement) :
    ReadsParts closed flags statement parts after (assemble statement.pipeline parts) := by
  induction parts generalizing statement with
  | nil => rfl
  | cons part parts ih =>
    cases part with
    | item item =>
      have assembled : assemble statement.pipeline (.item item :: parts) =
          assemble (addItem statement item).pipeline parts := by
        rcases item with operand | ⟨_ | _, target⟩ <;> rfl
      rw [assembled]
      refine (ih divided.tail (addItem statement item)).cons ?_ (redirected_cons statement item parts)
      exact read_item ⟨closed, some statement, flags⟩ item _ fun h => by cases h
    | bar =>
      have bar := read_bar ⟨closed, some statement, flags⟩ (partTokens parts ++ after)
      rw [assemble]
      cases empty : statement.pipeline.last.isEmpty with
      | true =>
        have lacking : lacks ⟨closed, some statement, flags⟩ = true := empty
        rw [lacking, if_pos rfl] at bar
        exact congrArg Reading.error? bar
      | false =>
        have full : lacks ⟨closed, some statement, flags⟩ = false := empty
        rw [full, if_neg Bool.false_ne_true] at bar
        exact (ih divided.tail { statement with pipeline := statement.pipeline.extend }).cons bar
          fun pipeline => rfl
    | stray direction =>
      have dangling := read_dangling ⟨closed, some statement, flags⟩ direction _
        (ends.not_operand divided)
      exact congrArg Reading.error? dangling

theorem read_opened (closed : List Statement) (flags : Flags) (ends : EndsHere after)
    (isStatement : IsStatement parts) (nonempty : parts ≠ []) :
    (read ⟨closed, none, flags⟩ (partTokens parts ++ after)).Agrees
      (read ⟨closed, some {}, flags⟩ (partTokens parts ++ after)) := by
  obtain ⟨part, parts, rfl⟩ := List.exists_cons_of_ne_nil nonempty
  rw [partTokens_cons, List.append_assoc]
  cases part with
  | item item =>
    have start : item ≠ .argument exitWord := by
      rintro rfl
      exact isStatement.notExit rfl
    rw [Part.tokens, read_opening closed flags item _ start]
    exact .refl _
  | bar =>
    have bar (current : Option Statement) := read_bar ⟨closed, current, flags⟩ (partTokens parts ++ after)
    exact .of_error (congrArg Reading.error? (bar none)) (congrArg Reading.error? (bar (some {})))
  | stray direction =>
    have dangling (current : Option Statement) := read_dangling ⟨closed, current, flags⟩ direction _
      (ends.not_operand isStatement.divided)
    exact .of_error (congrArg Reading.error? (dangling none))
      (congrArg Reading.error? (dangling (some {})))

theorem agrees_of_rearranged (closed : List Statement) (flags : Flags) (ends : EndsHere after)
    (isStatement : IsStatement parts) (isStatement' : IsStatement parts')
    (same : Rearranged parts parts') :
    (read ⟨closed, none, flags⟩ (partTokens parts ++ after)).Agrees
      (read ⟨closed, none, flags⟩ (partTokens parts' ++ after)) := by
  by_cases empty : parts = []
  · rw [empty, same.eq_nil_iff.1 empty]
    exact .refl _
  · -- Both statements may be opened before their first part, whether or not it is a bar.
    refine (read_opened closed flags ends isStatement empty).trans
      (.trans ?_ (read_opened closed flags ends isStatement' (mt same.eq_nil_iff.2 empty)).symm)
    have reads := read_parts closed flags ends isStatement.divided {}
    have reads' := read_parts closed flags ends isStatement'.divided {}
    rw [← assemble_skeleton, same.skeleton_eq, assemble_skeleton] at reads
    cases assembled : assemble ({} : Statement).pipeline parts' with
    | error error =>
      rw [assembled] at reads reads'
      exact .of_error reads reads'
    | ok pipeline =>
      rw [assembled] at reads reads'
      have built : redirected {} parts pipeline = redirected {} parts' pipeline := by
        simp only [redirected, same.last_eq]
      rw [ReadsParts, built, ← reads'] at reads
      rw [reads]
      exact .refl _

end Site

end

/-! ## Tokens of a statement -/

def divide : List Token → List Part
  | [] => []
  | .word text :: rest => .item (.argument (.word text)) :: divide rest
  | .quoted mark body :: rest => .item (.argument (.quoted mark body)) :: divide rest
  | .operator .pipe :: rest => .bar :: divide rest
  | .operator .less :: .word path :: rest =>
    .item (.redirection .input (.word path)) :: divide rest
  | .operator .less :: .quoted mark path :: rest =>
    .item (.redirection .input (.quoted mark path)) :: divide rest
  | .operator .less :: rest => .stray .input :: divide rest
  | .operator .greater :: .word path :: rest =>
    .item (.redirection .output (.word path)) :: divide rest
  | .operator .greater :: .quoted mark path :: rest =>
    .item (.redirection .output (.quoted mark path)) :: divide rest
  | .operator .greater :: rest => .stray .output :: divide rest
  | .operator .semicolon :: rest | .operator .ampersand :: rest => divide rest

structure IsSingle (tokens : List Token) : Prop where
  unended : ∀ token ∈ tokens, endsStatement token = false
  notExit : tokens.head? ≠ some exitWord.token

theorem partTokens_divide {tokens : List Token}
    (unended : ∀ token ∈ tokens, endsStatement token = false) :
    partTokens (divide tokens) = tokens := by
  fun_induction divide tokens with
  | case1 => rfl
  | case11 | case12 => simp [endsStatement] at unended
  | _ =>
    simp_all [partTokens_cons, Part.tokens, Item.tokens, Operand.token, Direction.operator]

theorem head?_divide {tokens : List Token}
    (unended : ∀ token ∈ tokens, endsStatement token = false) {operand : Operand}
    (first : (divide tokens).head? = some (.item (.argument operand))) :
    tokens.head? = some operand.token := by
  have same := partTokens_divide unended
  obtain ⟨parts, divided⟩ := List.head?_eq_some_iff.1 first
  rw [divided, partTokens_cons] at same
  rw [← same]
  rfl

theorem IsDivided.cons {part : Part} {parts : List Part} (divided : IsDivided parts)
    (h : ∀ direction operand, part = .stray direction →
      parts.head? ≠ some (.item (.argument operand))) : IsDivided (part :: parts) := by
  refine List.isChain_cons.2 ⟨?_, divided⟩
  rintro _ first ⟨direction, rfl⟩ ⟨operand, rfl⟩
  exact h direction operand rfl first

theorem isDivided_divide {tokens : List Token}
    (unended : ∀ token ∈ tokens, endsStatement token = false) : IsDivided (divide tokens) := by
  fun_induction divide tokens with
  | case1 => exact .nil
  | case11 | case12 => simp [endsStatement] at unended
  | case7 rest no_word no_quoted ih | case10 rest no_word no_quoted ih =>
    -- A path is an operand, so an operand behind the sign would have been its path.
    obtain ⟨-, unended⟩ := List.forall_mem_cons.1 unended
    refine (ih unended).cons fun _ operand _ first => ?_
    obtain ⟨others, rfl⟩ := List.head?_eq_some_iff.1 (head?_divide unended first)
    cases operand with
    | word path => exact no_word path others rfl
    | quoted mark path => exact no_quoted mark path others rfl
  | _ =>
    refine IsDivided.cons ?_ fun _ _ stray => by cases stray
    simp_all

theorem IsDivided.isStatement {parts : List Part} (divided : IsDivided parts)
    (notExit : (partTokens parts).head? ≠ some exitWord.token) : IsStatement parts := by
  refine ⟨divided, fun first => notExit ?_⟩
  obtain ⟨others, rfl⟩ := List.head?_eq_some_iff.1 first
  rw [partTokens_cons]
  rfl

theorem IsSingle.isStatement {tokens : List Token} (single : IsSingle tokens) :
    IsStatement (divide tokens) := by
  refine (isDivided_divide single.unended).isStatement ?_
  rw [partTokens_divide single.unended]
  exact single.notExit

/-! ## Statements in their line -/

theorem Site.read_before (site : Site) {before : List Token}
    (closes : leavesClosed site.current.isNone before = true) :
    (∃ reading, ∀ more, site.read (before ++ more) = reading) ∨
      ∃ closed flags, ∀ more, site.read (before ++ more) = read ⟨closed, none, flags⟩ more := by
  induction before using tokens_induction generalizing site with
  | nil =>
    obtain ⟨closed, _ | statement, flags⟩ := site
    · exact .inr ⟨closed, flags, fun more => rfl⟩
    · cases closes
  | item item rest ih =>
    rw [leavesClosed_append, leavesClosed_item] at closes
    by_cases exits : site.current = none ∧ item = .argument exitWord
    · obtain ⟨closed, rfl⟩ := exits
      exact .inl ⟨_, fun more => read_exit site (rest ++ more) closed⟩
    · have goes_on (more : List Token) :
          site.read (item.tokens ++ rest ++ more) = (site.add item).read (rest ++ more) := by
        rw [List.append_assoc]
        exact read_item site item _ fun closed same => exits ⟨closed, same⟩
      simpa only [goes_on] using ih (site.add item) closes
  | bar rest ih =>
    rw [← List.singleton_append, leavesClosed_append, leavesClosed_bar] at closes
    simp only [List.cons_append, read_bar]
    cases full : site.lacks with
    | true => exact .inl ⟨_, fun more => rfl⟩
    | false =>
      have opened : site.extend.current.isNone = false := by
        obtain ⟨closed, _ | statement, flags⟩ := site
        · cases full
        · rfl
      exact ih site.extend (by rwa [opened])
  | terminator terminator rest ih =>
    rw [← List.singleton_append, leavesClosed_append, leavesClosed_terminator] at closes
    simp only [List.cons_append, read_terminator]
    cases full : site.lacks with
    | true => exact .inl ⟨_, fun more => rfl⟩
    | false =>
      have closed : (site.close terminator).current.isNone = true := by cases terminator <;> rfl
      exact ih (site.close terminator) (by rwa [closed])
  | dangling direction rest noTarget =>
    have nonempty : rest ≠ [] := by
      rintro rfl
      cases direction <;> cases closes
    refine .inl ⟨_, fun more => read_dangling site direction (rest ++ more) fun operand => ?_⟩
    rw [List.head?_append_of_ne_nil _ nonempty]
    exact noTarget operand

/-- A redirection may be moved to any other place in its statement, across bars, to the front and
to the end, as long as those in its direction keep their order; and all redirections but the last
one in each direction may be dropped. None may be taken away, though, from between a redirection
sign without a path and an argument, which would become the path. -/
theorem redirections_stand_anywhere (line : Line) {before after statement : List Token}
    {parts : List Part} (starts : leavesClosed true before = true) (ends : EndsHere after)
    (single : IsSingle statement)
    (changed : Relation.ReflTransGen Moves (divide statement) parts ∨
      parts = lastOnly (divide statement))
    (divided : IsDivided parts) (notExit : (partTokens parts).head? ≠ some exitWord.token)
    {text text' : Word} (scanned : Token.scan text = some (before ++ (statement ++ after)))
    (scanned' : Token.scan text' = some (before ++ (partTokens parts ++ after))) :
    (line.parse text).Agrees (line.parse text') := by
  have same : Rearranged (divide statement) parts := by
    rcases changed with moves | rfl
    · exact .of_moves moves
    · exact rearranged_lastOnly _
  rw [parse_of_scan line scanned, parse_of_scan line scanned']
  rcases Site.read_before ⟨line.statements, none, line.flags⟩ starts with
    ⟨reading, stops⟩ | ⟨closed, flags, goes_on⟩
  · rw [stops, stops]
    exact .refl _
  · have agrees := Site.agrees_of_rearranged closed flags ends single.isStatement
      (divided.isStatement notExit) same
    rw [partTokens_divide single.unended] at agrees
    rwa [goes_on, goes_on]

def argumentPart (c : Char) : Part := .item (.argument (.word [c]))

def redirectionPart (direction : Direction) (c : Char) : Part :=
  .item (.redirection direction (.word [c]))

theorem redirections_stand_anywhere_across_bar :
    (Line.parse {} "x;a<i|b>o<j&c".toList).error? = none ∧
      (Line.parse {} "x;a<i|b>o<j&c".toList).Agrees (Line.parse {} "x;a|b>o<i<j&c".toList) ∧
      (Line.parse {} "x;a<i|b>o<j&c".toList).Agrees (Line.parse {} "x;a|b>o<j&c".toList) := by
  let front : List Token := [.word ['x'], .operator .semicolon]
  let back : List Token := [.operator .ampersand, .word ['c']]
  let behind := [.bar, argumentPart 'b', redirectionPart .output 'o']
  let last := [redirectionPart .input 'j']
  let parts := argumentPart 'a' :: redirectionPart .input 'i' :: (behind ++ last)
  let moved := argumentPart 'a' :: (behind ++ redirectionPart .input 'i' :: last)
  let dropped := argumentPart 'a' :: (behind ++ last)
  have single : IsSingle (partTokens parts) := ⟨by decide, by decide⟩
  have ends : EndsHere back := by
    rintro _ ⟨⟩
    rfl
  have moves : Moves (divide (partTokens parts)) moved :=
    @Moves.intro [argumentPart 'a'] (behind ++ last) (argumentPart 'a' :: behind) last .input
      (.word ['i']) rfl fun wanted => by cases wanted <;> rfl
  have scanned : Token.scan "x;a<i|b>o<j&c".toList =
      some (front ++ (partTokens parts ++ back)) := by
    decide +kernel
  have scanned_moved : Token.scan "x;a|b>o<i<j&c".toList =
      some (front ++ (partTokens moved ++ back)) := by
    decide +kernel
  have scanned_dropped : Token.scan "x;a|b>o<j&c".toList =
      some (front ++ (partTokens dropped ++ back)) := by
    decide +kernel
  refine ⟨by decide +kernel, ?_, ?_⟩
  · exact redirections_stand_anywhere {} rfl ends single (.inl (.single moves)) (by decide)
      (by decide) scanned scanned_moved
  · exact redirections_stand_anywhere {} rfl ends single (.inr rfl) (by decide) (by decide)
      scanned scanned_dropped

/-- Behind a redirection sign without a path, a redirection keeps the argument that follows it from
being taken for the path. -/
theorem sign_takes_argument :
    (¬ ∀ (statement : List Token) (parts : List Part) (text text' : Word), IsSingle statement →
      Moves (divide statement) parts → (partTokens parts).head? ≠ some exitWord.token →
      Token.scan text = some statement → Token.scan text' = some (partTokens parts) →
      (Line.parse {} text).Agrees (Line.parse {} text')) ∧
    ¬ ∀ (statement : List Token) (text text' : Word), IsSingle statement →
      (partTokens (lastOnly (divide statement))).head? ≠ some exitWord.token →
      Token.scan text = some statement →
      Token.scan text' = some (partTokens (lastOnly (divide statement))) →
      (Line.parse {} text).Agrees (Line.parse {} text') := by
  constructor
  · intro claim
    let parts := [argumentPart 'x', .stray .output, redirectionPart .input 'a', argumentPart 'b']
    have moves : Moves (divide (partTokens parts))
        [argumentPart 'x', .stray .output, argumentPart 'b', redirectionPart .input 'a'] :=
      @Moves.intro [argumentPart 'x', .stray .output] [argumentPart 'b']
        [argumentPart 'x', .stray .output, argumentPart 'b'] [] .input (.word ['a']) rfl
        fun wanted => by cases wanted <;> rfl
    have agrees := claim (partTokens parts) _ "x > < a b".toList "x > b < a".toList
      ⟨by decide, by decide⟩ moves (by decide) (by decide +kernel) (by decide +kernel)
    revert agrees
    rw [Reading.Agrees]
    decide +kernel
  · intro claim
    let parts := [argumentPart 'x', .stray .output, redirectionPart .input 'a', argumentPart 'b',
      redirectionPart .input 'c']
    have agrees := claim (partTokens parts) "x > < a b < c".toList "x > b < c".toList
      ⟨by decide, by decide⟩ (by decide) (by decide +kernel) (by decide +kernel)
    revert agrees
    rw [Reading.Agrees]
    decide +kernel

end Grammar

end PipelineShell
