import PipelineShell.Proofs.Interpreter.Terminal
import PipelineShell.Proofs.Text.Utf8

namespace PipelineShell

open PipelineShell.Action

def Event.input : Event → List UInt8
  | .answered (.read source _) (.ok data) =>
    if source == standardInput then data.data.toList else []
  | _ => []

def inputOf (events : List Event) : List UInt8 := events.flatMap Event.input

theorem inputOf_cons (event : Event) (events : List Event) :
    inputOf (event :: events) = event.input ++ inputOf events := List.flatMap_cons

theorem inputOf_append (first second : List Event) :
    inputOf (first ++ second) = inputOf first ++ inputOf second := List.flatMap_append

theorem Event.input_of_deaf {event : Event} (deaf : event.readsInput = false) :
    event.input = [] := by
  unfold Event.input
  split
  · next source _ data =>
    have other : (source == standardInput) = false := deaf
    rw [other, if_neg Bool.false_ne_true]
  · rfl

theorem inputOf_deaf {events : List Event} (deaf : ∀ event ∈ events, event.readsInput = false) :
    inputOf events = [] :=
  List.flatMap_eq_nil_iff.2 fun event member => Event.input_of_deaf (deaf event member)

namespace Fed

variable {unread taken left : List UInt8} {events : List Event}

theorem inputOf_sublist (fed : Fed unread events taken left) : (inputOf events).Sublist unread := by
  induction fed with
  | nil => exact List.nil_sublist _
  | read fits at_end rest ih => exact (List.Sublist.refl _).append ih
  | interrupted rest ih => exact ih
  | other deaf rest ih =>
    rw [inputOf_cons, Event.input_of_deaf deaf, List.nil_append]
    exact ih.trans (List.sublist_append_right ..)

theorem eq_of_alone (fed : Fed unread events taken left) (alone : taken = []) :
    unread = inputOf events ++ left := by
  induction fed with
  | nil => rfl
  | read fits at_end rest ih =>
    rw [ih alone, inputOf_cons, List.append_assoc]
    rfl
  | interrupted rest ih => exact ih alone
  | other deaf rest ih =>
    obtain ⟨rfl, rfl⟩ := List.append_eq_nil_iff.1 alone
    rw [ih rfl, inputOf_cons, Event.input_of_deaf deaf]
    rfl

end Fed

namespace Input

variable {line after after' : List UInt8} {events : List Event} {turns : Nat}

theorem CutsOff.ends (cuts : CutsOff line after) :
    (∃ front, Input.newline ∉ front ∧ line = front ++ [Input.newline]) ∨
      Input.newline ∉ line ∧ after = [] := by
  induction cuts with
  | newline after => exact .inl ⟨[], List.not_mem_nil, rfl⟩
  | at_end => exact .inr ⟨List.not_mem_nil, rfl⟩
  | @cons byte line after other _ ih =>
    rcases ih with ⟨front, inside, rfl⟩ | ⟨inside, rfl⟩
    · exact .inl ⟨byte :: front, by simp [inside, Ne.symm other], rfl⟩
    · exact .inr ⟨by simp [inside, Ne.symm other], rfl⟩

theorem CutsOff.of_rest (cuts : CutsOff line after) (same : after = [] → after' = []) :
    CutsOff line after' := by
  rcases cuts.ends with ⟨front, inside, rfl⟩ | ⟨inside, rfl⟩
  · exact cutsOff_concat inside after'
  · obtain rfl := same rfl
    exact cutsOff_rest inside

theorem decodeLossy_newline (front back : List UInt8) :
    Utf8.decodeLossy (front ++ newline :: back) =
      Utf8.decodeLossy front ++ '\n' :: Utf8.decodeLossy back :=
  Utf8.decodeLossy_append_ascii (by decide) front back

theorem newline_not_mem_decodeLossy {bytes : List UInt8} (inside : newline ∉ bytes) :
    '\n' ∉ Utf8.decodeLossy bytes :=
  fun member => inside (Utf8.mem_of_mem_decodeLossy (v := 0x0a) (by decide) member)

theorem CutsOff.decodeLossy_append (cuts : CutsOff line after) :
    Utf8.decodeLossy (line ++ after) = Utf8.decodeLossy line ++ Utf8.decodeLossy after := by
  rcases cuts.ends with ⟨front, -, rfl⟩ | ⟨-, rfl⟩
  · rw [List.append_assoc, List.singleton_append, decodeLossy_newline, decodeLossy_newline,
      Utf8.decodeLossy_nil, List.append_assoc, List.singleton_append]
  · rw [List.append_nil, Utf8.decodeLossy_nil, List.append_nil]

/-- Texts that are lines: each ends with its only newline, but for the last one, which may have
none. -/
inductive AreLines : List Word → Prop
  | nil : AreLines []
  | last {text : Word} (some : text ≠ []) (inside : '\n' ∉ text) : AreLines [text]
  | cons {front : Word} {texts : List Word} (inside : '\n' ∉ front) (others : AreLines texts) :
    AreLines ((front ++ ['\n']) :: texts)

theorem AreLines.eq_nil {texts : List Word} (lines : AreLines texts) (nothing : texts.flatten = []) :
    texts = [] := by
  cases lines with
  | nil => rfl
  | last some => exact absurd (by simpa using nothing) some
  | cons => simp at nothing

/-- The calls that read a script to its end, with the texts that they give. Between two of them the
process may do anything but read. -/
inductive ReadsScript (turns : Nat) : List Event → List Word → Prop
  | at_end {events : List Event} (run : Runs (scriptLine turns) events (.value (.ok none))) :
    ReadsScript turns events []
  | line {text : Word} {texts : List Word} {reading between events : List Event}
    (run : Runs (scriptLine turns) reading (.value (.ok (some text))))
    (deaf : ∀ event ∈ between, event.readsInput = false) (others : ReadsScript turns events texts) :
    ReadsScript turns (reading ++ (between ++ events)) (text :: texts)

theorem ReadsLine.inputOf_eq (reads : ReadsLine line after events) : inputOf events = line := by
  induction reads with
  | newline | at_end => rfl
  | byte other rest ih => rw [inputOf_cons, ih]; rfl
  | interrupted rest ih => exact ih

theorem passedOn_nil : passedOn [] = .ok none := rfl

theorem passedOn_of_ne_nil (some : line ≠ []) :
    passedOn line = .ok (.some (Utf8.decodeLossy line)) := by
  rw [passedOn, if_neg some]

theorem exists_cutsOff (input : List UInt8) :
    ∃ line after, CutsOff line after ∧ input = line ++ after := by
  induction input with
  | nil => exact ⟨[], [], .at_end, rfl⟩
  | cons byte input ih =>
    by_cases ends : byte = newline
    · exact ⟨[newline], input, .newline input, by rw [ends]; rfl⟩
    · obtain ⟨line, after, cuts, rfl⟩ := ih
      exact ⟨byte :: line, after, .cons ends cuts, rfl⟩

theorem CutsOff.exists_reads (cuts : CutsOff line after) :
    ∃ events, ReadsLine line after events ∧ events.length ≤ line.length + 1 := by
  induction cuts with
  | newline after => exact ⟨_, .newline after, Nat.le_succ 1⟩
  | at_end => exact ⟨_, .at_end, Nat.le_refl 1⟩
  | cons other _ ih =>
    obtain ⟨events, reads, short⟩ := ih
    exact ⟨_, .byte other reads, Nat.succ_le_succ short⟩

theorem exists_readsScript (input : List UInt8) (enough : input.length < turns) :
    ∃ events texts, Fed input events [] [] ∧ ReadsScript turns events texts := by
  obtain ⟨line, after, cuts, rfl⟩ := exists_cutsOff input
  obtain ⟨events, reads, short⟩ := cuts.exists_reads
  rw [List.length_append] at enough
  have run : Runs (scriptLine turns) events (.value (passedOn line)) := reads.runs (by omega)
  by_cases last : line = []
  · obtain rfl : after = [] := by simpa [last] using cuts.at_end_iff.1 last
    subst last
    exact ⟨events, [], reads.fed, .at_end run⟩
  · have shorter : after.length < (line ++ after).length := by
      rw [List.length_append]
      exact Nat.lt_add_of_pos_left (List.length_pos_iff.2 last)
    obtain ⟨others, texts, fed, reads_others⟩ := exists_readsScript after (by omega)
    rw [passedOn_of_ne_nil last] at run
    exact ⟨events ++ ([] ++ others), _, reads.fed.append fed, .line run nofun reads_others⟩
termination_by input.length

theorem ReadsScript.decodes {texts : List Word} {unread taken left : List UInt8}
    (reads : ReadsScript turns events texts) (fed : Fed unread events taken left) :
    left = [] ∧ texts.flatten = Utf8.decodeLossy (inputOf events) ∧ AreLines texts := by
  induction reads generalizing unread taken with
  | at_end run =>
    obtain ⟨rfl, line, rfl, takes⟩ := takes_line run fed
    cases takes with
    | whole reads same =>
      by_cases last : line = []
      · subst last
        cases reads.cuts
        rw [reads.inputOf_eq, Utf8.decodeLossy_nil]
        exact ⟨rfl, rfl, .nil⟩
      · rw [passedOn_of_ne_nil last] at same
        cases same
  | @line text texts reading between events run deaf others ih =>
    obtain ⟨lost, after, taken, rfl, fed_line, fed⟩ := fed.split
    obtain ⟨lost', shared, taken, rfl, fed_between, fed_others⟩ := fed.split
    obtain ⟨nothing_left, whole, lines⟩ := ih fed_others
    obtain ⟨rfl, line, rfl, takes⟩ := takes_line run fed_line
    obtain rfl := fed_between.eq_of_deaf deaf
    cases takes with
    | whole reads same =>
      by_cases last : line = []
      · rw [last, passedOn_nil] at same
        cases same
      rw [passedOn_of_ne_nil last] at same
      obtain rfl : text = Utf8.decodeLossy line := by simpa using same
      have cuts : CutsOff line (inputOf events) := reads.cuts.of_rest fun nothing => by
        obtain ⟨-, rfl⟩ := List.append_eq_nil_iff.1 nothing
        exact List.sublist_nil.1 fed_others.inputOf_sublist
      have input : inputOf (reading ++ (between ++ events)) = line ++ inputOf events := by
        rw [inputOf_append, inputOf_append, reads.inputOf_eq, inputOf_deaf deaf, List.nil_append]
      refine ⟨nothing_left, ?_, ?_⟩
      · rw [input, cuts.decodeLossy_append, List.flatten_cons, whole]
      · rcases cuts.ends with ⟨front, inside, rfl⟩ | ⟨inside, nothing⟩
        · rw [decodeLossy_newline, Utf8.decodeLossy_nil]
          exact .cons (newline_not_mem_decodeLossy inside) lines
        · rw [nothing, Utf8.decodeLossy_nil] at whole
          rw [lines.eq_nil whole]
          exact .last (Utf8.decodeLossy_ne_nil last) (newline_not_mem_decodeLossy inside)

/-- Every script can be read to its end. Whatever other programs take of it meanwhile, the texts of
its lines, put together, are what the bytes that were read show as a whole: each maximal ill-formed
part is one U+FFFD, and well-formed bytes are left as they are. -/
theorem decodes_line_by_line (turns : Nat) (input : List UInt8) :
    (input.length < turns →
      ∃ events texts, Fed input events [] [] ∧ ReadsScript turns events texts) ∧
    ∀ events texts taken left, Fed input events taken left → ReadsScript turns events texts →
      left = [] ∧ (taken = [] → inputOf events = input) ∧
      texts.flatten = Utf8.decodeLossy (inputOf events) ∧
      Utf8.Shows (inputOf events) texts.flatten ∧ AreLines texts ∧
      ((inputOf events).toByteArray.IsValidUTF8 →
        Utf8.encode texts.flatten = (inputOf events).toByteArray) := by
  refine ⟨exists_readsScript input, ?_⟩
  intro events texts taken left fed reads
  obtain ⟨rfl, whole, lines⟩ := reads.decodes fed
  refine ⟨rfl, fun alone => ?_, whole, ?_, lines, fun wellFormed => ?_⟩
  · rw [fed.eq_of_alone alone, List.append_nil]
  · exact Utf8.decodeLossy_eq_iff.1 whole.symm
  · rw [whole, Utf8.encode_decodeLossy wellFormed]

def byteRead (byte : UInt8) : Event := .answered (.read standardInput 1) (.ok ⟨#[byte]⟩)

def truncatedRun : List Event :=
  [byteRead 0x61, byteRead 0xe2, .answered (.read standardInput 1) (.error .interrupted),
    byteRead 0x82, byteRead newline] ++
  ([.answered .currentDirectory (.ok "/")] ++
  ([byteRead 0x80, byteRead 0xc3, byteRead 0xa9,
    .answered (.read standardInput 1) (.ok ByteArray.empty)] ++
  ([] ++ [.answered (.read standardInput 1) (.ok ByteArray.empty)])))

theorem readsLine_truncated (after : List UInt8) :
    ReadsLine [0x61, 0xe2, 0x82, newline] after [byteRead 0x61, byteRead 0xe2,
      .answered (.read standardInput 1) (.error .interrupted), byteRead 0x82, byteRead newline] :=
  .byte (by decide) (.byte (by decide) (.interrupted (.byte (by decide) (.newline after))))

theorem readsLine_unclosed :
    ReadsLine [0x80, 0xc3, 0xa9] [] [byteRead 0x80, byteRead 0xc3, byteRead 0xa9,
      .answered (.read standardInput 1) (.ok ByteArray.empty)] :=
  .byte (by decide) (.byte (by decide) (.byte (by decide) .at_end))

theorem fed_truncatedRun :
    Fed [0x61, 0xe2, 0x82, newline, 0x78, 0x80, 0xc3, 0xa9] truncatedRun [0x78] [] :=
  (readsLine_truncated _).fed.append <|
    (@Fed.other _ [0x78] [0x80, 0xc3, 0xa9] [] _ [] rfl (.nil _)).append <|
      readsLine_unclosed.fed.append <| (Fed.nil []).append ReadsLine.at_end.fed

theorem readsScript_truncatedRun :
    ReadsScript 6 truncatedRun [['a', '\ufffd', '\n'], ['\ufffd', 'é']] := by
  have first : passedOn [0x61, 0xe2, 0x82, newline] = .ok (some ['a', '\ufffd', '\n']) := by
    decide +kernel
  have second : passedOn [0x80, 0xc3, 0xa9] = .ok (some ['\ufffd', 'é']) := by decide +kernel
  have run_first : Runs (scriptLine 6) _ (.value (passedOn [0x61, 0xe2, 0x82, newline])) :=
    (readsLine_truncated []).runs (by decide)
  have run_second : Runs (scriptLine 6) _ (.value (passedOn [0x80, 0xc3, 0xa9])) :=
    readsLine_unclosed.runs (by decide)
  rw [first] at run_first
  rw [second] at run_second
  exact .line run_first (by decide) (.line run_second nofun (.at_end (ReadsLine.at_end.runs
    (by decide))))

theorem decodes_line_by_line_truncated :
    Fed [0x61, 0xe2, 0x82, newline, 0x78, 0x80, 0xc3, 0xa9] truncatedRun [0x78] [] ∧
    ReadsScript 6 truncatedRun [['a', '\ufffd', '\n'], ['\ufffd', 'é']] ∧
    ['a', '\ufffd', '\n', '\ufffd', 'é'] = Utf8.decodeLossy (inputOf truncatedRun) ∧
    Utf8.Shows (inputOf truncatedRun) ['a', '\ufffd', '\n', '\ufffd', 'é'] ∧
    AreLines [['a', '\ufffd', '\n'], ['\ufffd', 'é']] ∧
    ∃ events texts, Fed [0xc3, 0xa9, newline] events [] [] ∧ ReadsScript 6 events texts ∧
      inputOf events = [0xc3, 0xa9, newline] ∧
      Utf8.encode texts.flatten = [0xc3, 0xa9, newline].toByteArray := by
  obtain ⟨-, -, whole, shows_whole, lines, -⟩ :=
    (decodes_line_by_line 6 _).2 _ _ _ _ fed_truncatedRun readsScript_truncatedRun
  obtain ⟨events, texts, fed, reads⟩ :=
    (decodes_line_by_line 6 [0xc3, 0xa9, newline]).1 (by decide)
  obtain ⟨-, alone, -, -, -, encodes⟩ := (decodes_line_by_line 6 _).2 _ _ _ _ fed reads
  have wellFormed : [0xc3, 0xa9, newline].toByteArray.IsValidUTF8 := ⟨['é', '\n'], rfl⟩
  rw [alone rfl] at encodes
  exact ⟨fed_truncatedRun, readsScript_truncatedRun, whole, shows_whole, lines, events, texts, fed,
    reads, alone rfl, encodes wellFormed⟩

end Input

end PipelineShell
