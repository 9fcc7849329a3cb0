import PipelineShell.Channel
import PipelineShell.Proofs.Containment
import PipelineShell.Proofs.System.Law

namespace PipelineShell

open PipelineShell.Action

namespace Errno

theorem number_le (errno : Errno) : errno.number ≤ 133 := by
  have entries_le : ∀ entry ∈ entries, entry.number ≤ 133 := by decide +kernel
  have known := errno.known
  simp only [isKnown, Bool.or_eq_true, beq_iff_eq, List.any_eq_true] at known
  rcases known with zero | ⟨entry, member, same⟩
  · omega
  · exact same ▸ entries_le entry member

@[simp] theorem ofRaw_number (errno : Errno) : ofRaw errno.number = errno := by
  simp [ofRaw, errno.known]

theorem ofBytes?_toBytes (errno : Errno) : ofBytes? errno.toBytes = some errno := by
  have bound := errno.number_le
  have value : (UInt8.ofNat errno.number).toNat +
      (UInt8.ofNat (errno.number / 0x100)).toNat * 0x100 +
      (UInt8.ofNat (errno.number / 0x10000)).toNat * 0x10000 +
      (UInt8.ofNat (errno.number / 0x1000000)).toNat * 0x1000000 = errno.number := by
    simp only [UInt8.toNat_ofNat']
    omega
  have signed : Int.bmod errno.number 0x100000000 = errno.number :=
    Int.bmod_eq_of_le (by omega) (by omega)
  simp only [ofBytes?, toBytes, value, signed, ofRaw_number]

theorem ofBytes?_eq_none {bytes : ByteArray} (short : bytes.size < 4) : ofBytes? bytes = none := by
  rw [← ByteArray.size_data, ← Array.length_toList] at short
  unfold ofBytes?
  split
  · rename_i all
    simp [all] at short
  · rfl

@[simp] theorem length_toBytes (errno : Errno) : errno.toBytes.data.toList.length = 4 := rfl

end Errno

variable {descriptor : Descriptor} {events : List Event}

def IsWrite (descriptor : Descriptor) (size : Nat) (request : Call) : Prop :=
  ∃ data, request = .write descriptor data ∧ data.size ≤ size

theorem IsWrite.mono {size size' : Nat} (le : size ≤ size') {request : Call} :
    IsWrite descriptor size request → IsWrite descriptor size' request
  | ⟨data, same, bound⟩ => ⟨data, same, Nat.le_trans bound le⟩

theorem onlyReports_of_writes {size : Nat} {rest : List Event}
    (only : Only (IsWrite descriptor size) events) (reports : OnlyReports descriptor rest) :
    OnlyReports descriptor (events ++ rest) := by
  induction events with
  | nil => exact reports
  | cons event events ih =>
    cases event with
    | answered request reply =>
      obtain ⟨⟨data, rfl, -⟩, others⟩ := only_answered.1 only
      exact .write (ih others)
    | forked pid child fate => exact absurd only not_only_forked

theorem Only.writes_le {size : Nat} (only : Only (IsWrite descriptor size) events)
    {write : Descriptor × ByteArray} (member : write ∈ writes events) : write.2.size ≤ size := by
  obtain ⟨data, same, bound⟩ := only.of_mem_writes member
  cases same
  exact bound

theorem not_closed_of_writes {size : Nat} (only : Only (IsWrite descriptor size) events)
    {target : Descriptor} {reply : Except Errno Unit} :
    .answered (.close target) reply ∉ events := by
  intro member
  obtain ⟨_, _, same, data, rfl, -⟩ := only _ member
  cases same

theorem runs_writeLoop {turns : Nat} {data : ByteArray}
    {outcome : Outcome (Except Errno Unit)}
    (run : Runs (loop (writeTurn descriptor) turns data) events outcome) :
    Only (IsWrite descriptor data.size) events ∧ sent descriptor events <+: data.data.toList ∧
      (Accepts descriptor events → ∀ value, outcome = .value value →
        sent descriptor events = data.data.toList) := by
  induction turns generalizing data events with
  | zero =>
    cases run
    exact ⟨only_nil, by simp [sent], nofun⟩
  | succ turns ih =>
    rw [loop_succ, writeTurn] at run
    split at run
    · rename_i empty
      obtain ⟨rfl, rfl⟩ := runs_done_iff.1 run
      obtain rfl : data = ByteArray.empty := by simpa [ByteArray.isEmpty] using empty
      exact ⟨only_nil, by simp [sent], fun _ _ _ => rfl⟩
    · rename_i nonempty
      have positive : 0 < data.size := by
        simpa [ByteArray.isEmpty, Nat.pos_iff_ne_zero] using nonempty
      have write : IsWrite descriptor data.size (.write descriptor data) :=
        ⟨data, rfl, Nat.le_refl _⟩
      rw [Action.bind_assoc] at run
      rcases (runs_perform_bind_iff rfl).1 run with ⟨rfl, rfl⟩ | ⟨reply, rest, rfl, again⟩
      · exact ⟨only_nil, by simp [sent], nofun⟩
      rcases reply with errno | _ | count
      · by_cases interrupted : errno = .interrupted
        · simp only [interrupted, if_true, pure_eq, done_bind] at again
          obtain ⟨only, reaches, all⟩ := ih again
          exact ⟨only_answered.2 ⟨write, only⟩, reaches, fun accepts => all accepts.of_cons⟩
        · simp only [interrupted, if_false, pure_eq, done_bind] at again
          obtain ⟨rfl, rfl⟩ := runs_done_iff.1 again
          refine ⟨only_answered.2 ⟨write, only_nil⟩, by simp [sent], fun accepts => ?_⟩
          have taken := accepts data _ (List.mem_cons_self ..) positive
          simp [interrupted] at taken
      · obtain ⟨rfl, rfl⟩ := runs_done_iff.1 again
        refine ⟨only_answered.2 ⟨write, only_nil⟩, by simp [sent], fun accepts => ?_⟩
        have taken := accepts data _ (List.mem_cons_self ..) positive
        simp at taken
      · simp only [pure_eq, done_bind] at again
        obtain ⟨only, reaches, all⟩ := ih again
        have rest_data : (data.extract (count + 1) data.size).data.toList =
            data.data.toList.drop (count + 1) := by
          simp [ByteArray.data_extract, ← ByteArray.size_data, List.take_of_length_le]
        have step : sent descriptor
            (.answered (.write descriptor data) (.ok (count + 1)) :: rest) =
              data.data.toList.take (count + 1) ++ sent descriptor rest := by
          simp [sent]
        have whole := List.take_append_drop (count + 1) data.data.toList
        rw [rest_data] at reaches all
        refine ⟨?_, ?_, fun accepts value returned => ?_⟩
        · exact only_answered.2 ⟨write, only.mono fun _ => IsWrite.mono (by
            simp only [ByteArray.size_extract]; omega)⟩
        · have := (List.prefix_append_right_inj (data.data.toList.take (count + 1))).2 reaches
          rwa [whole, ← step] at this
        · rw [step, all accepts.of_cons value returned, whole]

inductive Tells (descriptor : Descriptor) (events : List Event) (fate : Fate) :
    Option Errno → Prop
  | nothing (untouched : Untouched descriptor events) : Tells descriptor events fate none
  | error {errno : Errno} (only : OnlyReports descriptor events)
    (reaches : sent descriptor events <+: errno.toBytes.data.toList)
    (complete : Finished descriptor events fate →
      sent descriptor events = errno.toBytes.data.toList) :
    Tells descriptor events fate (some errno)

namespace Tells

variable {fate : Fate} {told : Option Errno}

theorem onlyReports (tells : Tells descriptor events fate told) :
    OnlyReports descriptor events := by
  cases tells with
  | nothing untouched => simpa using OnlyReports.of_untouched untouched .nil
  | error only reaches complete => exact only

theorem prepend {before : List Event} (tells : Tells descriptor events fate told)
    (untouched : Untouched descriptor before) :
    Tells descriptor (before ++ events) fate told := by
  have same : sent descriptor (before ++ events) = sent descriptor events := by
    rw [sent_append, sent_of_untouched untouched, List.nil_append]
  cases tells with
  | nothing later => exact .nothing (untouched_append.2 ⟨untouched, later⟩)
  | error only reaches complete =>
    refine .error (.of_untouched untouched only) (same ▸ reaches) fun finished => ?_
    exact same.trans (complete (finished.of_untouched untouched))

end Tells

structure Reports (descriptor : Descriptor) (errno : Errno) (events : List Event) (fate : Fate) :
    Prop where
  tells : Tells descriptor events fate (some errno)
  short : ∀ write ∈ writes events, write.2.size ≤ 4
  ended : fate = .pending ∨ ∃ code, fate = .exited code

theorem Channel.runs_report_exit {α : Type} {errno : Errno} {code : Nat} {fate : Fate}
    (run : Runs (report descriptor errno >>= fun _ => (exit code : Action α)) events
      (.ended fate)) : Reports descriptor errno events fate := by
  rw [report, Action.bind_assoc] at run
  rcases (Runs.bind_iff (steady_writeAll ..).contained).1 run with
    ⟨writing, rest, written, rfl, first, second⟩ | ⟨_, ended, first⟩
  · obtain ⟨only, reaches, all⟩ := runs_writeLoop first
    have short : ∀ write ∈ writes writing, write.2.size ≤ 4 := fun _ => only.writes_le
    rcases (runs_call_iff rfl).1 second with ⟨rfl, ended⟩ | ⟨reply, _, rfl, exits⟩
    · cases ended
      refine ⟨.error (onlyReports_of_writes only .nil) (by simpa using reaches) ?_,
        by simpa using short, .inl rfl⟩
      rintro ⟨finished | ⟨reply, closed⟩, -⟩
      · exact absurd rfl finished
      · exact absurd closed (by simpa using not_closed_of_writes only)
    · obtain ⟨rfl, ended⟩ := runs_exit_iff.1 exits
      refine ⟨.error (onlyReports_of_writes only (.close (untouched_nil _)))
        (by simpa [sent_append, sent] using reaches) fun finished => ?_,
        by simpa [writes_answered] using short, ?_⟩
      · simpa [sent_append, sent] using all finished.2.of_append_left _ rfl
      · rcases ended with ⟨⟨⟩⟩ | ⟨⟨⟩⟩ <;> simp
  · cases ended
    obtain ⟨only, reaches, -⟩ := runs_writeLoop first
    obtain rfl := first.pending_of_steady (steady_writeAll ..)
    refine ⟨.error (by simpa using onlyReports_of_writes only .nil) reaches ?_,
      fun _ => only.writes_le, .inl rfl⟩
    rintro ⟨finished | ⟨reply, closed⟩, -⟩
    · exact absurd rfl finished
    · exact absurd closed (not_closed_of_writes only)

inductive IsReport (reporter : Descriptor) : Call → Prop
  | write (data : ByteArray) : IsReport reporter (.write reporter data)
  | close : IsReport reporter (.close reporter)

theorem IsReport.unnamed {reporter : Descriptor} {request : Call}
    (reports : IsReport reporter request) (other : descriptor ≠ reporter) :
    request.names descriptor = false := by
  cases reports <;> simpa [Call.names] using other.symm

theorem Channel.calls_report (reporter : Descriptor) (errno : Errno) :
    (report reporter errno).Calls (IsReport reporter) := by
  have writes : (writeAll reporter errno.toBytes).Calls (IsReport reporter) := by
    apply (calls_writeAll ..).mono
    rintro _ ⟨part, rfl⟩
    exact .write part
  exact writes.bind fun _ _ => ⟨⟨.close, rfl⟩, trivial⟩

theorem runs_readLoop {turns count : Nat} {data : ByteArray} {rest : List Event}
    {finished : Prop} {incoming : List UInt8} {answer : Except Errno ByteArray}
    (run : Runs (loop (readTurn descriptor count) turns data) events (.value answer))
    (delivers : Delivers descriptor finished incoming (events ++ rest)) :
    ∃ taken left bytes, incoming = taken ++ left ∧ answer = .ok bytes ∧
      bytes.data.toList = data.data.toList ++ taken ∧
      (count ≤ bytes.size ∨ left = [] ∧ finished) := by
  induction turns generalizing data events incoming with
  | zero => cases run
  | succ turns ih =>
    rw [loop_succ, readTurn] at run
    split at run
    · obtain ⟨rfl, ⟨⟩⟩ := runs_done_iff.1 run
      exact ⟨[], incoming, data, rfl, rfl, by simp, .inl ‹_›⟩
    · rename_i few
      rw [Action.bind_assoc] at run
      rcases (runs_perform_bind_iff rfl).1 run with ⟨rfl, ⟨⟩⟩ | ⟨reply, others, rfl, again⟩
      rcases reply with errno | more
      · obtain ⟨rfl, later⟩ := delivers rfl
        exact ih again later
      · obtain ⟨left, rfl, finish, later⟩ := delivers rfl
        cases empty : more.isEmpty with
        | true =>
          simp only [empty, if_true, pure_eq, done_bind] at again
          obtain ⟨rfl, ⟨⟩⟩ := runs_done_iff.1 again
          have size : more.size = 0 := by simpa [ByteArray.isEmpty] using empty
          obtain ⟨rfl, finished⟩ := finish size (by omega)
          have nothing : more.data.toList = [] := by
            simpa [← ByteArray.size_data] using size
          exact ⟨[], [], data, by simp [nothing], rfl, by simp, .inr ⟨rfl, finished⟩⟩
        | false =>
          simp only [empty, Bool.false_eq_true, if_false, pure_eq, done_bind] at again
          obtain ⟨taken, left, bytes, rfl, rfl, same, enough⟩ := ih again later
          exact ⟨more.data.toList ++ taken, left, bytes, by simp, rfl, by simp [same], enough⟩

namespace Channel

inductive IsAwait (watcher : Descriptor) : Call → Prop
  | read (count : Nat) : IsAwait watcher (.read watcher count)
  | close : IsAwait watcher (.close watcher)

theorem IsAwait.unnamed {watcher : Descriptor} {request : Call} (awaits : IsAwait watcher request)
    (other : descriptor ≠ watcher) : request.names descriptor = false := by
  cases awaits <;> simpa [Call.names] using other.symm

theorem IsAwait.gains_eq {watcher : Descriptor} {request : Call} (awaits : IsAwait watcher request)
    (reply : request.Reply) : request.gains reply = [] := by
  cases awaits <;> rfl

theorem calls_readFull (watcher : Descriptor) (count : Nat) :
    (readFull watcher count).Calls (IsAwait watcher) := by
  refine calls_loop (fun data => ?_) _ _
  unfold readTurn
  split
  · trivial
  · refine calls_perform_bind (.read _) rfl fun reply => ?_
    cases reply <;> trivial

theorem calls_await (watcher : Descriptor) : (await watcher).Calls (IsAwait watcher) := by
  refine (calls_readFull watcher 4).bind fun answer => ?_
  refine fun _ => ⟨⟨.close, rfl⟩, ?_⟩
  cases answer <;> trivial

def errnoRead : Except Errno ByteArray → Option Errno
  | .ok bytes => Errno.ofBytes? bytes
  | .error _ => none

theorem runs_await_cases {answer : Option Errno}
    (run : Runs (await descriptor) events (.value answer)) :
    ∃ reading reply read, events = reading ++ [.answered (.close descriptor) reply] ∧
      Runs (readFull descriptor 4) reading (.value read) ∧ answer = errnoRead read := by
  rw [await, Runs.bind_value_iff (steady_readFull ..).contained] at run
  obtain ⟨reading, _, read, rfl, first, second⟩ := run
  rcases (runs_call_iff rfl).1 second with ⟨-, ⟨⟩⟩ | ⟨reply, _, rfl, rest⟩
  refine ⟨reading, reply, read, ?_⟩
  cases read <;>
  · obtain ⟨rfl, ⟨⟩⟩ := runs_done_iff.1 rest
    exact ⟨rfl, first, rfl⟩

theorem runs_await {rest : List Event} {finished : Prop} {incoming : List UInt8}
    {answer : Option Errno} (run : Runs (await descriptor) events (.value answer))
    (delivers : Delivers descriptor finished incoming (events ++ rest)) :
    (∃ bytes, bytes.data.toList <+: incoming ∧ 4 ≤ bytes.size ∧ answer = Errno.ofBytes? bytes) ∨
      (incoming.length < 4 ∧ finished ∧ answer = none) := by
  obtain ⟨reading, reply, read, rfl, reads, rfl⟩ := runs_await_cases run
  rw [List.append_assoc] at delivers
  obtain ⟨taken, left, bytes, rfl, rfl, same, enough⟩ := runs_readLoop reads delivers
  obtain rfl : bytes.data.toList = taken := by simpa using same
  by_cases many : 4 ≤ bytes.size
  · exact .inl ⟨bytes, List.prefix_append _ _, many, rfl⟩
  · obtain ⟨rfl, finished⟩ := enough.resolve_left many
    have short : bytes.size < 4 := Nat.lt_of_not_le many
    exact .inr ⟨by simpa using short, finished, Errno.ofBytes?_eq_none short⟩

/-- The reader of a channel learns what the writer has told it. It sees the end only if the writer
is gone. -/
theorem await_tells {rest : List Event} {answer told : Option Errno} {writer : Descriptor}
    {writing : List Event} {fate : Fate} (run : Runs (await descriptor) events (.value answer))
    (tells : Tells writer writing fate told)
    (delivers : Delivers descriptor (Finished writer writing fate) (sent writer writing)
      (events ++ rest)) : answer = told ∧ (told = none → fate ≠ .pending) := by
  cases tells with
  | nothing untouched =>
    rw [sent_of_untouched untouched] at delivers
    rcases runs_await run delivers with ⟨bytes, part, many, -⟩ | ⟨-, finished, rfl⟩
    · have : bytes.size ≤ 0 := part.length_le
      omega
    · refine ⟨rfl, fun _ => finished.1.resolve_right ?_⟩
      exact fun ⟨_, closed⟩ => not_closed_of_untouched untouched closed
  | @error errno only reaches complete =>
    refine ⟨?_, nofun⟩
    rcases runs_await run delivers with ⟨bytes, part, many, rfl⟩ | ⟨short, finished, -⟩
    · have whole : bytes.data.toList = errno.toBytes.data.toList := by
        refine (part.trans reaches).eq_of_length_le ?_
        rw [Errno.length_toBytes]
        exact many
      rw [ByteArray.ext (Array.toList_inj.1 whole), Errno.ofBytes?_toBytes]
    · rw [complete finished, Errno.length_toBytes] at short
      exact absurd short (Nat.lt_irrefl 4)

end Channel

end PipelineShell
