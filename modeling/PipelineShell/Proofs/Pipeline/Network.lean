import PipelineShell.Proofs.Pipeline.Wiring

namespace PipelineShell

variable {events : List Event} {input output : Descriptor} {source : Object}
  {scheduling : Scheduling} {flags : Flags}

/-- What the last program writes: the output of the pipeline. If that is standard input, the input
of the program itself has taken its place by then. -/
def outlet (pipes : List Name) (input output : Descriptor) : Object :=
  if output = standardInput then (pipes.getLast?.map .readEnd).getD (.original input)
  else .original output

structure Wired (images : List Image) (pipes : List Name) (input output : Descriptor) : Prop where
  inputs : images.map (·.holds standardInput) =
    (Object.original input :: pipes.map .readEnd).map some
  outputs : images.map (·.holds standardOutput) =
    (pipes.map Object.writeEnd ++ [outlet pipes input output]).map some
  others : ∀ image ∈ images, ∀ descriptor, descriptor ≠ standardInput →
    descriptor ≠ standardOutput → ∀ object, image.holds descriptor = some object →
      ∃ other, object = .original other
  distinct : pipes.Nodup

namespace Links

variable {last : Object} {earlier : List Image} {pipes : List Name}

theorem inputs (links : Links source earlier pipes last) :
    earlier.map (·.holds standardInput) ++ [some last] =
      (source :: pipes.map .readEnd).map some := by
  induction links with
  | nil source => rfl
  | cons connects others ih => rw [List.map_cons, List.cons_append, ih, connects.input]; rfl

theorem outputs (links : Links source earlier pipes last) :
    earlier.map (·.holds standardOutput) = (pipes.map Object.writeEnd).map some := by
  induction links with
  | nil source => rfl
  | cons connects others ih => rw [List.map_cons, ih, connects.output]; rfl

theorem last_eq (links : Links source earlier pipes last) :
    last = (pipes.getLast?.map .readEnd).getD source := by
  induction links with
  | nil source => rfl
  | @cons source last image images pipe pipes connects others ih =>
    rw [ih, List.getLast?_cons]
    cases pipes.getLast? <;> rfl

theorem others_original (links : Links source earlier pipes last) :
    ∀ image ∈ earlier, ∃ source sink, image.Connects source sink := by
  induction links with
  | nil source => nofun
  | cons connects others ih =>
    intro image member
    rcases List.mem_cons.1 member with rfl | member
    · exact ⟨_, _, connects⟩
    · exact ih image member

end Links

theorem Pipeline.run_wired {pipeline : Pipeline} {isOpen closes : Descriptor → Bool}
    {program : String} {arguments : List String}
    (run : Runs (pipeline.run input output flags scheduling) events
      (.ended (.replaced program arguments)))
    (lawful : Lawful (Table.start isOpen) events)
    (standing : ∀ descriptor ∈ [standardInput, standardOutput, input, output],
      isOpen descriptor = true)
    (inherited : ∀ descriptor ∈ [standardInput, standardOutput], closes descriptor = false) :
    ∃ pipes, Wired (images (.start isOpen closes) events (.replaced program arguments)) pipes input
        output ∧
      List.Forall₂ (fun stage image => Image.IsFor image stage) pipeline.stages
        (images (.start isOpen closes) events (.replaced program arguments)) ∧
      NoSelfDuplicate events := by
  have held : ∀ descriptor ∈ [standardInput, standardOutput, input, output],
      (Holdings.start isOpen closes).slot descriptor =
        some ⟨.original descriptor, closes descriptor⟩ := by
    intro descriptor member
    exact if_pos (standing descriptor member)
  have offers : ∀ from_ ∈ [standardInput, standardOutput, input, output],
      ∀ target ∈ [standardInput, standardOutput],
        (Holdings.start isOpen closes).Offers from_ target (.original from_) := by
    intro from_ member target standard
    refine ⟨closes from_, held from_ member, ?_⟩
    rintro rfl
    exact inherited from_ standard
  rw [← Holdings.table_start isOpen closes] at lawful
  have standing_slots : ∀ descriptor ∈ [standardInput, standardOutput, input, output],
      (Holdings.start isOpen closes).slot descriptor ≠ none := by
    intro descriptor member
    rw [held descriptor member]
    nofun
  obtain ⟨earlier, image, pipes, last, became, isFor, links, connects, distinct, apart⟩ :=
    Pipeline.run_linked run lawful standing_slots
      (offers input (by simp) standardInput (by simp))
      (offers output (by simp) standardOutput (by simp))
      fun descriptor _ _ => Holdings.sealed_start isOpen closes descriptor
  rw [became]
  refine ⟨pipes, ⟨?_, ?_, ?_, distinct⟩, isFor, apart⟩
  · rw [List.map_append, List.map_singleton, connects.input, links.inputs]
  · rw [List.map_append, List.map_singleton, connects.output, links.outputs, links.last_eq,
      List.map_append]
    rfl
  · intro image' member descriptor not_input not_output object held
    rcases List.mem_append.1 member with member | member
    · obtain ⟨_, _, connects'⟩ := links.others_original image' member
      exact connects'.others descriptor not_input not_output object held
    · obtain rfl := List.mem_singleton.1 member
      exact connects.others descriptor not_input not_output object held

namespace Wired

variable {images : List Image} {pipes : List Name} {i j : Nat} {image : Image} {pipe : Name}

theorem length_eq (wired : Wired images pipes input output) :
    images.length = pipes.length + 1 := by
  simpa using congrArg List.length wired.inputs

theorem index_eq (wired : Wired images pipes input output) (at_i : pipes[i]? = some pipe)
    (at_j : pipes[j]? = some pipe) : i = j :=
  (List.getElem?_inj (List.getElem?_eq_some_iff.1 at_i).1 wired.distinct).1 (at_i.trans at_j.symm)

theorem holds_input_zero (wired : Wired images pipes input output) (first : images[0]? = some image) :
    image.holds standardInput = some (.original input) := by
  have same := congrArg (·[0]?) wired.inputs
  simpa [first] using same

theorem holds_input_succ (wired : Wired images pipes input output)
    (at_i : images[i + 1]? = some image) :
    ∃ pipe, pipes[i]? = some pipe ∧ image.holds standardInput = some (.readEnd pipe) := by
  have same := congrArg (·[i + 1]?) wired.inputs
  simp only [List.getElem?_map, at_i, List.getElem?_cons_succ, Option.map_some] at same
  cases found : pipes[i]? with
  | none => simp [found] at same
  | some pipe => exact ⟨pipe, rfl, by simpa [found] using same⟩

theorem holds_output (wired : Wired images pipes input output) (at_i : images[i]? = some image)
    (at_pipe : pipes[i]? = some pipe) : image.holds standardOutput = some (.writeEnd pipe) := by
  have below : i < (pipes.map Object.writeEnd).length := by
    simpa using (List.getElem?_eq_some_iff.1 at_pipe).1
  have same := congrArg (·[i]?) wired.outputs
  simp only [List.getElem?_map, at_i, List.getElem?_append_left below, at_pipe,
    Option.map_some] at same
  exact Option.some.inj same

theorem holds_output_last (wired : Wired images pipes input output)
    (last : images[pipes.length]? = some image) :
    image.holds standardOutput = some (outlet pipes input output) := by
  have same := congrArg (·[pipes.length]?) wired.outputs
  simpa [last] using same

theorem index_le (wired : Wired images pipes input output) (at_i : images[i]? = some image) :
    i ≤ pipes.length := by
  have below := (List.getElem?_eq_some_iff.1 at_i).1
  rw [wired.length_eq] at below
  omega

theorem streams (wired : Wired images pipes input output) (at_i : images[i]? = some image) :
    (i = 0 ∧ image.holds standardInput = some (.original input) ∨
      ∃ pipe, 0 < i ∧ pipes[i - 1]? = some pipe ∧
        image.holds standardInput = some (.readEnd pipe)) ∧
    (i = pipes.length ∧ image.holds standardOutput = some (outlet pipes input output) ∨
      ∃ pipe, pipes[i]? = some pipe ∧ image.holds standardOutput = some (.writeEnd pipe)) := by
  constructor
  · cases i with
    | zero => exact .inl ⟨rfl, wired.holds_input_zero at_i⟩
    | succ i =>
      obtain ⟨pipe, found, held⟩ := wired.holds_input_succ at_i
      exact .inr ⟨pipe, Nat.succ_pos i, found, held⟩
  · rcases Nat.lt_or_eq_of_le (wired.index_le at_i) with below | rfl
    · have found := List.getElem?_eq_getElem below
      exact .inr ⟨_, found, wired.holds_output at_i found⟩
    · exact .inl ⟨rfl, wired.holds_output_last at_i⟩

theorem outlet_cases (pipes : List Name) (input output : Descriptor) :
    (∃ other, outlet pipes input output = .original other) ∨
      ∃ pipe, pipes.getLast? = some pipe ∧ outlet pipes input output = .readEnd pipe := by
  unfold outlet
  split
  · cases last : pipes.getLast? with
    | none => exact .inl ⟨input, rfl⟩
    | some pipe => exact .inr ⟨pipe, rfl, rfl⟩
  · exact .inl ⟨output, rfl⟩

theorem holds_writeEnd_iff (wired : Wired images pipes input output)
    (at_i : pipes[i]? = some pipe) (at_j : images[j]? = some image) :
    (∃ descriptor, image.holds descriptor = some (.writeEnd pipe)) ↔ j = i := by
  constructor
  · rintro ⟨descriptor, held⟩
    obtain ⟨reads, writes⟩ := wired.streams at_j
    by_cases is_input : descriptor = standardInput
    · rw [is_input] at held
      rcases reads with ⟨-, other⟩ | ⟨_, -, -, other⟩ <;>
      · rw [other] at held
        cases held
    by_cases is_output : descriptor = standardOutput
    · rw [is_output] at held
      rcases writes with ⟨-, other⟩ | ⟨pipe', found, other⟩
      · rw [other] at held
        rcases outlet_cases pipes input output with ⟨_, same⟩ | ⟨_, -, same⟩ <;>
        · rw [same] at held
          cases held
      · rw [other] at held
        cases held
        exact wired.index_eq found at_i
    · obtain ⟨other, same⟩ :=
        wired.others image (List.mem_of_getElem? at_j) descriptor is_input is_output _ held
      cases same
  · rintro rfl
    exact ⟨standardOutput, wired.holds_output at_j at_i⟩

theorem holds_readEnd_iff (wired : Wired images pipes input output)
    (at_i : pipes[i]? = some pipe) (at_j : images[j]? = some image) :
    (∃ descriptor, image.holds descriptor = some (.readEnd pipe)) ↔ j = i + 1 := by
  constructor
  · rintro ⟨descriptor, held⟩
    obtain ⟨reads, writes⟩ := wired.streams at_j
    by_cases is_input : descriptor = standardInput
    · rw [is_input] at held
      rcases reads with ⟨-, other⟩ | ⟨pipe', positive, found, other⟩
      · rw [other] at held
        cases held
      · rw [other] at held
        cases held
        have := wired.index_eq found at_i
        omega
    by_cases is_output : descriptor = standardOutput
    · rw [is_output] at held
      rcases writes with ⟨last, other⟩ | ⟨_, -, other⟩
      · rw [other] at held
        rcases outlet_cases pipes input output with ⟨_, same⟩ | ⟨pipe', found, same⟩
        · rw [same] at held
          cases held
        · rw [same] at held
          cases held
          rw [List.getLast?_eq_getElem?] at found
          have := wired.index_eq found at_i
          have below := (List.getElem?_eq_some_iff.1 found).1
          omega
      · rw [other] at held
        cases held
    · obtain ⟨other, same⟩ :=
        wired.others image (List.mem_of_getElem? at_j) descriptor is_input is_output _ held
      cases same
  · rintro rfl
    obtain ⟨pipe', found, held⟩ := wired.holds_input_succ at_j
    rw [at_i] at found
    cases found
    exact ⟨standardInput, held⟩

end Wired

end PipelineShell
