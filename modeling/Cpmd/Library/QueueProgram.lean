import Cpmd.Library.EventMachine

/-! Programs between two queues, which read the one and write the other in rounds of their
own, while someone else puts records on the one and takes them off the other. What each
round does to the queues is added up along the runs. -/

set_option autoImplicit false

namespace Library

structure QueueProgram (State Round Output Record : Type) where
  input : State → List Record
  output : State → List Record
  withInput : State → List Record → State
  withOutput : State → List Record → State
  /-- Answers `none` where a round is not possible or not defined. -/
  round : State → Round → Option (State × List Output)
  input_withInput : ∀ state records, input (withInput state records) = records
  output_withInput : ∀ state records, output (withInput state records) = output state
  input_withOutput : ∀ state records, input (withOutput state records) = input state
  output_withOutput : ∀ state records, output (withOutput state records) = records
  withInput_input : ∀ state, withInput state (input state) = state
  withOutput_output : ∀ state, withOutput state (output state) = state
  withInput_withInput : ∀ state first second,
    withInput (withInput state first) second = withInput state second
  withOutput_withOutput : ∀ state first second,
    withOutput (withOutput state first) second = withOutput state second
  withInput_withOutput : ∀ state read written,
    withInput (withOutput state written) read = withOutput (withInput state read) written

namespace QueueProgram

inductive Event (Round Record : Type) where
  | round (round : Round)
  /-- A record comes behind those to be read. -/
  | arrive (record : Record)
  /-- The first of the written records is taken. -/
  | take

variable {State Round Output Record Element : Type}

def step (program : QueueProgram State Round Output Record) (state : State) :
    Event Round Record → Option (State × List Output)
  | .round round => program.round state round
  | .arrive record => some (program.withInput state (program.input state ++ [record]), [])
  | .take => some (program.withOutput state ((program.output state).drop 1), [])

def machine (program : QueueProgram State Round Output Record) :
    EventMachine State (Event Round Record) Output :=
  ⟨program.step⟩

def Event.arrives : Event Round Record → List Record
  | .arrive record => [record]
  | .round _ | .take => []

def arrivedIn (history : List (EventMachine.Taken State (Event Round Record) Output)) :
    List Record :=
  history.flatMap fun taken => taken.event.arrives

/-- What an event takes off the queue of the written records. -/
def takes (program : QueueProgram State Round Output Record) (state : State) :
    Event Round Record → List Record
  | .take => (program.output state).take 1
  | .round _ | .arrive _ => []

def takenIn (program : QueueProgram State Round Output Record)
    (history : List (EventMachine.Taken State (Event Round Record) Output)) : List Record :=
  history.flatMap fun taken => program.takes taken.before taken.event

def Event.round? : Event Round Record → Option Round
  | .round taken => some taken
  | .arrive _ | .take => none

def roundsIn (history : List (EventMachine.Taken State (Event Round Record) Output)) :
    List Round :=
  history.filterMap fun taken => taken.event.round?

variable {program : QueueProgram State Round Output Record}
  {guard : State → Event Round Record → Prop} {start state : State}
  {history : List (EventMachine.Taken State (Event Round Record) Output)}

theorem arrivedIn_snoc (taken : EventMachine.Taken State (Event Round Record) Output) :
    arrivedIn (history ++ [taken]) = arrivedIn history ++ taken.event.arrives := by
  simp [arrivedIn]

theorem takenIn_snoc (taken : EventMachine.Taken State (Event Round Record) Output) :
    program.takenIn (history ++ [taken]) =
      program.takenIn history ++ program.takes taken.before taken.event := by
  simp [takenIn]

theorem roundsIn_snoc (taken : EventMachine.Taken State (Event Round Record) Output) :
    roundsIn (history ++ [taken]) = roundsIn history ++ taken.event.round?.toList := by
  rw [roundsIn, List.filterMap_append]
  cases known : taken.event.round? <;> simp [roundsIn, known]

/-- The run rule: what rounds keep, and what does not depend on the queues, holds in every
run. -/
theorem invariant_run
    (run : program.machine.Run guard start history state)
    (invariant : List Round → List Output → State → Prop) (initial : invariant [] [] start)
    (arrives : ∀ rounds outputs state records, invariant rounds outputs state →
      invariant rounds outputs (program.withInput state records))
    (takes : ∀ rounds outputs state records, invariant rounds outputs state →
      invariant rounds outputs (program.withOutput state records))
    (kept : ∀ rounds outputs before round after produced, invariant rounds outputs before →
      program.round before round = some (after, produced) →
      invariant (rounds ++ [round]) (outputs ++ produced) after) :
    invariant (roundsIn history) (EventMachine.outputs history) state := by
  refine run.invariant
    (fun history state => invariant (roundsIn history) (EventMachine.outputs history) state)
    initial fun history before event produced after holds _ stepped => ?_
  rw [roundsIn_snoc, EventMachine.outputs_snoc]
  cases event with
  | round round => exact kept _ _ _ _ _ _ holds stepped
  | arrive record =>
      cases stepped
      rw [Event.round?, Option.toList_none, List.append_nil, List.append_nil]
      exact arrives _ _ _ _ holds
  | take =>
      cases stepped
      rw [Event.round?, Option.toList_none, List.append_nil, List.append_nil]
      exact takes _ _ _ _ holds

theorem round_of_output (run : program.machine.Run guard start history state) {output : Output}
    (member : output ∈ EventMachine.outputs history) :
    ∃ before round after produced, program.round before round = some (after, produced) ∧
      output ∈ produced := by
  obtain ⟨⟨before, event, produced, after⟩, inHistory, shown⟩ := List.mem_flatMap.mp member
  obtain ⟨_, _, _, stepped⟩ := run.of_mem inHistory
  cases event with
  | round round => exact ⟨before, round, after, produced, stepped, shown⟩
  | arrive record | take =>
      have silent : produced = [] := (Prod.mk.inj (Option.some.inj stepped)).2.symm
      rw [silent] at shown
      cases shown

/-- What a round writes goes behind what was written before; so it is taken in order. -/
theorem written_run {sent : Output → List Record}
    (writes : ∀ before round after produced,
      program.round before round = some (after, produced) →
      program.output after = program.output before ++ produced.flatMap sent)
    (run : program.machine.Run guard start history state) :
    program.takenIn history ++ program.output state =
      program.output start ++ (EventMachine.outputs history).flatMap sent := by
  induction run with
  | nil => exact (List.append_nil _).symm
  | @snoc history before event produced after _ _ stepped ih =>
      rw [takenIn_snoc, EventMachine.outputs_snoc, List.flatMap_append, ← List.append_assoc, ← ih,
        List.append_assoc, List.append_assoc]
      congr 1
      cases event with
      | round round => exact writes _ _ _ _ stepped
      | arrive record =>
          cases stepped
          rw [program.output_withInput]
          exact (List.append_nil _).symm
      | take =>
          cases stepped
          rw [program.output_withOutput]
          exact (List.take_append_drop 1 _).trans (List.append_nil _).symm

/-- If the outputs of a round show all that is made of the records it reads, then those of
a run show all that is made of what has arrived, except for the records still unread. -/
theorem read_run {reads : Record → List Element} {shown : Output → List Element}
    (shows : ∀ before round after produced,
      program.round before round = some (after, produced) →
      (program.input before).flatMap reads =
        produced.flatMap shown ++ (program.input after).flatMap reads)
    (run : program.machine.Run guard start history state) :
    (program.input start ++ arrivedIn history).flatMap reads =
      (EventMachine.outputs history).flatMap shown ++ (program.input state).flatMap reads := by
  induction run with
  | nil => simp [arrivedIn]
  | @snoc history before event produced after _ _ stepped ih =>
      rw [arrivedIn_snoc, EventMachine.outputs_snoc, ← List.append_assoc, List.flatMap_append,
        ih, List.flatMap_append, List.append_assoc, List.append_assoc]
      congr 1
      cases event with
      | round round =>
          have same := shows _ _ _ _ stepped
          simpa [Event.arrives] using same
      | arrive record =>
          cases stepped
          rw [program.input_withInput, List.flatMap_append]
          rfl
      | take =>
          cases stepped
          rw [program.input_withOutput]
          exact List.append_nil _

/-- What the program can do in these rounds while these records come and those are taken. -/
def Goes (program : QueueProgram State Round Output Record) (before : State)
    (arrived taken : List Record) (rounds : List Round) (outputs : List Output)
    (after : State) : Prop :=
  ∃ history, program.machine.Run (fun _ _ => True) before history after ∧
    arrivedIn history = arrived ∧ program.takenIn history = taken ∧ roundsIn history = rounds ∧
    EventMachine.outputs history = outputs

theorem Goes.refl (state : State) : program.Goes state [] [] [] [] state :=
  ⟨[], .nil, rfl, rfl, rfl, rfl⟩

theorem Goes.trans {first second third : State} {arrived taken more gone : List Record}
    {rounds turns : List Round} {outputs later : List Output}
    (begins : program.Goes first arrived taken rounds outputs second)
    (goesOn : program.Goes second more gone turns later third) :
    program.Goes first (arrived ++ more) (taken ++ gone) (rounds ++ turns) (outputs ++ later)
      third := by
  obtain ⟨history, run, rfl, rfl, rfl, rfl⟩ := begins
  obtain ⟨further, next, rfl, rfl, rfl, rfl⟩ := goesOn
  exact ⟨history ++ further, run.append next, List.flatMap_append, List.flatMap_append,
    List.filterMap_append, EventMachine.outputs_append history further⟩

theorem Goes.of_round {before after : State} {round : Round} {outputs : List Output}
    (rounded : program.round before round = some (after, outputs)) :
    program.Goes before [] [] [round] outputs after :=
  ⟨[⟨before, .round round, outputs, after⟩], EventMachine.Run.single trivial rounded, rfl, rfl,
    rfl, List.append_nil _⟩

theorem goes_arrivals (program : QueueProgram State Round Output Record) (state : State)
    (records : List Record) :
    program.Goes state records [] [] []
      (program.withInput state (program.input state ++ records)) := by
  induction records generalizing state with
  | nil =>
      rw [List.append_nil, program.withInput_input]
      exact Goes.refl state
  | cons record records ih =>
      have first : program.Goes state [record] [] [] []
          (program.withInput state (program.input state ++ [record])) :=
        ⟨[⟨state, .arrive record, [], _⟩], EventMachine.Run.single trivial rfl, rfl, rfl, rfl, rfl⟩
      have rest := first.trans (ih _)
      rw [program.input_withInput, program.withInput_withInput, List.append_assoc] at rest
      exact rest

theorem goes_takes (program : QueueProgram State Round Output Record) (state : State)
    {first rest : List Record} (split : program.output state = first ++ rest) :
    program.Goes state [] first [] [] (program.withOutput state rest) := by
  induction first generalizing state with
  | nil =>
      rw [← List.nil_append rest, ← split, program.withOutput_output]
      exact Goes.refl state
  | cons record first ih =>
      have once : program.Goes state [] [record] [] []
          (program.withOutput state ((program.output state).drop 1)) := by
        refine ⟨[⟨state, .take, [], _⟩], EventMachine.Run.single trivial rfl, rfl, ?_, rfl, rfl⟩
        rw [takenIn, List.flatMap_singleton, takes, split]
        rfl
      have behind := ih (program.withOutput state ((program.output state).drop 1))
        (by rw [program.output_withOutput, split]; rfl)
      have both := once.trans behind
      rw [program.withOutput_withOutput] at both
      exact both

end QueueProgram

end Library
