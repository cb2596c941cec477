import Mathlib.Data.List.Basic

/-! Machines that handle one event at a time, their guarded runs, and the
induction rules by which an invariant of one step becomes an invariant of every
run. Nothing here depends on what the events mean. -/

set_option autoImplicit false

namespace Library

/-- A deterministic machine driven by events. A step answers `none` where the
event is not enabled or its handling has no defined result. -/
structure EventMachine (State Event Output : Type) where
  step : State → Event → Option (State × List Output)

namespace EventMachine

variable {State Event Output : Type}

structure Taken (State Event Output : Type) where
  before : State
  event : Event
  outputs : List Output
  after : State

/-- Finite runs whose every step satisfies `guard` in the state it starts from. -/
inductive Run (machine : EventMachine State Event Output) (guard : State → Event → Prop)
    (start : State) : List (Taken State Event Output) → State → Prop where
  | nil : Run machine guard start [] start
  | snoc {history before event outputs after} :
      Run machine guard start history before → guard before event →
      machine.step before event = some (after, outputs) →
      Run machine guard start (history ++ [⟨before, event, outputs, after⟩]) after

def outputs (history : List (Taken State Event Output)) : List Output :=
  history.flatMap Taken.outputs

@[simp] theorem outputs_nil :
    outputs ([] : List (Taken State Event Output)) = [] := rfl

@[simp] theorem outputs_snoc (history : List (Taken State Event Output))
    (taken : Taken State Event Output) :
    outputs (history ++ [taken]) = outputs history ++ taken.outputs := by
  simp [outputs]

variable {machine : EventMachine State Event Output} {guard : State → Event → Prop}
  {start : State}

theorem Run.weaken {weaker : State → Event → Prop} {history : List (Taken State Event Output)}
    {state : State} (run : machine.Run guard start history state)
    (implied : ∀ state event, guard state event → weaker state event) :
    machine.Run weaker start history state := by
  induction run with
  | nil => exact .nil
  | snoc _ admitted stepped ih => exact .snoc ih (implied _ _ admitted) stepped

/-- The run rule: what holds at the start and survives each admitted step holds,
of the history and the state together, in every run. -/
theorem Run.invariant {history : List (Taken State Event Output)} {state : State}
    (run : machine.Run guard start history state)
    (invariant : List (Taken State Event Output) → State → Prop)
    (initial : invariant [] start)
    (preserved : ∀ history before event outputs after,
      invariant history before → guard before event →
      machine.step before event = some (after, outputs) →
      invariant (history ++ [⟨before, event, outputs, after⟩]) after) :
    invariant history state := by
  induction run with
  | nil => exact initial
  | snoc _ admitted stepped ih => exact preserved _ _ _ _ _ ih admitted stepped

theorem Run.state_invariant {history : List (Taken State Event Output)} {state : State}
    (run : machine.Run guard start history state) (invariant : State → Prop)
    (initial : invariant start)
    (preserved : ∀ before event outputs after, invariant before → guard before event →
      machine.step before event = some (after, outputs) → invariant after) :
    invariant state :=
  run.invariant (fun _ state => invariant state) initial
    (fun _ before event outputs after holds admitted stepped =>
      preserved before event outputs after holds admitted stepped)

theorem Run.single {event : Event} {produced : List Output} {after : State}
    (admitted : guard start event) (stepped : machine.step start event = some (after, produced)) :
    machine.Run guard start [⟨start, event, produced, after⟩] after := by
  have one : machine.Run guard start ([] ++ [⟨start, event, produced, after⟩]) after :=
    .snoc .nil admitted stepped
  exact one

theorem Run.append {history later : List (Taken State Event Output)} {state final : State}
    (run : machine.Run guard start history state) (more : machine.Run guard state later final) :
    machine.Run guard start (history ++ later) final := by
  induction more with
  | nil => simpa using run
  | snoc _ admitted stepped ih =>
      rw [← List.append_assoc]
      exact .snoc ih admitted stepped

@[simp] theorem outputs_append (history later : List (Taken State Event Output)) :
    outputs (history ++ later) = outputs history ++ outputs later :=
  List.flatMap_append

/-- Each recorded step was taken by the machine, under the guard, from the end
of a run of its own. -/
theorem Run.of_mem {history : List (Taken State Event Output)} {state : State}
    (run : machine.Run guard start history state) {taken : Taken State Event Output}
    (member : taken ∈ history) :
    ∃ earlier, machine.Run guard start earlier taken.before ∧
      guard taken.before taken.event ∧
      machine.step taken.before taken.event = some (taken.after, taken.outputs) := by
  induction run with
  | nil => simp at member
  | @snoc history before event outputs after previous admitted stepped ih =>
      rcases List.mem_append.mp member with old | new
      · exact ih old
      · have same : taken = ⟨before, event, outputs, after⟩ := by simpa using new
        subst same
        exact ⟨history, previous, admitted, stepped⟩

/-- A run cut before one of its steps. -/
theorem Run.of_split {earlier later : List (Taken State Event Output)}
    {taken : Taken State Event Output} {state : State}
    (run : machine.Run guard start (earlier ++ taken :: later) state) :
    machine.Run guard start earlier taken.before ∧ guard taken.before taken.event ∧
      machine.step taken.before taken.event = some (taken.after, taken.outputs) := by
  generalize whole : earlier ++ taken :: later = history at run
  induction run generalizing later with
  | nil => simp at whole
  | snoc previous admitted stepped ih =>
      rcases List.eq_nil_or_concat later with rfl | ⟨rest, last, rfl⟩
      · obtain ⟨rfl, same⟩ := List.append_inj' whole rfl
        cases same
        exact ⟨previous, admitted, stepped⟩
      · rw [List.concat_eq_append, ← List.cons_append, ← List.append_assoc] at whole
        exact ih (List.append_inj' whole rfl).1

def run? (machine : EventMachine State Event Output) (guard : State → Event → Prop)
    [∀ state event, Decidable (guard state event)] (state : State) :
    List Event → Option (List (Taken State Event Output) × State)
  | [] => some ([], state)
  | event :: events =>
      if guard state event then
        match machine.step state event with
        | none => none
        | some (after, outputs) =>
            match machine.run? guard after events with
            | none => none
            | some (history, final) => some (⟨state, event, outputs, after⟩ :: history, final)
      else none

theorem run?_cons_eq_some [∀ state event, Decidable (guard state event)] {state final : State}
    {event : Event} {events : List Event} {history : List (Taken State Event Output)}
    (executed : machine.run? guard state (event :: events) = some (history, final)) :
    ∃ after outputs later, machine.step state event = some (after, outputs) ∧
      machine.run? guard after events = some (later, final) ∧
      history = ⟨state, event, outputs, after⟩ :: later := by
  rw [run?] at executed
  split at executed
  · split at executed
    · cases executed
    · rename_i after outputs stepped
      split at executed
      · cases executed
      · rename_i later last remaining
        cases executed
        exact ⟨after, outputs, later, stepped, remaining, rfl⟩
  · cases executed

theorem Run.append_run? [∀ state event, Decidable (guard state event)]
    {history later : List (Taken State Event Output)} {state final : State}
    {events : List Event} (run : machine.Run guard start history state)
    (executed : machine.run? guard state events = some (later, final)) :
    machine.Run guard start (history ++ later) final := by
  induction events generalizing history later state with
  | nil =>
      simp only [run?, Option.some.injEq, Prod.mk.injEq] at executed
      obtain ⟨rfl, rfl⟩ := executed
      simpa using run
  | cons event events ih =>
      rw [run?] at executed
      split at executed
      · rename_i admitted
        split at executed
        · cases executed
        · rename_i after outputs stepped
          split at executed
          · cases executed
          · rename_i rest last remaining
            simp only [Option.some.injEq, Prod.mk.injEq] at executed
            obtain ⟨rfl, rfl⟩ := executed
            have extended := ih (.snoc run admitted stepped) remaining
            simpa using extended
      · cases executed

theorem run?_sound [∀ state event, Decidable (guard state event)]
    {history : List (Taken State Event Output)} {final : State} {events : List Event}
    (executed : machine.run? guard start events = some (history, final)) :
    machine.Run guard start history final := by
  simpa using Run.append_run? .nil executed

/-- A run that passes a test, found by executing its events. -/
theorem exists_run_of_any (machine : EventMachine State Event Output)
    (guard : State → Event → Prop) [∀ state event, Decidable (guard state event)]
    (start : State) (events : List Event) (test : List (Taken State Event Output) × State → Bool)
    (passed : (machine.run? guard start events).any test = true) :
    ∃ history final, machine.Run guard start history final ∧ test (history, final) = true := by
  obtain ⟨⟨history, final⟩, executed, holds⟩ := (Option.any_eq_true _ _).mp passed
  exact ⟨history, final, run?_sound executed, holds⟩

end EventMachine

end Library
