import Cpmd.Library.EventMachine
import Cpmd.Node

/-! The class `MessageCacheQueue` with its sizes of thirty-two bits and its assertions,
and what they come to: a bounded queue that gives up its oldest message. -/

set_option autoImplicit false

namespace Cpmd.MessageCacheQueue

open Library

/-- The members of the class. -/
structure State where
  maxSize : Int32
  messages : List Message
deriving DecidableEq

namespace State

def create (maxSize : Int32) : State := ⟨maxSize, []⟩

def isEmpty (queue : State) : Bool := queue.messages.isEmpty

def size (queue : State) : Int32 := Int32.ofNat queue.messages.length

def front (queue : State) : Option Message := queue.messages.head?

/-- There is no result where the assertion fails. -/
def popFront (queue : State) : Option (Message × State) :=
  match queue.messages with
  | [] => none
  | m :: rest => some (m, { queue with messages := rest })

/-- `droped` is what the pointer points to, before and after, or nothing for a null
pointer. There is no result where an assertion fails. -/
def push (queue : State) (m : Message) (droped : Option Message) :
    Option (State × Option Message) :=
  let roomy :=
    if queue.size = queue.maxSize ∧ droped.isSome then
      queue.popFront.map fun popped => (popped.2, some popped.1)
    else some (queue, droped)
  match roomy with
  | none => none
  | some (queue, droped) =>
      if queue.size < queue.maxSize then
        some ({ queue with messages := queue.messages ++ [m] }, droped)
      else none

theorem push_of_full {queue : State} {oldest : Message} {rest : List Message}
    (split : queue.messages = oldest :: rest) (full : queue.size = queue.maxSize)
    (room : Int32.ofNat rest.length < queue.maxSize) (m droped : Message) :
    queue.push m (some droped) =
      some ({ queue with messages := rest ++ [m] }, some oldest) := by
  have condition : queue.size = queue.maxSize ∧ (some droped).isSome = true := ⟨full, rfl⟩
  have fits : ({ queue with messages := rest } : State).size < queue.maxSize := room
  simp only [push, if_pos condition, popFront, split, Option.map_some, if_pos fits]

theorem push_of_room {queue : State} (unfilled : queue.size ≠ queue.maxSize)
    (room : queue.size < queue.maxSize) (m : Message) (droped : Option Message) :
    queue.push m droped = some ({ queue with messages := queue.messages ++ [m] }, droped) := by
  have condition : ¬ (queue.size = queue.maxSize ∧ droped.isSome = true) :=
    fun both => unfilled both.1
  simp only [push, if_neg condition, if_pos room]

end State

/-- A bounded queue as an object of the class. -/
def toState {capacity : Nat} (queue : BoundedQueue Message capacity) : State :=
  ⟨Int32.ofNat capacity, queue.elements⟩

section Refinement

variable {capacity : Nat} (queue : BoundedQueue Message capacity)

theorem popFront_toState :
    (toState queue).popFront = queue.popFront.map fun popped => (popped.1, toState popped.2) := by
  obtain ⟨elements, bounded⟩ := queue
  cases elements <;> rfl

theorem toInt_size (countable : capacity < 2 ^ 31) :
    (toState queue).size.toInt = queue.elements.length :=
  Int32.toInt_ofNat_of_lt (Nat.lt_of_le_of_lt queue.bounded countable)

theorem toInt_maxSize (countable : capacity < 2 ^ 31) :
    (toState queue).maxSize.toInt = capacity :=
  Int32.toInt_ofNat_of_lt countable

theorem size_eq_iff (countable : capacity < 2 ^ 31) :
    (toState queue).size = (toState queue).maxSize ↔ queue.elements.length = capacity := by
  rw [← Int32.toInt_inj, toInt_size queue countable, toInt_maxSize queue countable,
    Int.natCast_inj]

theorem toState_push_of_full [NeZero capacity] (full : queue.elements.length = capacity)
    (m : Message) :
    ∃ oldest rest, queue.elements = oldest :: rest ∧ (queue.push m).2 = some oldest ∧
      toState (queue.push m).1 = { toState queue with messages := rest ++ [m] } := by
  obtain ⟨oldest, rest, split, given, kept⟩ := BoundedQueue.push_of_full full m
  exact ⟨oldest, rest, split, given, by rw [toState, kept, toState]⟩

theorem toState_push_of_room [NeZero capacity] (room : queue.elements.length ≠ capacity)
    (m : Message) :
    (queue.push m).2 = none ∧
      toState (queue.push m).1 = { toState queue with messages := queue.elements ++ [m] } := by
  obtain ⟨given, kept⟩ := BoundedQueue.push_of_room room m
  exact ⟨given, by rw [toState, kept, toState]⟩

/-- With a pointer for what is given up, the class pushes as the bounded queue does. -/
theorem push_toState [NeZero capacity] (countable : capacity < 2 ^ 31) (m droped : Message) :
    (toState queue).push m (some droped) =
      some (toState (queue.push m).1, some ((queue.push m).2.getD droped)) := by
  by_cases full : queue.elements.length = capacity
  · obtain ⟨oldest, rest, split, given, kept⟩ := toState_push_of_full queue full m
    have shorter : rest.length < capacity := by
      rw [← full, split]
      exact Nat.lt_succ_self _
    have room : Int32.ofNat rest.length < (toState queue).maxSize := by
      rw [Int32.lt_iff_toInt_lt, toInt_maxSize queue countable,
        Int32.toInt_ofNat_of_lt (Nat.lt_trans shorter countable)]
      exact Int.ofNat_lt.mpr shorter
    rw [State.push_of_full split ((size_eq_iff queue countable).mpr full) room, given, kept]
    rfl
  · obtain ⟨given, kept⟩ := toState_push_of_room queue full m
    have shorter : queue.elements.length < capacity := Nat.lt_of_le_of_ne queue.bounded full
    have room : (toState queue).size < (toState queue).maxSize := by
      rw [Int32.lt_iff_toInt_lt, toInt_size queue countable, toInt_maxSize queue countable]
      exact Int.ofNat_lt.mpr shorter
    rw [State.push_of_room (mt (size_eq_iff queue countable).mp full) room, given, kept]
    rfl

end Refinement

theorem push_cacheMessage (node : Node) (m droped : Message) :
    ∃ queue, (node.cacheMessage m).1.messagesToDeliver = some queue ∧
      (toState (node.messagesToDeliver.getD .empty)).push m (some droped) =
        some (toState queue, some ((node.cacheMessage m).2.getD droped)) := by
  have countable : kMaxCachedMessageNum < 2 ^ 31 := by decide
  refine ⟨((node.messagesToDeliver.getD .empty).push m).1, ?_, ?_⟩
  · cases held : node.messagesToDeliver <;> simp [Node.cacheMessage, held]
  · rw [push_toState _ countable]
    cases held : node.messagesToDeliver <;> simp [Node.cacheMessage, held]

inductive Event where
  /-- `Push` with a pointer to a message that is `droped` before. -/
  | push (m droped : Message)
  | popFront

/-- The output is what `*droped` is afterwards, or what was returned. -/
def step (queue : State) : Event → Option (State × List Message)
  | .push m droped => (queue.push m (some droped)).map fun pushed => (pushed.1, pushed.2.toList)
  | .popFront => queue.popFront.map fun popped => (popped.2, [popped.1])

def machine : EventMachine State Event Message := ⟨step⟩

/-- Only a queue that is not empty is popped. -/
def Admitted (queue : State) : Event → Prop
  | .push _ _ => True
  | .popFront => queue.isEmpty = false

instance (queue : State) : ∀ event, Decidable (Admitted queue event)
  | .push _ _ => inferInstanceAs (Decidable True)
  | .popFront => inferInstanceAs (Decidable (_ = _))

/-- What a call does: a push into a full queue stores its oldest message in `*droped`,
any other leaves `*droped` as it is. -/
inductive Handled : State → Event → List Message → State → Prop where
  | evicted {queue : State} {oldest m droped : Message} {rest : List Message} :
      queue.size = queue.maxSize → queue.messages = oldest :: rest →
      Handled queue (.push m droped) [oldest] { queue with messages := rest ++ [m] }
  | added {queue : State} {m droped : Message} :
      queue.size ≠ queue.maxSize →
      Handled queue (.push m droped) [droped] { queue with messages := queue.messages ++ [m] }
  | popped {queue : State} {oldest : Message} {rest : List Message} :
      queue.messages = oldest :: rest →
      Handled queue .popFront [oldest] { queue with messages := rest }

def Event.pushed : Event → List Message
  | .push m _ => [m]
  | .popFront => []

/-- What left the queue in a step: what was popped, or stored in `*droped`. -/
def departed (taken : EventMachine.Taken State Event Message) : List Message :=
  match taken.event with
  | .push _ _ => if taken.before.size = taken.before.maxSize then taken.outputs else []
  | .popFront => taken.outputs

def pushed (history : List (EventMachine.Taken State Event Message)) : List Message :=
  history.flatMap fun taken => taken.event.pushed

def left (history : List (EventMachine.Taken State Event Message)) : List Message :=
  history.flatMap departed

theorem Handled.conserved {before after : State} {event : Event} {outputs : List Message}
    (handled : Handled before event outputs after) :
    before.messages ++ event.pushed =
      departed ⟨before, event, outputs, after⟩ ++ after.messages := by
  cases handled with
  | evicted full split => simp [Event.pushed, departed, full, split]
  | added room => simp [Event.pushed, departed, room]
  | popped split => simp [Event.pushed, departed, split]

theorem step_toState {capacity : Nat} [NeZero capacity] (countable : capacity < 2 ^ 31)
    (queue : BoundedQueue Message capacity) {event : Event}
    (admitted : Admitted (toState queue) event) :
    ∃ (after : BoundedQueue Message capacity) (outputs : List Message),
      step (toState queue) event = some (toState after, outputs) ∧
        Handled (toState queue) event outputs (toState after) := by
  cases event with
  | push m droped =>
      refine ⟨(queue.push m).1, [(queue.push m).2.getD droped], ?_, ?_⟩
      · simp only [step, push_toState queue countable, Option.map_some, Option.toList_some]
      · by_cases full : queue.elements.length = capacity
        · obtain ⟨oldest, rest, split, given, kept⟩ := toState_push_of_full queue full m
          rw [given, kept]
          exact .evicted ((size_eq_iff queue countable).mpr full) split
        · obtain ⟨given, kept⟩ := toState_push_of_room queue full m
          rw [given, kept]
          exact .added (mt (size_eq_iff queue countable).mp full)
  | popFront =>
      obtain ⟨elements, bounded⟩ := queue
      cases elements with
      | nil => cases admitted
      | cons oldest rest =>
          exact ⟨⟨rest, Nat.le_of_succ_le bounded⟩, [oldest], rfl, .popped rfl⟩

/-- A first-in first-out queue of at most `maxSize` messages that evicts only its
oldest. -/
structure BoundedFifo (maxSize : Int32)
    (history : List (EventMachine.Taken State Event Message)) (queue : State) : Prop where
  counted : queue.size.toInt = queue.messages.length
  bounded : queue.size ≤ maxSize
  asserted : ∀ event, Admitted queue event →
    ∃ after outputs, step queue event = some (after, outputs)
  handled : ∀ taken ∈ history, taken.before.maxSize = maxSize ∧
    Handled taken.before taken.event taken.outputs taken.after
  conserved : pushed history = left history ++ queue.messages

/-- Every run goes through objects that a bounded queue stands for. -/
theorem boundedFifo_of_capacity {capacity : Nat} [NeZero capacity] (countable : capacity < 2 ^ 31)
    {history : List (EventMachine.Taken State Event Message)} {queue : State}
    (run : machine.Run Admitted (State.create (Int32.ofNat capacity)) history queue) :
    BoundedFifo (Int32.ofNat capacity) history queue := by
  have reached := run.invariant
    (fun history queue => (∃ content : BoundedQueue Message capacity, queue = toState content) ∧
      (∀ taken ∈ history, taken.before.maxSize = Int32.ofNat capacity ∧
        Handled taken.before taken.event taken.outputs taken.after) ∧
      pushed history = left history ++ queue.messages)
    ⟨⟨.empty, rfl⟩, by simp, rfl⟩ ?_
  · obtain ⟨⟨content, rfl⟩, handled, conserved⟩ := reached
    refine ⟨toInt_size content countable, ?_, ?_, handled, conserved⟩
    · rw [Int32.le_iff_toInt_le, toInt_size content countable,
        Int32.toInt_ofNat_of_lt countable]
      exact Int.ofNat_le.mpr content.bounded
    · intro event admitted
      obtain ⟨after, outputs, stepped, _⟩ := step_toState countable content admitted
      exact ⟨_, _, stepped⟩
  · intro history before event outputs after invariant admitted stepped
    obtain ⟨⟨content, rfl⟩, handled, conserved⟩ := invariant
    obtain ⟨next, returned, done, law⟩ := step_toState countable content admitted
    obtain ⟨rfl, rfl⟩ : toState next = after ∧ returned = outputs := by
      simpa using done.symm.trans stepped
    refine ⟨⟨next, rfl⟩, ?_, ?_⟩
    · intro taken member
      rcases List.mem_append.mp member with old | new
      · exact handled taken old
      · cases List.mem_singleton.mp new
        exact ⟨rfl, law⟩
    · have step := law.conserved
      simp only [pushed, left, List.flatMap_append, List.flatMap_singleton] at conserved ⊢
      rw [conserved, List.append_assoc, step, List.append_assoc]

theorem boundedFifo_of_run {maxSize : Int32} (positive : 1 ≤ maxSize)
    {history : List (EventMachine.Taken State Event Message)} {queue : State}
    (run : machine.Run Admitted (State.create maxSize) history queue) :
    BoundedFifo maxSize history queue := by
  have atLeast : 1 ≤ maxSize.toInt := Int32.le_iff_toInt_le.mp positive
  have atMost := maxSize.toInt_lt
  obtain ⟨capacity, same⟩ : ∃ capacity : Nat, maxSize.toInt = capacity :=
    ⟨maxSize.toInt.toNat, (Int.toNat_of_nonneg (by omega)).symm⟩
  have countable : capacity < 2 ^ 31 := by omega
  have whole : maxSize = Int32.ofNat capacity := by
    rw [← Int32.toInt_inj, same, Int32.toInt_ofNat_of_lt countable]
  have nonzero : NeZero capacity := ⟨by omega⟩
  rw [whole] at run ⊢
  exact boundedFifo_of_capacity countable run

/-- A message of as many bytes as it has data. -/
def someMessage (data : List UInt8) : Message :=
  ⟨⟨0, 0⟩, ⟨9, 2⟩, Message.kMagic, Int32.ofNat data.length, data⟩

/-- The second push evicts the first message, and the second is popped. -/
theorem boundedFifo_of_run_evicting :
    ∃ history queue, left history = [someMessage [1], someMessage [2]] ∧
      BoundedFifo 1 history queue := by
  obtain ⟨history, queue, run, departed⟩ := EventMachine.exists_run_of_any machine Admitted
    (State.create 1)
    [.push (someMessage [1]) (someMessage []), .push (someMessage [2]) (someMessage []), .popFront]
    (fun reached => decide (left reached.1 = [someMessage [1], someMessage [2]])) (by decide)
  exact ⟨history, queue, of_decide_eq_true departed, boundedFifo_of_run (by decide) run⟩

end Cpmd.MessageCacheQueue
