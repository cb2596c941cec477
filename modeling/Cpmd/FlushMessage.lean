import Cpmd.Library.Loop
import Cpmd.MessageCacheQueue

/-! The loop of `FlushMessage`, which looks at the first message, writes it, and only
then takes it off the queue. -/

set_option autoImplicit false

namespace Cpmd.FlushMessage

open Library MessageCacheQueue

/-- `messages_to_deliver_`, and the calls of `Write` so far with their results. -/
structure Flush where
  queue : State
  calls : List (Message × Bool)
deriving DecidableEq

/-- A call that returned false has queued nothing. -/
def Flush.written (flush : Flush) : List Message :=
  (flush.calls.filter fun call => call.2).map fun call => call.1

variable (writes : Nat → Bool)

/-- `writes` says of each call in turn whether it succeeds. -/
def sendMessageDirectly (flush : Flush) (newMessage : Message) : Flush × Bool :=
  let ok := writes flush.calls.length
  ({ flush with calls := flush.calls ++ [(newMessage, ok)] }, ok)

/-- One round. There is no result where the assertion in `PopFront` fails. -/
def flushBody (flush : Flush) : Flush ⊕ Option Flush :=
  match flush.queue.front with
  | none => .inr (some flush)
  | some m =>
      let sent := sendMessageDirectly writes flush m
      if sent.2 then
        match sent.1.queue.popFront with
        | none => .inr none
        | some popped => .inl { sent.1 with queue := popped.2 }
      else .inr (some sent.1)

/-- `!HasCachedMessage()`, of a node with a queue. -/
def flushResult (flush : Flush) : Bool := flush.queue.isEmpty

/-- The results of the calls are those that were given for them. -/
def Answered (flush : Flush) : Prop :=
  flush.calls.map Prod.snd = (List.range flush.calls.length).map writes

/-- The messages that were written are a first part of the cache, each written once,
and the rest is left. The one other call is a failed one, for the first of the rest. -/
structure SendsPrefix (messages : List Message) (flush : Flush) : Prop where
  answered : Answered writes flush
  split : flush.written ++ flush.queue.messages = messages
  calls : flush.calls = flush.written.map (fun m => (m, true)) ++
    (flush.queue.messages.take 1).map fun m => (m, false)
  result : flushResult flush = true ↔ flush.queue.messages = []

/-- The calls that have succeeded. -/
def succeeded (sent : List Message) : List (Message × Bool) := sent.map fun m => (m, true)

theorem written_of_calls {flush : Flush} {sent : List Message} (refused : Option Message)
    (calls : flush.calls = succeeded sent ++ refused.toList.map fun m => (m, false)) :
    flush.written = sent := by
  rw [Flush.written, calls]
  cases refused <;> simp [succeeded, List.filter_map, Function.comp_def]

/-- At the head of the loop every call so far has succeeded. -/
def Underway (messages : List Message) (flush : Flush) : Prop :=
  Answered writes flush ∧
    ∃ sent, flush.calls = succeeded sent ∧ sent ++ flush.queue.messages = messages

variable {writes}

theorem Answered.send {flush : Flush} (answered : Answered writes flush) (m : Message)
    (queue : State) :
    Answered writes ⟨queue, flush.calls ++ [(m, writes flush.calls.length)]⟩ := by
  rw [Answered] at answered
  simp [Answered, answered, List.range_succ]

theorem sendsPrefix_of_calls {messages sent : List Message} {flush : Flush}
    (answered : Answered writes flush)
    (calls : flush.calls = succeeded sent ++
      flush.queue.messages.head?.toList.map fun m => (m, false))
    (split : sent ++ flush.queue.messages = messages) : SendsPrefix writes messages flush := by
  have written : flush.written = sent := written_of_calls _ calls
  refine ⟨answered, by rw [written, split], ?_, List.isEmpty_iff⟩
  rw [written, calls]
  cases flush.queue.messages <;> rfl

theorem flushBody_cases {messages : List Message} {flush : Flush}
    (underway : Underway writes messages flush) :
    (∃ next, flushBody writes flush = .inl next ∧ Underway writes messages next ∧
      next.queue.messages.length < flush.queue.messages.length) ∨
    ∃ last, flushBody writes flush = .inr (some last) ∧ SendsPrefix writes messages last := by
  obtain ⟨⟨maxSize, cached⟩, calls⟩ := flush
  obtain ⟨answered, sent, rfl, split⟩ := underway
  cases cached with
  | nil => exact .inr ⟨_, rfl, sendsPrefix_of_calls answered (List.append_nil _).symm split⟩
  | cons m rest =>
      have next (queue : State) := answered.send m queue
      cases ok : writes (succeeded sent).length with
      | true =>
          rw [ok] at next
          refine .inl ⟨⟨⟨maxSize, rest⟩, succeeded sent ++ [(m, true)]⟩, ?_, ?_, Nat.lt_succ_self _⟩
          · simp [flushBody, State.front, State.popFront, sendMessageDirectly, ok]
          · exact ⟨next _, sent ++ [m], by simp [succeeded], by simpa using split⟩
      | false =>
          rw [ok] at next
          refine .inr ⟨⟨⟨maxSize, m :: rest⟩, succeeded sent ++ [(m, false)]⟩, ?_, ?_⟩
          · simp [flushBody, State.front, sendMessageDirectly, ok]
          · exact sendsPrefix_of_calls (next _) rfl split

/-- Whatever the writes do, the loop ends with a first part of the cache written. -/
theorem flushMessage_ends (writes : Nat → Bool) (queue : State) :
    ∃ flush, Loop.Ends (flushBody writes) ⟨queue, []⟩ (some flush) ∧
      SendsPrefix writes queue.messages flush := by
  have entered : Underway writes queue.messages ⟨queue, []⟩ := ⟨rfl, [], rfl, rfl⟩
  have kept (flush next : Flush) (underway : Underway writes queue.messages flush)
      (goes : flushBody writes flush = .inl next) :
      Underway writes queue.messages next ∧
        next.queue.messages.length < flush.queue.messages.length := by
    rcases flushBody_cases underway with ⟨after, went, still, shorter⟩ | ⟨last, done, _⟩
    · cases went.symm.trans goes
      exact ⟨still, shorter⟩
    · cases done.symm.trans goes
  obtain ⟨result, ends⟩ := Loop.ends_of_measure _ (fun flush => flush.queue.messages.length) kept
    entered
  obtain ⟨last, reached, done⟩ := ends.reached
  have underway := reached.invariant entered fun flush next still goes =>
    (kept flush next still goes).1
  rcases flushBody_cases underway with ⟨next, goes, _⟩ | ⟨flush, ended, sends⟩
  · cases goes.symm.trans done
  · cases ended.symm.trans done
    exact ⟨flush, ends, sends⟩

theorem ends_flushLoop (writes : Nat → Bool) (maxSize : Int32) (sent messages : List Message) :
    ∃ flush, Loop.Ends (flushBody writes) ⟨⟨maxSize, messages⟩, succeeded sent⟩ (some flush) ∧
      flush.written = sent ++ (Node.flushLoop writes sent.length messages).1 ∧
      flush.queue.messages = (Node.flushLoop writes sent.length messages).2 := by
  induction messages generalizing sent with
  | nil =>
      have written : (Flush.mk ⟨maxSize, []⟩ (succeeded sent)).written = sent :=
        written_of_calls none (List.append_nil _).symm
      exact ⟨_, Loop.ends_of_done rfl, written.trans (List.append_nil sent).symm, rfl⟩
  | cons m rest ih =>
      have count : (succeeded sent).length = sent.length := List.length_map _
      cases ok : writes sent.length with
      | true =>
          have goes : flushBody writes ⟨⟨maxSize, m :: rest⟩, succeeded sent⟩ =
              .inl ⟨⟨maxSize, rest⟩, succeeded (sent ++ [m])⟩ := by
            simp [flushBody, State.front, State.popFront, sendMessageDirectly, ok, succeeded]
          obtain ⟨flush, ends, written, left⟩ := ih (sent ++ [m])
          refine ⟨flush, (Loop.ends_iff_of_continues goes).mpr ends, ?_, ?_⟩
          · simpa [Node.flushLoop, ok] using written
          · simpa [Node.flushLoop, ok] using left
      | false =>
          have done : flushBody writes ⟨⟨maxSize, m :: rest⟩, succeeded sent⟩ =
              .inr (some ⟨⟨maxSize, m :: rest⟩, succeeded sent ++ [(m, false)]⟩) := by
            simp [flushBody, State.front, sendMessageDirectly, count, ok]
          have written : (Flush.mk ⟨maxSize, m :: rest⟩
              (succeeded sent ++ [(m, false)])).written = sent := written_of_calls (some m) rfl
          refine ⟨_, Loop.ends_of_done done, ?_, ?_⟩
          · simp [written, Node.flushLoop, ok]
          · simp [Node.flushLoop, ok]

/-- The loop does what the node's flush says of its cache and its connection. -/
theorem ends_flushMessage (node : Node) (queue : BoundedQueue Message kMaxCachedMessageNum)
    (conn : ConnId) (writes : Nat → Bool) :
    ∃ flush, Loop.Ends (flushBody writes) ⟨toState queue, []⟩ (some flush) ∧
      (node.flushMessage queue conn writes).2 =
        flush.written.map (Effect.wrote node.nodeAddress conn) ∧
      (node.flushMessage queue conn writes).1.cached = flush.queue.messages := by
  obtain ⟨flush, ends, written, left⟩ :=
    ends_flushLoop writes (Int32.ofNat kMaxCachedMessageNum) [] queue.elements
  refine ⟨flush, ends, ?_, left.symm⟩
  rw [written]
  rfl

end Cpmd.FlushMessage
