import Cpmd.DaemonProperties

/-! However connections come and go, a message that a client submits once for a
remote node is written on at most one of the node's connections, and once. -/

set_option autoImplicit false

namespace Cpmd.Daemon

open Library

theorem step_sparing {before after : State} {event : Event} {outputs : List Effect}
    (nodeAddress : UInt32) (stepped : step before event = some (after, outputs)) :
    ((outbox nodeAddress).sentBy outputs ++ (outbox nodeAddress).held after).Subperm
      ((outbox nodeAddress).held before ++ ((outbox nodeAddress).taken before event).toList) := by
  change (writtenTo nodeAddress outputs ++ after.server.cachedFor nodeAddress).Subperm
    (before.server.cachedFor nodeAddress ++ (submission nodeAddress before event).toList)
  rcases (step_transition stepped).outbox nodeAddress with
    ⟨client, raw, _, node, _, _, _, _, _, _, brought, sent, heldAfter, heldBefore⟩ |
    ⟨m, given, kept, brought, unwritten, heldBefore, heldAfter⟩ | ⟨nothing, moved⟩
  · -- Written past the cache: the order changes, the messages do not.
    rw [sent, brought, heldAfter, heldBefore]
    exact List.perm_append_comm.subperm
  · rw [unwritten, brought, heldBefore, List.nil_append, Option.toList_some]
    rcases heldAfter with joined | left
    · rw [joined, List.append_assoc]
      exact (List.sublist_append_right _ _).subperm
    · rw [left]
      exact (List.sublist_append_left _ _).subperm
  · rw [moved, nothing]
    exact (List.sublist_append_left _ _).subperm

/-- From any state on, what is written for a node and what then waits for it were
waiting before or submitted since, and no message more often than that. -/
theorem accounts_of_run {guard : State → Event → Prop} {start state : State}
    {history : List (EventMachine.Taken State Event Effect)}
    (run : machine.Run guard start history state) (nodeAddress : UInt32) :
    (writtenTo nodeAddress (EventMachine.outputs history) ++
        state.server.cachedFor nodeAddress).Subperm
      (start.server.cachedFor nodeAddress ++ (outbox nodeAddress).takenIn history) :=
  Outbox.sent_subperm (outbox nodeAddress) run
    (fun _ _ _ _ _ stepped => step_sparing nodeAddress stepped)

/-- In every run, whatever is closed, answered or fails in between, a message is
written and waits no more often than it was submitted. -/
theorem written_subperm_submitted {messageServerPort : Int32}
    {resolveServerAddress : NetAddress}
    {history : List (EventMachine.Taken State Event Effect)} {state : State}
    (run : machine.Run (fun _ _ => True) (State.initial messageServerPort resolveServerAddress)
      history state) (nodeAddress : UInt32) :
    (writtenTo nodeAddress (EventMachine.outputs history) ++
        state.server.cachedFor nodeAddress).Subperm
      ((outbox nodeAddress).takenIn history) :=
  accounts_of_run run nodeAddress

/-- A message is cached while its node is looked up and flushed when the connection
is up; the connection is lost, and the next message waits for the node again. -/
theorem written_subperm_submitted_reconnect :
    ∃ history, ∃ state : State,
      ((writtenTo 9 (EventMachine.outputs history)).length = 1 ∧
        (state.server.cachedFor 9).length = 1) ∧
      (writtenTo 9 (EventMachine.outputs history) ++ state.server.cachedFor 9).Subperm
        ((outbox 9).takenIn history) := by
  obtain ⟨history, state, run, both⟩ := EventMachine.exists_run_of_any
    machine (fun _ _ => True) (State.initial 8123 someResolveServer)
    [.connected someResolveServer (fun _ => true),
      .busMessage 1 someMessage (fun _ => true), .resolveServerMessage 0 someAnswer,
      .connected someNodeAddr (fun _ => true), .foundClosed 1, .disconnected 1,
      .busMessage 2 someMessage (fun _ => true), .busMessage 3 someMessage (fun _ => true)]
    (fun reached => (writtenTo 9 (EventMachine.outputs reached.1)).length == 1 &&
      (reached.2.server.cachedFor 9).length == 1)
    (by decide)
  have counts := (Bool.and_eq_true _ _).mp both
  exact ⟨history, state, ⟨eq_of_beq counts.1, eq_of_beq counts.2⟩,
    written_subperm_submitted run 9⟩

end Cpmd.Daemon
