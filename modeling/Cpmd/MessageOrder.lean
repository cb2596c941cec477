import Cpmd.DaemonProperties

/-! The order in which messages reach a remote node: by the direct path or out
of the cache, on one connection after another. -/

set_option autoImplicit false

namespace Cpmd.Daemon

open Library

/-- No message is written past others that wait for the same node. -/
def SendsInTurn (state : State) : Event → Prop
  | .busMessage _ m writes =>
      state.server.isLocal m.remoteAddress = false →
        ∀ node ∈ state.server.nodes.find m.remoteAddress.nodeAddr, node.notResolved = false →
          node.connected state.network = true → writes 0 = true → node.cached = []
  | _ => True

/-- What a step in turn writes and keeps for a node, it takes from the front of
the node's cache and, behind that, from the message it was given. -/
theorem step_orderly {before after : State} {event : Event} {outputs : List Effect}
    (nodeAddress : UInt32) (turn : SendsInTurn before event)
    (stepped : step before event = some (after, outputs)) :
    ((outbox nodeAddress).sentBy outputs ++ (outbox nodeAddress).held after).Sublist
      ((outbox nodeAddress).held before ++ ((outbox nodeAddress).taken before event).toList) := by
  change (writtenTo nodeAddress outputs ++ after.server.cachedFor nodeAddress).Sublist
    (before.server.cachedFor nodeAddress ++ (submission nodeAddress before event).toList)
  rcases (step_transition stepped).outbox nodeAddress with
    ⟨client, raw, writes, node, rfl, remote, found, resolvedOnce, connected, written, brought,
      sent, heldAfter, heldBefore⟩ |
    ⟨m, given, kept, brought, unwritten, heldBefore, heldAfter⟩ | ⟨nothing, moved⟩
  · have empty := turn remote node found resolvedOnce connected written
    rw [sent, brought, heldAfter, heldBefore, empty]
    exact List.Sublist.refl _
  · rw [unwritten, brought, heldBefore, List.nil_append, Option.toList_some]
    rcases heldAfter with joined | left
    · rw [joined, List.append_assoc]
      exact List.sublist_append_right _ _
    · rw [left]
      exact List.sublist_append_left _ _
  · rw [moved, nothing]
    exact List.sublist_append_left _ _

/-- What is written for a node in a run whose messages all keep their turn is, in
order, among what was submitted for it. -/
theorem written_sublist_submitted {messageServerPort : Int32}
    {resolveServerAddress : NetAddress}
    {history : List (EventMachine.Taken State Event Effect)} {state : State}
    (run : machine.Run SendsInTurn (State.initial messageServerPort resolveServerAddress)
      history state) (nodeAddress : UInt32) :
    (writtenTo nodeAddress (EventMachine.outputs history)).Sublist
      ((outbox nodeAddress).takenIn history) := by
  have all := Outbox.sent_sublist (outbox nodeAddress) run rfl
    (fun _ _ _ _ turn stepped => step_orderly nodeAddress turn stepped)
  exact (List.sublist_append_left _ _).trans all

instance (state : State) : ∀ event, Decidable (SendsInTurn state event)
  | .busMessage _ m writes =>
      inferInstanceAs (Decidable (state.server.isLocal m.remoteAddress = false →
        ∀ node ∈ state.server.nodes.find m.remoteAddress.nodeAddr, node.notResolved = false →
          node.connected state.network = true → writes 0 = true → node.cached = []))
  | .resolveServerMessage _ _ | .connected _ _ | .connectError _ | .foundClosed _
  | .disconnected _ | .retry _ => inferInstanceAs (Decidable True)

/-- A message that waits for the lookup of its node, and one that does not. -/
theorem written_sublist_submitted_lookup :
    ∃ history, (writtenTo 9 (EventMachine.outputs history)).length = 2 ∧
      (writtenTo 9 (EventMachine.outputs history)).Sublist ((outbox 9).takenIn history) := by
  obtain ⟨history, _, run, both⟩ := EventMachine.exists_run_of_any
    machine SendsInTurn (State.initial 8123 someResolveServer)
    [.connected someResolveServer (fun _ => true),
      .busMessage 1 someMessage (fun _ => true), .resolveServerMessage 0 someAnswer,
      .connected someNodeAddr (fun _ => true), .busMessage 2 someMessage (fun _ => true)]
    (fun reached => (writtenTo 9 (EventMachine.outputs reached.1)).length == 2)
    (by decide)
  exact ⟨history, eq_of_beq both, written_sublist_submitted run 9⟩

/-- The `Write` of a message fails, so that it is cached; the next one succeeds.
When the node is connected to again, the cached message follows the later one. -/
theorem not_written_sublist_submitted :
    ∃ history state,
      machine.Run (fun _ _ => True) (State.initial 8123 someResolveServer) history state ∧
      ¬ (writtenTo 9 (EventMachine.outputs history)).Sublist ((outbox 9).takenIn history) := by
  obtain ⟨history, state, run, late⟩ := EventMachine.exists_run_of_any
    machine (fun _ _ => True) (State.initial 8123 someResolveServer)
    [.connected someResolveServer (fun _ => true),
      .busMessage 1 someMessage (fun _ => true), .resolveServerMessage 0 someAnswer,
      .connected someNodeAddr (fun _ => true), .busMessage 2 someMessage (fun _ => false),
      .busMessage 3 someMessage (fun _ => true), .foundClosed 1, .disconnected 1,
      .resolveServerMessage 0 someAnswer, .connected someNodeAddr (fun _ => true)]
    (fun reached => decide (¬ (writtenTo 9 (EventMachine.outputs reached.1)).Sublist
      ((outbox 9).takenIn reached.1))) (by decide)
  exact ⟨history, state, run, of_decide_eq_true late⟩

end Cpmd.Daemon
