import Cpmd.Daemon
import Cpmd.ServerProperties

/-! No message to a remote node is lost or doubled when it is handled, save in
the branch that starts a connection. -/

set_option autoImplicit false

namespace Cpmd.Server

open Library

/-- The message is written to the node's open connection, or is the last of the
node's cache, but not both; what has left the cache is in `droped`; and no other
node's cache is touched. -/
structure Conserves (before : Server) (network : Network) (m : Message)
    (handled : Server × Option Message × List Effect) : Prop where
  accounted : ∃ kept,
    before.cachedFor m.remoteAddress.nodeAddr = handled.2.1.toList ++ kept ∧
    ((∃ node conn, before.nodes.find m.remoteAddress.nodeAddr = some node ∧
        node.weakConn = some conn ∧ network.isOpen conn = true ∧
        handled.2.2 = [.wrote m.remoteAddress.nodeAddr conn m] ∧
        handled.1.cachedFor m.remoteAddress.nodeAddr = kept) ∨
      ((∀ node, writtenTo node handled.2.2 = []) ∧
        handled.1.cachedFor m.remoteAddress.nodeAddr = kept ++ [m]))
  others : ∀ other, other ≠ m.remoteAddress.nodeAddr →
    handled.1.cachedFor other = before.cachedFor other

/-- In the branch that starts a connection the message is in neither place. -/
theorem not_conserves_of_idle {before : Server} {network : Network} {m : Message}
    (writes : Nat → Bool) (idle : before.Idle network m.remoteAddress.nodeAddr) :
    ¬ Conserves before network m (before.handleToRemoteMessage network writes m) := by
  obtain ⟨node, member, known, disconnected, unmarked⟩ := idle
  have found := Option.mem_def.mp member
  have held := before.keyed found
  have keyed : (node.setConnecting true).nodeAddress = m.remoteAddress.nodeAddr := held
  have unchanged := cachedFor_of_find found
  intro conserves
  obtain ⟨⟨kept, split, outcome⟩, _⟩ := conserves
  rw [handleToRemoteMessage_of_idle writes found known disconnected unmarked] at split outcome
  dsimp only at split outcome
  rw [cachedFor_putNode, if_pos keyed.symm, Node.cached_setConnecting] at outcome
  rcases outcome with ⟨_, _, _, _, _, impossible, _⟩ | ⟨_, after⟩
  · cases impossible
  · rw [unchanged, after, Option.toList_none, List.nil_append] at split
    simp at split

theorem HandlesToRemote.conserves {server : Server} {network : Network} {writes : Nat → Bool}
    {m : Message} {handled : Server × Option Message × List Effect}
    (handles : HandlesToRemote server network writes m handled)
    (busy : ¬ server.Idle network m.remoteAddress.nodeAddr) :
    Conserves server network m handled := by
  refine ⟨?_, fun other different => (handles.others different).2⟩
  rcases handles.own with ⟨node, conn, found, _, bound, opened, _, droped, effects, after⟩ |
      ⟨kept, unwritten, split, after⟩ | ⟨idle, _, _⟩
  · rw [droped]
    exact ⟨_, rfl, .inl ⟨node, conn, found, bound, opened, effects, after⟩⟩
  · exact ⟨kept, split, .inr ⟨unwritten, after⟩⟩
  · exact absurd idle busy

/-- A message is conserved exactly if its node is not both resolved and neither
connected nor marked as connecting. -/
theorem conserves_handleToRemoteMessage_iff (server : Server) (network : Network)
    (writes : Nat → Bool) (m : Message) :
    Conserves server network m (server.handleToRemoteMessage network writes m) ↔
      ¬ server.Idle network m.remoteAddress.nodeAddr :=
  ⟨fun conserved idle => not_conserves_of_idle writes idle conserved,
    (server.handleToRemoteMessage_handles network writes m).conserves⟩

end Cpmd.Server

namespace Cpmd.Daemon

open Library

/-- A node is looked up, connected to, and lost again: the next message to it is
neither written nor cached. -/
theorem not_conserves_after_disconnect :
    ∃ history state,
      machine.Run (fun _ _ => True) (State.initial 8123 someResolveServer) history state ∧
      ¬ Server.Conserves state.server state.network someMessage
        (state.server.handleToRemoteMessage state.network (fun _ => true) someMessage) := by
  obtain ⟨history, state, run, idle⟩ := EventMachine.exists_run_of_any
    machine (fun _ _ => True) (State.initial 8123 someResolveServer)
    [.connected someResolveServer (fun _ => true),
      .busMessage 1 someMessage (fun _ => true), .resolveServerMessage 0 someAnswer,
      .connected someNodeAddr (fun _ => true), .foundClosed 1, .disconnected 1]
    (fun reached => decide (reached.2.server.Idle reached.2.network 9)) (by decide)
  exact ⟨history, state, run, Server.not_conserves_of_idle _ (of_decide_eq_true idle)⟩

end Cpmd.Daemon
