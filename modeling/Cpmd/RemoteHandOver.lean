import Cpmd.MessageAccounts

/-! Several messages handed over in a row: which of them are written at once, and which
wait. -/

set_option autoImplicit false

namespace Cpmd

open Library

/-- How many of the messages that come for a node one after another wait, by the outcomes
of the `Write`s for them: those whose `Write` fails, where there is an open connection, and
else all; and those that come while the node is not resolved, which the first of them ends
if it `asks` for the address. -/
def waitingAmong (connected asks : Bool) : Bool → List Bool → Nat
  | _, [] => 0
  | unresolved, written :: rest =>
      (if connected && !unresolved && written then 0 else 1) +
        waitingAmong connected asks (unresolved && !asks) rest

theorem Node.connected_of_opened {network after : Network}
    (opened : ∀ conn, after.isOpen conn = network.isOpen conn) (node : Node) :
    node.connected after = node.connected network := by
  unfold connected
  cases node.weakConn with
  | none => rfl
  | some conn => exact opened conn

namespace Server

theorem nodeOrNew_putNode (server : Server) (node : Node) (nodeAddress : UInt32) :
    (server.putNode node).nodeOrNew nodeAddress =
      if nodeAddress = node.nodeAddress then node else server.nodeOrNew nodeAddress := by
  rw [nodeOrNew, find_putNode]
  by_cases own : nodeAddress = node.nodeAddress <;> simp [own, nodeOrNew]

theorem idle_iff {server : Server} {network : Network} {nodeAddress : UInt32} :
    server.Idle network nodeAddress ↔ (server.nodeOrNew nodeAddress).resolved = true ∧
      (server.nodeOrNew nodeAddress).connected network = false ∧
      (server.nodeOrNew nodeAddress).connecting = false := by
  unfold Idle nodeOrNew
  cases server.nodes.find nodeAddress with
  | none => simp [Node.create, Node.resolved]
  | some node => simp

theorem idle_of_opened {network after : Network} {server : Server}
    {nodeAddress : UInt32}
    (opened : ∀ conn, after.isOpen conn = network.isOpen conn) :
    server.Idle after nodeAddress ↔ server.Idle network nodeAddress := by
  rw [Server.idle_iff, Server.idle_iff, Node.connected_of_opened opened]

theorem length_cachedFor_le (server : Server) (nodeAddress : UInt32) :
    (server.cachedFor nodeAddress).length ≤ kMaxCachedMessageNum := by
  unfold Server.cachedFor
  split
  · rename_i node _
    unfold Node.cached
    split
    · rename_i queue _
      exact queue.bounded
    · exact Nat.zero_le _
  · exact Nat.zero_le _

theorem HandlesToRemote.frame {server after : Server} {network : Network}
    {writes : Nat → Bool} {m : Message} {droped : Option Message} {effects : List Effect}
    (handles : HandlesToRemote server network writes m (after, droped, effects)) :
    after.resolveServerConn = server.resolveServerConn ∧
      (∀ conn, (network.carryOutAll effects).isOpen conn = network.isOpen conn) ∧
      ∀ other, other ≠ m.remoteAddress.nodeAddr →
        after.nodeOrNew other = server.nodeOrNew other := by
  have keyed := server.nodeAddress_nodeOrNew m.remoteAddress.nodeAddr
  have elsewhere {node : Node} (own : node.nodeAddress = m.remoteAddress.nodeAddr) (other : UInt32)
      (different : other ≠ m.remoteAddress.nodeAddr) :
      (server.putNode node).nodeOrNew other = server.nodeOrNew other := by
    rw [nodeOrNew_putNode, own, if_neg different]
  cases handles with
  | wrote found _ _ _ _ => exact ⟨rfl, fun _ => rfl, elsewhere (server.keyed found)⟩
  | cached found =>
      subst found
      exact ⟨rfl, fun _ => rfl, elsewhere keyed⟩
  | requested found _ requests =>
      subst found
      refine ⟨rfl, fun _ => ?_, elsewhere keyed⟩
      rcases requests with rfl | ⟨_, _, _, _, rfl⟩ <;> rfl
  | @connects node known found _ _ =>
      have own := server.keyed found
      have moved : (node.setConnecting true).nodeAddress = m.remoteAddress.nodeAddr := own
      exact ⟨rfl, fun _ => rfl, elsewhere moved⟩

/-- What handing over a message does for the next one to the same node. -/
structure Passes (server : Server) (network : Network) (writes : Nat → Bool) (m : Message)
    (handled : Server × Option Message × List Effect) : Prop where
  connected : (handled.1.nodeOrNew m.remoteAddress.nodeAddr).connected network =
    (server.nodeOrNew m.remoteAddress.nodeAddr).connected network
  notResolved : (handled.1.nodeOrNew m.remoteAddress.nodeAddr).notResolved =
    ((server.nodeOrNew m.remoteAddress.nodeAddr).notResolved && !server.resolveServerConn.isSome)
  busy : ¬ handled.1.Idle network m.remoteAddress.nodeAddr
  atOnce : (writtenTo m.remoteAddress.nodeAddr handled.2.2).isEmpty =
    !((server.nodeOrNew m.remoteAddress.nodeAddr).connected network &&
      !(server.nodeOrNew m.remoteAddress.nodeAddr).notResolved && writes 0)

theorem passes_putNode {server : Server} {network : Network} {writes : Nat → Bool} {m : Message}
    {node : Node} {droped : Option Message} {effects : List Effect}
    (own : node.nodeAddress = m.remoteAddress.nodeAddr)
    (connected : node.connected network =
      (server.nodeOrNew m.remoteAddress.nodeAddr).connected network)
    (notResolved : node.notResolved = ((server.nodeOrNew m.remoteAddress.nodeAddr).notResolved &&
      !server.resolveServerConn.isSome))
    (busy : node.resolved = true → node.connected network = false → node.connecting = true)
    (atOnce : (writtenTo m.remoteAddress.nodeAddr effects).isEmpty =
      !((server.nodeOrNew m.remoteAddress.nodeAddr).connected network &&
        !(server.nodeOrNew m.remoteAddress.nodeAddr).notResolved && writes 0)) :
    server.Passes network writes m (server.putNode node, droped, effects) := by
  have found : (server.putNode node).nodeOrNew m.remoteAddress.nodeAddr = node := by
    rw [nodeOrNew_putNode, own, if_pos rfl]
  refine ⟨by rw [found, connected], by rw [found, notResolved], fun idle => ?_, atOnce⟩
  obtain ⟨known, disconnected, unmarked⟩ := idle_iff.mp idle
  rw [found] at known disconnected unmarked
  rw [busy known disconnected] at unmarked
  cases unmarked

theorem passes_handleToUnresolved {server : Server} (network : Network) (writes : Nat → Bool)
    {m : Message}
    (unresolved : (server.nodeOrNew m.remoteAddress.nodeAddr).notResolved = true) :
    server.Passes network writes m (server.handleToUnresolved network writes
      (server.nodeOrNew m.remoteAddress.nodeAddr) m) := by
  have own := server.nodeAddress_nodeOrNew m.remoteAddress.nodeAddr
  unfold handleToUnresolved
  cases held : server.resolveServerConn with
  | some conn =>
      refine passes_putNode own rfl ?_ nofun ?_
      · simp only [held, Option.isSome_some, Bool.not_true, Bool.and_false]
        rfl
      · rw [own, unresolved]
        rcases server.reqeustNodeNetAddress_cases network writes m.remoteAddress.nodeAddr with
          unasked | ⟨_, _, _, _, asked⟩
        · simp [unasked]
        · simp [asked, writtenTo, Effect.messageTo]
  | none =>
      have unknown : (server.nodeOrNew m.remoteAddress.nodeAddr).resolved = false := by
        cases state : (server.nodeOrNew m.remoteAddress.nodeAddr).resolveState <;>
          simp [Node.notResolved, Node.resolved, state] at unresolved ⊢
      refine passes_putNode own rfl ?_ ?_ (by simp [unresolved])
      · rw [held, Option.isSome_none, Bool.not_false, Bool.and_true]
        rfl
      · intro known
        exact absurd (unknown.symm.trans known) (by decide)

theorem passes_cacheMessage {server : Server} {network : Network} {writes : Nat → Bool}
    {m : Message} {node : Node}
    (found : server.nodes.find m.remoteAddress.nodeAddr = some node)
    (settled : node.notResolved = false) (waits : (node.connected network && writes 0) = false)
    (busy : ¬ server.Idle network m.remoteAddress.nodeAddr) :
    server.Passes network writes m
      (server.putNode (node.cacheMessage m).1, (node.cacheMessage m).2, []) := by
  have known := nodeOrNew_of_find found
  have keyed : node.nodeAddress = m.remoteAddress.nodeAddr := server.keyed found
  have own : (node.cacheMessage m).1.nodeAddress = m.remoteAddress.nodeAddr := keyed
  refine passes_putNode own (by rw [known]; rfl) ?_ ?_ (by simp [known, settled, waits])
  · rw [known, settled, Bool.false_and]
    exact settled
  · intro resolved disconnected
    by_contra marked
    have unmarked : node.connecting = false := Bool.eq_false_iff.mpr marked
    exact busy ⟨node, found, resolved, disconnected, unmarked⟩

/-- It holds unless the node is resolved and idle. -/
theorem passes_handleToRemoteMessage {server : Server} {network : Network} (writes : Nat → Bool)
    {m : Message} (busy : ¬ server.Idle network m.remoteAddress.nodeAddr) :
    server.Passes network writes m (server.handleToRemoteMessage network writes m) := by
  have own := server.nodeAddress_nodeOrNew m.remoteAddress.nodeAddr
  cases unresolved : (server.nodeOrNew m.remoteAddress.nodeAddr).notResolved with
  | true =>
      rw [handleToRemoteMessage_of_notResolved unresolved network writes]
      exact passes_handleToUnresolved network writes unresolved
  | false =>
      cases found : server.nodes.find m.remoteAddress.nodeAddr with
      | none => simp [nodeOrNew, found, Node.create, Node.notResolved] at unresolved
      | some node =>
          have known := nodeOrNew_of_find found
          rw [known] at own unresolved
          unfold handleToRemoteMessage findNode
          simp only [found, unresolved, Bool.false_eq_true, if_false]
          split
          · rename_i connected
            rcases node.sendMessage_of_connected connected writes m with
              ⟨written, conn, bound, opened, sent⟩ | ⟨failed, sent⟩
            · rw [sent, server.keyed found]
              refine passes_putNode own (by rw [known]) (by rw [known, unresolved]; rfl) ?_ ?_
              · intro _ disconnected
                rw [connected] at disconnected
                cases disconnected
              · rw [writtenTo_wrote, if_pos rfl, known, connected, unresolved, written]
                rfl
            · rw [sent]
              exact passes_cacheMessage found unresolved (by simp [failed]) busy
          · rename_i disconnected
            have waits : (node.connected network && writes 0) = false := by simp [disconnected]
            split
            · exact passes_cacheMessage found unresolved waits busy
            · rename_i unmarked
              split
              · exact passes_cacheMessage found unresolved waits busy
              · rename_i unresolving
                split
                · rename_i resolved
                  exact absurd ⟨node, found, resolved, by simpa using disconnected,
                    by simpa using unmarked⟩ busy
                · rename_i unsettled
                  cases state : node.resolveState <;>
                    simp [Node.notResolved, Node.resolving, Node.resolved, state]
                      at unresolved unresolving unsettled

/-- A message for a node that is not idle is written at once, or waits behind the others,
of which the oldest is dropped where there is no room. -/
theorem HandlesToRemote.waits {server after : Server} {network : Network} {writes : Nat → Bool}
    {m : Message} {droped : Option Message} {effects : List Effect}
    (handles : HandlesToRemote server network writes m (after, droped, effects))
    (busy : ¬ server.Idle network m.remoteAddress.nodeAddr) :
    ((writtenTo m.remoteAddress.nodeAddr effects).isEmpty = false ∧ droped = none ∧
      after.cachedFor m.remoteAddress.nodeAddr = server.cachedFor m.remoteAddress.nodeAddr) ∨
    ((writtenTo m.remoteAddress.nodeAddr effects).isEmpty = true ∧
      server.cachedFor m.remoteAddress.nodeAddr ++ [m] =
        droped.toList ++ after.cachedFor m.remoteAddress.nodeAddr ∧
      (droped = none ∨
        (after.cachedFor m.remoteAddress.nodeAddr).length = kMaxCachedMessageNum)) := by
  rcases handles.own with ⟨_, conn, _, _, _, _, _, none, wrote, same⟩ |
    ⟨kept, unwritten, split, joined⟩ | ⟨idle, _, _⟩
  · refine .inl ⟨?_, none, same⟩
    rw [wrote, writtenTo_wrote, if_pos rfl]
    rfl
  · refine .inr ⟨by rw [unwritten]; rfl, by rw [split, joined, List.append_assoc], ?_⟩
    cases droped with
    | none => exact .inl rfl
    | some oldest =>
        have full := handles.full rfl
        rw [split] at full
        refine .inr ?_
        rw [joined, ← full]
        simp
  · exact absurd idle busy

/-- A message for an idle node is in neither place, and the node is not idle any more. -/
theorem handleToRemoteMessage_idles {server after : Server} {network : Network}
    {writes : Nat → Bool} {m : Message} {droped : Option Message} {effects : List Effect}
    (idle : server.Idle network m.remoteAddress.nodeAddr)
    (handled : server.handleToRemoteMessage network writes m = (after, droped, effects)) :
    droped = none ∧ (writtenTo m.remoteAddress.nodeAddr effects).isEmpty = true ∧
      after.cachedFor m.remoteAddress.nodeAddr = server.cachedFor m.remoteAddress.nodeAddr ∧
      ¬ after.Idle network m.remoteAddress.nodeAddr := by
  obtain ⟨node, member, known, disconnected, unmarked⟩ := idle
  have found := Option.mem_def.mp member
  have own := server.keyed found
  have keyed : m.remoteAddress.nodeAddr = (node.setConnecting true).nodeAddress := own.symm
  rw [handleToRemoteMessage_of_idle writes found known disconnected unmarked] at handled
  cases handled
  refine ⟨rfl, rfl, ?_, fun idle => ?_⟩
  · rw [cachedFor_putNode, if_pos keyed, Node.cached_setConnecting, cachedFor_of_find found]
  · obtain ⟨_, _, unmarked⟩ := idle_iff.mp idle
    rw [nodeOrNew_putNode, if_pos keyed] at unmarked
    cases unmarked

end Server

end Cpmd
