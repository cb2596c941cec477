import Cpmd.MessageConservation
import Cpmd.MessageOnce

/-! What becomes of all that clients submit for a remote node: it is written, or waits, or
is lost in one of two ways, and in no other. -/

set_option autoImplicit false

namespace Cpmd

open Library

theorem Node.cacheMessage_full {node : Node} {newMessage oldest : Message}
    (droped : (node.cacheMessage newMessage).2 = some oldest) :
    node.cached.length = kMaxCachedMessageNum := by
  unfold cacheMessage at droped
  unfold cached
  by_contra room
  cases messages : node.messagesToDeliver with
  | none =>
      rw [messages] at droped
      have empty : (BoundedQueue.empty : MessageCacheQueue kMaxCachedMessageNum).elements.length ≠
          kMaxCachedMessageNum := by decide
      rw [(BoundedQueue.push_of_room empty newMessage).1] at droped
      cases droped
  | some queue =>
      rw [messages] at droped room
      rw [(BoundedQueue.push_of_room room newMessage).1] at droped
      cases droped

namespace Server

/-- What the handling of a message loses: itself, where it only starts a connection, or
what leaves the cache for it. -/
def lost (server : Server) (network : Network) (writes : Nat → Bool) (m : Message) :
    List Message :=
  if server.Idle network m.remoteAddress.nodeAddr then [m]
  else (server.handleToRemoteMessage network writes m).2.1.toList

theorem HandlesToRemote.full {server : Server} {network : Network} {writes : Nat → Bool}
    {m oldest : Message} {handled : Server × Option Message × List Effect}
    (handles : HandlesToRemote server network writes m handled)
    (droped : handled.2.1 = some oldest) :
    (server.cachedFor m.remoteAddress.nodeAddr).length = kMaxCachedMessageNum := by
  rw [← server.cached_nodeOrNew]
  cases handles with
  | wrote _ _ _ _ _ | connects _ _ _ _ => cases droped
  | cached found =>
      rw [found]
      exact Node.cacheMessage_full droped
  | requested found _ _ =>
      rw [found]
      exact Node.cacheMessage_full droped

theorem handleToRemoteMessage_balanced (server : Server) (network : Network)
    (writes : Nat → Bool) (m : Message) :
    (writtenTo m.remoteAddress.nodeAddr (server.handleToRemoteMessage network writes m).2.2 ++
        ((server.handleToRemoteMessage network writes m).1.cachedFor m.remoteAddress.nodeAddr ++
          server.lost network writes m)).Perm
      (server.cachedFor m.remoteAddress.nodeAddr ++ [m]) := by
  by_cases idle : server.Idle network m.remoteAddress.nodeAddr
  · rw [lost, if_pos idle]
    obtain ⟨node, member, known, disconnected, unmarked⟩ := idle
    have found := Option.mem_def.mp member
    have held := server.keyed found
    have keyed : (node.setConnecting true).nodeAddress = m.remoteAddress.nodeAddr := held
    rw [handleToRemoteMessage_of_idle writes found known disconnected unmarked]
    dsimp only
    rw [cachedFor_putNode, if_pos keyed.symm, Node.cached_setConnecting, cachedFor_of_find found]
    exact List.Perm.refl _
  · have conserves := (server.handleToRemoteMessage_handles network writes m).conserves idle
    obtain ⟨kept, split, outcome⟩ := conserves.accounted
    rw [lost, if_neg idle, split]
    rcases outcome with ⟨node, conn, _, _, _, wrote, after⟩ | ⟨unwritten, after⟩
    · rw [wrote, after, writtenTo_wrote, if_pos rfl]
      exact (List.perm_append_comm.append_left [m]).trans List.perm_append_comm
    · rw [unwritten, after, List.nil_append, List.append_assoc]
      refine (List.perm_append_comm.append_left kept).trans ?_
      rw [← List.append_assoc]
      exact List.perm_append_comm.append_right [m]

theorem lost_cases {server : Server} {network : Network} {writes : Nat → Bool} {m gone : Message}
    (member : gone ∈ server.lost network writes m) :
    (server.Idle network m.remoteAddress.nodeAddr ∧ gone = m) ∨
      ((server.cachedFor m.remoteAddress.nodeAddr).length = kMaxCachedMessageNum ∧
        (server.cachedFor m.remoteAddress.nodeAddr).head? = some gone) := by
  by_cases idle : server.Idle network m.remoteAddress.nodeAddr
  · rw [lost, if_pos idle] at member
    exact .inl ⟨idle, List.mem_singleton.mp member⟩
  · rw [lost, if_neg idle] at member
    have handles := server.handleToRemoteMessage_handles network writes m
    obtain ⟨kept, split, _⟩ := (handles.conserves idle).accounted
    have droped := Option.mem_toList.mp member
    refine .inr ⟨handles.full droped, ?_⟩
    rw [split, Option.mem_def.mp droped]
    rfl

end Server

namespace Daemon

/-- What a step loses of the messages for a node. -/
def lost (nodeAddress : UInt32) (state : State) : Event → List Message
  | .busMessage client m writes =>
      if !state.server.isLocal m.remoteAddress && m.remoteAddress.nodeAddr == nodeAddress then
        state.server.lost state.network writes (state.server.stamp client m)
      else []
  | _ => []

theorem lost_of_not_submitted {nodeAddress : UInt32} {state : State} {event : Event}
    (nothing : submission nodeAddress state event = none) : lost nodeAddress state event = [] := by
  cases event with
  | busMessage client m writes =>
      simp only [submission] at nothing
      simp only [lost]
      split
      · rename_i submitted
        rw [if_pos submitted] at nothing
        cases nothing
      · rfl
  | _ => rfl

/-- A step writes, keeps or loses each message that was kept before or is submitted. -/
theorem step_balanced {before after : State} {event : Event} {outputs : List Effect}
    (nodeAddress : UInt32) (stepped : step before event = some (after, outputs)) :
    ((outbox nodeAddress).sentBy outputs ++
        ((outbox nodeAddress).held after ++ lost nodeAddress before event)).Perm
      ((outbox nodeAddress).held before ++ ((outbox nodeAddress).taken before event).toList) := by
  change (writtenTo nodeAddress outputs ++
      (after.server.cachedFor nodeAddress ++ lost nodeAddress before event)).Perm
    (before.server.cachedFor nodeAddress ++ (submission nodeAddress before event).toList)
  cases brought : submission nodeAddress before event with
  | none =>
      rw [lost_of_not_submitted brought, List.append_nil, Option.toList_none, List.append_nil,
        (step_transition stepped).accounts brought]
  | some submitted =>
      cases event with
      | busMessage client m writes =>
          simp only [submission] at brought
          split at brought
          · rename_i there
            obtain ⟨remote, own⟩ := Bool.and_eq_true_iff.mp there
            rw [Bool.not_eq_true'] at remote
            have same := eq_of_beq own
            subst same
            cases brought
            have balanced := before.server.handleToRemoteMessage_balanced before.network writes
              (before.server.stamp client m)
            simp only [step, Server.handleBusMessage, Server.remoteAddress_stamp, remote,
              Bool.false_eq_true, if_false] at stepped balanced
            cases stepped
            simp only [lost, there, if_true]
            exact balanced
          · cases brought
      | _ => cases brought

/-- What may become of messages for a node in a run: nothing but what is written, waits, or
is lost, each as often as it was submitted; and what is lost is a message that only starts
a connection, or the first of a cache that is full. -/
structure Accounted (nodeAddress : UInt32) (history : List (EventMachine.Taken State Event Effect))
    (state : State) : Prop where
  balance : (writtenTo nodeAddress (EventMachine.outputs history) ++
      (state.server.cachedFor nodeAddress ++ Outbox.lostIn (lost nodeAddress) history)).Perm
    ((outbox nodeAddress).takenIn history)
  losses : ∀ taken ∈ history, ∀ m ∈ lost nodeAddress taken.before taken.event,
    (taken.before.server.Idle taken.before.network nodeAddress ∧
        submission nodeAddress taken.before taken.event = some m) ∨
      ((taken.before.server.cachedFor nodeAddress).length = kMaxCachedMessageNum ∧
        (taken.before.server.cachedFor nodeAddress).head? = some m)

theorem gone_cases {nodeAddress : UInt32} {state : State} {event : Event} {m : Message}
    (member : m ∈ lost nodeAddress state event) :
    (state.server.Idle state.network nodeAddress ∧
        submission nodeAddress state event = some m) ∨
      ((state.server.cachedFor nodeAddress).length = kMaxCachedMessageNum ∧
        (state.server.cachedFor nodeAddress).head? = some m) := by
  cases event with
  | busMessage client raw writes =>
      simp only [lost] at member
      split at member
      · rename_i there
        obtain ⟨_, own⟩ := Bool.and_eq_true_iff.mp there
        have same := eq_of_beq own
        subst same
        rcases Server.lost_cases member with ⟨idle, rfl⟩ | full
        · exact .inl ⟨idle, by simp only [submission, there, if_true]⟩
        · exact .inr full
      · cases member
  | _ => cases member

theorem accounted_run {messageServerPort : Int32} {resolveServerAddress : NetAddress}
    {history : List (EventMachine.Taken State Event Effect)} {state : State}
    (run : machine.Run (fun _ _ => True) (State.initial messageServerPort resolveServerAddress)
      history state) (nodeAddress : UInt32) :
    Accounted nodeAddress history state where
  balance := (outbox nodeAddress).sent_held_lost_perm (lost nodeAddress) run
    fun _ _ _ _ _ stepped => step_balanced nodeAddress stepped
  losses := fun _ _ _ member => gone_cases member

theorem accounted_run_reconnect :
    ∃ history, ∃ state : State, (writtenTo 9 (EventMachine.outputs history)).length = 1 ∧
      (state.server.cachedFor 9).length = 1 ∧
      (Outbox.lostIn (lost 9) history).length = 1 ∧ Accounted 9 history state := by
  obtain ⟨history, state, run, counted⟩ := EventMachine.exists_run_of_any
    machine (fun _ _ => True) (State.initial 8123 someResolveServer)
    [.connected someResolveServer (fun _ => true),
      .busMessage 1 someMessage (fun _ => true), .resolveServerMessage 0 someAnswer,
      .connected someNodeAddr (fun _ => true), .foundClosed 1, .disconnected 1,
      .busMessage 2 someMessage (fun _ => true), .busMessage 3 someMessage (fun _ => true)]
    (fun reached => decide ((writtenTo 9 (EventMachine.outputs reached.1)).length = 1 ∧
      (reached.2.server.cachedFor 9).length = 1 ∧
      (Outbox.lostIn (lost 9) reached.1).length = 1))
    (by decide +kernel)
  obtain ⟨written, waiting, gone⟩ := of_decide_eq_true counted
  exact ⟨history, state, written, waiting, gone, accounted_run run 9⟩

end Daemon

end Cpmd
