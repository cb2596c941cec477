import Cpmd.DaemonProperties

/-! The source address that messages carry to remote nodes. It is stamped on a
message when it is read from its client's bus, and must be one that a reply can
be sent to when the message arrives. -/

set_option autoImplicit false

namespace Cpmd.Daemon

open Library

/-- A reply to the message's source, made at the node the message is for, is
routed to the daemon at `assigned`. -/
structure Returnable (assigned : UInt32) (m : Message) : Prop where
  source : m.sourceAddress.nodeAddr = assigned
  nonzero : assigned ≠ 0
  reply : ∀ (peer : Server) (answer : Message),
    peer.selfAddress = m.remoteAddress.nodeAddr → answer.remoteAddress = m.sourceAddress →
    peer.isLocal answer.remoteAddress = false ∧ answer.remoteAddress.nodeAddr = assigned

/-- The resolve server assigns no address but this one. -/
def Assigns (assigned : UInt32) : Event → Prop
  | .resolveServerMessage _ (.kResolveResponse resp) =>
      resp.type = .kUpdateSelf → resp.nodeAddr = assigned
  | _ => True

/-- No message for a remote node is read before an address was assigned. -/
def KnowsItself (state : State) : Event → Prop
  | .busMessage _ m _ =>
      state.server.isLocal m.remoteAddress = false →
        state.server.selfAddress ≠ Address.kLocalNodeAddress
  | _ => True

theorem step_honest {before after : State} {event : Event} {outputs : List Effect}
    (nodeAddress : UInt32) (stepped : step before event = some (after, outputs)) :
    (outbox nodeAddress).sentBy outputs ++ (outbox nodeAddress).held after ⊆
      (outbox nodeAddress).held before ++ ((outbox nodeAddress).taken before event).toList := by
  change writtenTo nodeAddress outputs ++ after.server.cachedFor nodeAddress ⊆
    before.server.cachedFor nodeAddress ++ (submission nodeAddress before event).toList
  rcases (step_transition stepped).outbox nodeAddress with
    ⟨client, raw, writes, node, rfl, _, _, _, _, _, brought, sent, heldAfter, heldBefore⟩ |
    ⟨m, given, kept, brought, unwritten, heldBefore, heldAfter⟩ | ⟨nothing, moved⟩
  · rw [sent, brought, heldAfter, heldBefore, Option.toList_some]
    exact (List.perm_append_comm).subset
  · rw [unwritten, brought, heldBefore, List.nil_append, Option.toList_some]
    rcases heldAfter with joined | left
    · rw [joined, List.append_assoc]
      exact List.subset_append_right _ _
    · rw [left]
      exact List.subset_append_left _ _
  · rw [moved, nothing]
    exact List.subset_append_left _ _

/-- Until an address is assigned the daemon's own is zero, and then it is that. -/
theorem selfAddress_run {assigned : UInt32} {messageServerPort : Int32}
    {resolveServerAddress : NetAddress} {guard : State → Event → Prop}
    {history : List (EventMachine.Taken State Event Effect)} {state : State}
    (run : machine.Run guard (State.initial messageServerPort resolveServerAddress)
      history state)
    (assigns : ∀ state event, guard state event → Assigns assigned event) :
    state.server.selfAddress = Address.kLocalNodeAddress ∨
      state.server.selfAddress = assigned := by
  refine run.state_invariant (fun state =>
    state.server.selfAddress = Address.kLocalNodeAddress ∨ state.server.selfAddress = assigned)
    (.inl rfl) (fun before event outputs after holds admitted stepped => ?_)
  rcases (step_transition stepped).selfAddress with same | ⟨conn, resp, rfl, kind, set⟩
  · rwa [same]
  · exact .inr (set.trans (assigns _ _ admitted kind))

theorem returnable_stamp {assigned client : UInt32} {server : Server} {m : Message}
    (nonzero : assigned ≠ 0) (own : server.selfAddress = assigned)
    (remote : server.isLocal m.remoteAddress = false) :
    Returnable assigned (server.stamp client m) := by
  have source : (server.stamp client m).sourceAddress.nodeAddr = assigned := own
  refine ⟨source, nonzero, fun peer answer there back => ?_⟩
  have target : answer.remoteAddress.nodeAddr = assigned := by rw [back, source]
  have elsewhere : m.remoteAddress.nodeAddr ≠ assigned := by
    intro same
    simp [Server.isLocal, own, same] at remote
  have peerAddress : peer.selfAddress = m.remoteAddress.nodeAddr := there
  refine ⟨?_, target⟩
  simp [Server.isLocal, target, peerAddress, nonzero, Ne.symm elsewhere]

/-- In a run in which no message for a remote node is read too early, every
message written to a remote node can be replied to. -/
theorem returnable_of_wrote {assigned : UInt32} {messageServerPort : Int32}
    {resolveServerAddress : NetAddress}
    {history : List (EventMachine.Taken State Event Effect)} {state : State}
    (nonzero : assigned ≠ 0)
    (run : machine.Run (fun state event => Assigns assigned event ∧ KnowsItself state event)
      (State.initial messageServerPort resolveServerAddress) history state)
    {node : UInt32} {conn : ConnId} {m : Message}
    (wrote : .wrote node conn m ∈ EventMachine.outputs history) : Returnable assigned m := by
  have all := Outbox.sent_subset (outbox node) run rfl
    (fun _ _ _ _ _ stepped => step_honest node stepped)
  have sent : m ∈ writtenTo node (EventMachine.outputs history) := mem_writtenTo.mpr ⟨conn, wrote⟩
  obtain ⟨taken, member, brought⟩ := List.mem_filterMap.mp (all (List.mem_append_left _ sent))
  obtain ⟨earlier, previous, ⟨_, known⟩, _⟩ := run.of_mem member
  have own := selfAddress_run previous (fun _ _ admitted => admitted.1)
  obtain ⟨before, event, outputs, after⟩ := taken
  cases event with
  | busMessage client raw writes =>
      cases here : before.server.isLocal raw.remoteAddress with
      | true => simp [outbox, submission, here] at brought
      | false =>
          simp only [outbox, submission, here, Bool.not_false, Bool.true_and, beq_iff_eq,
            Option.ite_none_right_eq_some, Option.some.injEq] at brought
          obtain ⟨_, rfl⟩ := brought
          exact returnable_stamp nonzero (own.resolve_left (known here)) here
  | resolveServerMessage | connected | connectError | foundClosed | disconnected | retry =>
      cases brought

instance (assigned : UInt32) : ∀ event, Decidable (Assigns assigned event)
  | .resolveServerMessage _ (.kResolveResponse resp) =>
      inferInstanceAs (Decidable (resp.type = .kUpdateSelf → resp.nodeAddr = assigned))
  | .resolveServerMessage _ (.other _) | .busMessage _ _ _ | .connected _ _ | .connectError _
  | .foundClosed _ | .disconnected _ | .retry _ => inferInstanceAs (Decidable True)

instance (state : State) : ∀ event, Decidable (KnowsItself state event)
  | .busMessage _ m _ =>
      inferInstanceAs (Decidable (state.server.isLocal m.remoteAddress = false →
        state.server.selfAddress ≠ Address.kLocalNodeAddress))
  | .resolveServerMessage _ _ | .connected _ _ | .connectError _ | .foundClosed _
  | .disconnected _ | .retry _ => inferInstanceAs (Decidable True)

def someSelfAddress : UInt32 := (Address.create [47, 98, 47]).nodeAddr

/-- The daemon learns its address before the first message is read. -/
theorem returnable_of_wrote_selfUpdate :
    ∃ history, .wrote 9 1 { someMessage with sourceAddress := ⟨someSelfAddress, 1⟩ } ∈
        EventMachine.outputs history ∧
      (∃ state, machine.Run (fun _ _ => True) (State.initial 8123 someResolveServer)
        history state) ∧
      Returnable someSelfAddress
        { someMessage with sourceAddress := ⟨someSelfAddress, 1⟩ } := by
  obtain ⟨history, state, run, written⟩ := EventMachine.exists_run_of_any
    machine (fun state event => Assigns someSelfAddress event ∧ KnowsItself state event)
    (State.initial 8123 someResolveServer)
    [.connected someResolveServer (fun _ => true),
      .resolveServerMessage 0 someSelfUpdate, .busMessage 1 someMessage (fun _ => true),
      .resolveServerMessage 0 someAnswer, .connected someNodeAddr (fun _ => true)]
    (fun reached => decide (.wrote 9 1
      { someMessage with sourceAddress := ⟨someSelfAddress, 1⟩ } ∈
        EventMachine.outputs reached.1)) (by decide)
  have wrote := of_decide_eq_true written
  exact ⟨history, wrote, ⟨state, run.weaken (fun _ _ _ => trivial)⟩,
    returnable_of_wrote (by decide) run wrote⟩

/-- A message is read before the daemon knows its address, and written, out of
the cache, after it does: its source has node address zero. -/
theorem not_returnable_before_selfUpdate :
    ∃ history state,
      machine.Run (fun _ event => Assigns someSelfAddress event)
        (State.initial 8123 someResolveServer) history state ∧
      state.server.selfAddress = someSelfAddress ∧
      ∃ node conn m, .wrote node conn m ∈ EventMachine.outputs history ∧
        ¬ Returnable someSelfAddress m := by
  obtain ⟨history, state, run, written⟩ := EventMachine.exists_run_of_any
    machine (fun _ event => Assigns someSelfAddress event)
    (State.initial 8123 someResolveServer)
    [.connected someResolveServer (fun _ => true),
      .busMessage 1 someMessage (fun _ => true), .resolveServerMessage 0 someSelfUpdate,
      .resolveServerMessage 0 someAnswer, .connected someNodeAddr (fun _ => true)]
    (fun reached => decide (reached.2.server.selfAddress = someSelfAddress ∧
      .wrote 9 1 { someMessage with sourceAddress := ⟨0, 1⟩ } ∈
        EventMachine.outputs reached.1)) (by decide)
  obtain ⟨own, wrote⟩ := of_decide_eq_true written
  refine ⟨history, state, run, own, 9, 1, _, wrote, fun returnable => ?_⟩
  exact absurd returnable.source (by decide)

end Cpmd.Daemon
