import Cpmd.BusRounds
import Cpmd.MessageOnce

/-! A host's daemon as a daemon of its own: whatever a step of the host does to it, it
does by steps of the daemon, which are given the messages that the host's log says were
read for other nodes, and have the effects that the log says. -/

set_option autoImplicit false

namespace Cpmd

/-- The daemon handles a message from a client. -/
def Daemon.Event.FromClient : Daemon.Event → Prop
  | .busMessage _ _ _ => True
  | .resolveServerMessage _ _ | .connected _ _ | .connectError _ | .foundClosed _
  | .disconnected _ | .retry _ => False

namespace Host

open Library

/-- A message that was read from a client's bus and is for this node. Its source node
address is the daemon's own when the message was read. -/
def Routed.submittedTo (nodeAddress : UInt32) (entry : Routed) : Option Message :=
  if entry.source.isSome && entry.handled.remoteAddress.nodeAddr == nodeAddress &&
      entry.handled.remoteAddress.nodeAddr != entry.handled.sourceAddress.nodeAddr &&
      entry.handled.remoteAddress.nodeAddr != 0 then
    some entry.handled
  else none

def submittedTo (nodeAddress : UInt32) (log : List Routed) : List Message :=
  log.filterMap (Routed.submittedTo nodeAddress)

def effectsOf (log : List Routed) : List Effect := log.flatMap Routed.effects

@[simp] theorem submittedTo_append (nodeAddress : UInt32) (first second : List Routed) :
    submittedTo nodeAddress (first ++ second) =
      submittedTo nodeAddress first ++ submittedTo nodeAddress second :=
  List.filterMap_append

@[simp] theorem submittedTo_singleton (nodeAddress : UInt32) (entry : Routed) :
    submittedTo nodeAddress [entry] = (entry.submittedTo nodeAddress).toList := by
  rw [submittedTo, List.filterMap_cons]
  cases entry.submittedTo nodeAddress <;> rfl

theorem Routed.submittedTo_eq_some {nodeAddress : UInt32} {entry : Routed} {m : Message} :
    entry.submittedTo nodeAddress = some m ↔
      entry.source ≠ none ∧ entry.handled.remoteAddress.nodeAddr = nodeAddress ∧
        entry.handled.remoteAddress.nodeAddr ≠ entry.handled.sourceAddress.nodeAddr ∧
        entry.handled.remoteAddress.nodeAddr ≠ 0 ∧ entry.handled = m := by
  simp [submittedTo, Option.isSome_iff_ne_none, and_assoc]

@[simp] theorem effectsOf_append (first second : List Routed) :
    effectsOf (first ++ second) = effectsOf first ++ effectsOf second :=
  List.flatMap_append

/-- The daemon goes from one state to the other by steps that take in the messages of
the log that are for other nodes and have the effects given, all of them on events that
are admitted. -/
def Forwards (admitted : Daemon.Event → Prop) (before after : Daemon.State) (log : List Routed)
    (effects : List Effect) : Prop :=
  ∃ handled, Daemon.machine.Run (fun _ event => admitted event) before handled after ∧
    EventMachine.outputs handled = effects ∧
    ∀ nodeAddress, (Daemon.outbox nodeAddress).takenIn handled = submittedTo nodeAddress log

variable {admitted : Daemon.Event → Prop}

theorem Forwards.refl (daemon : Daemon.State) : Forwards admitted daemon daemon [] [] :=
  ⟨[], .nil, rfl, fun _ => rfl⟩

theorem Forwards.weaken {before after : Daemon.State} {log : List Routed} {effects : List Effect}
    (forwards : Forwards admitted before after log effects) :
    Forwards (fun _ => True) before after log effects := by
  obtain ⟨handled, run, did, brought⟩ := forwards
  exact ⟨handled, run.weaken fun _ _ _ => trivial, did, brought⟩

theorem Forwards.trans {first second third : Daemon.State} {earlier later : List Routed}
    {effects more : List Effect} (before : Forwards admitted first second earlier effects)
    (after : Forwards admitted second third later more) :
    Forwards admitted first third (earlier ++ later) (effects ++ more) := by
  obtain ⟨handled, run, did, brought⟩ := before
  obtain ⟨next, continued, further, added⟩ := after
  refine ⟨handled ++ next, run.append continued, ?_, fun nodeAddress => ?_⟩
  · rw [EventMachine.outputs_append, did, further]
  · rw [Outbox.takenIn_append, brought, added, submittedTo_append]

theorem Forwards.of_step {before after : Daemon.State} {event : Daemon.Event}
    {effects : List Effect} {log : List Routed} (fits : admitted event)
    (stepped : Daemon.step before event = some (after, effects))
    (brought : ∀ nodeAddress,
      (Daemon.submission nodeAddress before event).toList = submittedTo nodeAddress log) :
    Forwards admitted before after log effects := by
  have run : Daemon.machine.Run (fun _ event => admitted event) before
      [⟨before, event, effects, after⟩] after := EventMachine.Run.single fits stepped
  refine ⟨_, run, List.append_nil _, fun nodeAddress => ?_⟩
  have one := Outbox.takenIn_snoc (Daemon.outbox nodeAddress) [] ⟨before, event, effects, after⟩
  exact one.trans (brought nodeAddress)

theorem submission_of_others {event : Daemon.Event}
    (others : ∀ client m writes, event ≠ .busMessage client m writes) (daemon : Daemon.State)
    (nodeAddress : UInt32) : Daemon.submission nodeAddress daemon event = none := by
  cases event with
  | busMessage client m writes => exact absurd rfl (others client m writes)
  | _ => rfl

theorem submission_busMessage (nodeAddress : UInt32) (daemon : Daemon.State) (client : UInt32)
    (given : Message) (writes : Nat → Bool) (written : List (UInt32 × Bool)) (bytes : List UInt8)
    (droped : Option Message) (effects : List Effect) :
    (Daemon.submission nodeAddress daemon (.busMessage client given writes)).toList =
      submittedTo nodeAddress
        [⟨some client, given, daemon.server.stamp client given, written, bytes, droped,
          effects⟩] := by
  have own : (daemon.server.stamp client given).sourceAddress.nodeAddr =
      daemon.server.selfAddress := rfl
  rw [submittedTo_singleton]
  congr 1
  simp only [Daemon.submission, Routed.submittedTo, Server.remoteAddress_stamp, own,
    Server.isLocal, Option.isSome_some, Bool.true_and, Bool.not_or]
  cases given.remoteAddress.nodeAddr == nodeAddress <;> simp [bne]

theorem HandlesClient.forwards {host next : Host} {writes : Nat → Bool} {behind : List UInt8}
    {client : LocalClient} {m : Message} {routed : Routed}
    (handles : HandlesClient host writes behind client m next routed) :
    Forwards Daemon.Event.FromClient host.daemon next.daemon [routed] routed.effects := by
  have fits : Daemon.Event.FromClient (.busMessage client.addr.clientAddr m writes) := trivial
  cases handles with
  | @toLocal stamped here stamps =>
      subst stamps
      rw [(host.deliver_frame (writes 0) behind _).1]
      refine .of_step fits ?_ fun nodeAddress =>
        submission_busMessage nodeAddress _ client.addr.clientAddr m writes _ _ _ _
      simp only [Daemon.step, Server.handleBusMessage, Server.remoteAddress_stamp, here, if_true]
      rfl
  | @toRemote stamped _ _ _ here stamps handled =>
      subst stamps
      refine .of_step fits ?_ fun nodeAddress =>
        submission_busMessage nodeAddress _ client.addr.clientAddr m writes _ _ _ _
      simp only [Daemon.step, Server.handleBusMessage, Server.remoteAddress_stamp, here,
        Bool.false_eq_true, if_false, handled]
      rfl

theorem Rounds.forwards {host after : Host} {turns : List Turn} {log : List Routed}
    (rounds : Rounds host turns after log) :
    Forwards Daemon.Event.FromClient host.daemon after.daemon log (effectsOf log) := by
  induction rounds with
  | done _ => exact .refl _
  | dropped _ _ ih => exact ih
  | handled _ handled _ ih => exact handled.forwards.trans ih

theorem daemon_handleRemoteMessage (host : Host) (written : Bool) (behind : List UInt8)
    (m : Message) : (host.handleRemoteMessage written behind m).1.daemon = host.daemon := by
  unfold handleRemoteMessage
  split
  · rfl
  · exact (host.deliver_frame written behind m).1

/-- What a step of the host does to its daemon, other than let it handle an event of
its own. -/
theorem step_forwards {host after : Host} {event : Event} {outputs : List Routed}
    (others : ∀ own, event ≠ .daemon own)
    (stepped : step host event = some (after, outputs)) :
    Forwards Daemon.Event.FromClient host.daemon after.daemon outputs (effectsOf outputs) := by
  cases step_transition stepped with
  | refused _ | registered _ | submitted _ | received _ => exact .refl _
  | @daemon event _ _ _ _ => exact absurd rfl (others event)
  | drained handled => exact (handleBusMessage_rounds handled).forwards
  | @fromPeer m written behind =>
      rw [host.daemon_handleRemoteMessage written behind m]
      exact .refl _

theorem forwards_run {start host : Host}
    {history : List (EventMachine.Taken Host Event Routed)}
    (run : machine.Run (fun _ event => ∀ own, event ≠ .daemon own) start history host) :
    Forwards Daemon.Event.FromClient start.daemon host.daemon (EventMachine.outputs history)
      (effectsOf (EventMachine.outputs history)) := by
  induction run with
  | nil => exact .refl _
  | snoc _ others stepped ih =>
      rw [EventMachine.outputs_snoc, effectsOf_append]
      exact ih.trans (step_forwards others stepped)

end Host

end Cpmd
