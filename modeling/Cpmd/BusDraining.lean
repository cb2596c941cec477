import Cpmd.LocalRouting
import Cpmd.NodeRounds

/-! One call of `HandleBusMessage`: what it takes off the buses, what it leaves there, and
what becomes of each message. -/

set_option autoImplicit false

namespace Cpmd.Host

open Library

/-- The results of a cron function of `alpha::EventLoop`. -/
inductive CronResult where
  | kBusy
  | kIdle
deriving DecidableEq

/-- `busy` is set in each round of the inner loop, of which each leaves an entry. -/
def cronResult (log : List Routed) : CronResult := if log.isEmpty then .kIdle else .kBusy

/-- Between two states all records were taken off the buses, and all messages among them
read, in the order of each bus, and forwarded: a message for a client that is registered
here was offered to its bus, and one for another node was written to it or put behind the
messages that wait for it, of which the oldest made room. -/
structure Drained (host after : Host) (log : List Routed) : Prop where
  emptied : ∀ key, after.pending key = []
  read : ∀ key, readFrom key log = (host.pending key).filterMap ClientInfo.checkRecord
  sound : ∀ entry ∈ log, entry.Sound host
  offered : ∀ entry ∈ log, entry.Offered host
  posted : ∀ key, after.posted key = host.posted key ++ writtenFor key log
  kept : ∀ nodeAddress, host.daemon.server.cachedFor nodeAddress ++ waitingFor nodeAddress log =
    dropedFor nodeAddress log ++ after.daemon.server.cachedFor nodeAddress
  busy : (∃ key, ∃ record ∈ host.pending key, ClientInfo.accepts record = true) →
    cronResult log = .kBusy

/-- No message was lost on its way: there was a client for each, with room on its bus, and
what made room in a cache had waited there before. -/
structure LosesNone (host : Host) (log : List Routed) : Prop where
  delivered : ∀ entry ∈ log, host.daemon.server.isLocal entry.handled.remoteAddress = true →
    entry.writes = [(entry.handled.remoteAddress.clientAddr, true)]
  old : ∀ nodeAddress, ∃ left,
    host.daemon.server.cachedFor nodeAddress = dropedFor nodeAddress log ++ left

/-- One call takes every record off the buses, forwards those that `ReadMessage`
accepts, in the order of each bus, drops no others, and is busy if there is one. -/
def Drains (host : Host) (writes : UInt32 → Nat → Nat → Bool)
    (behind : UInt32 → Nat → List UInt8) : Prop :=
  ∃ after log, host.handleBusMessage writes behind = some (after, log) ∧ host.Drained after log

/-- It also loses none of them where it forwards them to. -/
def DrainsWithoutLoss (host : Host) (writes : UInt32 → Nat → Nat → Bool)
    (behind : UInt32 → Nat → List UInt8) : Prop :=
  ∃ after log, host.handleBusMessage writes behind = some (after, log) ∧
    host.Drained after log ∧ host.LosesNone log

/-- No record stands behind one that `ReadMessage` refuses. -/
def RefusesLast (host : Host) : Prop :=
  ∀ key before refused behind, host.pending key = before ++ refused :: behind →
    ClientInfo.accepts refused = false → behind = []

/-- No other node that a message is for is resolved, and neither connected nor marked as
connecting. -/
def Awake (host : Host) (turns : List Turn) : Prop :=
  ∀ turn ∈ turns, host.daemon.server.isLocal turn.given.remoteAddress = false →
    ¬ host.daemon.server.Idle host.daemon.network turn.given.remoteAddress.nodeAddr

/-- The buses and caches can take all messages: a receiver here is registered and its bus
has room, and no more messages come to wait for a node than its cache can hold. -/
structure Takes (host : Host) (turns : List Turn) : Prop where
  registered : ∀ turn ∈ turns, host.daemon.server.isLocal turn.given.remoteAddress = true →
    (host.identities turn.given.remoteAddress.clientAddr).isSome = true ∧ turn.writes 0 = true
  room : ∀ nodeAddress, host.waiting nodeAddress turns ≤ kMaxCachedMessageNum

/-- A round writes its message to a client here exactly if that is registered and its bus
has room. -/
theorem HandlesClient.delivered_iff {host next : Host} {writes : Nat → Bool}
    {behind : List UInt8} {client : LocalClient} {m : Message} {routed : Routed}
    (handles : HandlesClient host writes behind client m next routed) :
    (host.daemon.server.isLocal routed.handled.remoteAddress = true →
        routed.writes = [(routed.handled.remoteAddress.clientAddr, true)]) ↔
      (host.daemon.server.isLocal m.remoteAddress = true →
        (host.identities m.remoteAddress.clientAddr).isSome = true ∧ writes 0 = true) := by
  cases handles with
  | toLocal here stamps =>
      subst stamps
      simp only [Server.remoteAddress_stamp, here, true_implies]
      cases registered : (host.identities m.remoteAddress.clientAddr).isSome with
      | true =>
          have there : (host.identities (host.daemon.server.stamp client.addr.clientAddr
              m).remoteAddress.clientAddr).isSome = true := registered
          simp [deliver_of_identities there (writes 0) behind]
      | false =>
          have missing : host.clients.find m.remoteAddress.clientAddr = none := by
            simpa [identities] using registered
          have none : (host.deliver (writes 0) behind (host.daemon.server.stamp
              client.addr.clientAddr m)).2 = [] := by
            simp [deliver, missing]
          simp [none]
  | toRemote elsewhere stamps _ =>
      subst stamps
      simp [elsewhere]

theorem Rounds.delivered_iff {host after : Host} {turns : List Turn} {log : List Routed}
    (rounds : Rounds host turns after log) :
    (∀ entry ∈ log, host.daemon.server.isLocal entry.handled.remoteAddress = true →
        entry.writes = [(entry.handled.remoteAddress.clientAddr, true)]) ↔
      ∀ turn ∈ turns, host.daemon.server.isLocal turn.given.remoteAddress = true →
        (host.identities turn.given.remoteAddress.clientAddr).isSome = true ∧
          turn.writes 0 = true := by
  induction rounds with
  | done _ => simp
  | dropped found _ ih =>
      simp only [identities_leave found] at ih
      exact ih
  | handled found handled _ ih =>
      obtain ⟨self, identities, _⟩ := handled.frame
      have first := handled.delivered_iff
      simp only [Server.isLocal, identities, identities_leave found, self] at ih first
      rw [List.forall_mem_cons, List.forall_mem_cons]
      exact and_congr first ih

theorem Awake.of_isFor {host : Host} {turns : List Turn} (awake : host.Awake turns)
    (nodeAddress : UInt32) :
    ∀ turn ∈ turns, host.isFor nodeAddress turn.given = true →
      ¬ host.daemon.server.Idle host.daemon.network nodeAddress := by
  intro turn member own
  have remote : host.daemon.server.isLocal turn.given.remoteAddress = false ∧
      turn.given.remoteAddress.nodeAddr = nodeAddress := by simpa [isFor] using own
  rw [← remote.2]
  exact awake turn member remote.1

theorem cronResult_busy {log : List Routed} {key : UInt32} (read : readFrom key log ≠ []) :
    cronResult log = .kBusy := by
  cases log with
  | nil => exact absurd rfl read
  | cons entry log => rfl

theorem drained_of_awake {host after : Host} {writes : UInt32 → Nat → Nat → Bool}
    {behind : UInt32 → Nat → List UInt8} {log : List Routed} (keyed : Keyed host)
    (last : RefusesLast host) (awake : host.Awake (host.turns writes behind))
    (handled : host.handleBusMessage writes behind = some (after, log)) :
    host.Drained after log := by
  have accounts := accounts_of_drained keyed handled
  have rounds := handleBusMessage_rounds handled
  have emptied (key : UInt32) : after.pending key = [] := by
    rw [handleBusMessage_pending handled]
    exact Draining.leftBehind_eq_nil_iff.mpr (last key)
  have read (key : UInt32) :
      readFrom key log = (host.pending key).filterMap ClientInfo.checkRecord := by
    obtain ⟨taken, split, messages⟩ := accounts.read key
    rw [emptied, List.append_nil] at split
    rw [messages, split]
  exact {
    emptied := emptied
    read := read
    sound := accounts.sound
    offered := rounds.offered
    posted := accounts.written
    kept := fun nodeAddress => (rounds.kept (awake.of_isFor nodeAddress)).1
    busy := by
      intro valid
      obtain ⟨key, record, member, accepted⟩ := valid
      obtain ⟨m, checked⟩ := Option.isSome_iff_exists.mp accepted
      have there : m ∈ readFrom key log := by
        rw [read]
        exact List.mem_filterMap.mpr ⟨record, member, checked⟩
      exact cronResult_busy (List.ne_nil_of_mem there) }

theorem Drained.refusesLast {host after : Host} {writes : UInt32 → Nat → Nat → Bool}
    {behind : UInt32 → Nat → List UInt8} {log : List Routed} (drained : host.Drained after log)
    (handled : host.handleBusMessage writes behind = some (after, log)) : RefusesLast host := by
  intro key
  have left := handleBusMessage_pending handled key
  rw [drained.emptied] at left
  exact Draining.leftBehind_eq_nil_iff.mp left.symm

theorem Drained.awake {host after : Host} {writes : UInt32 → Nat → Nat → Bool}
    {behind : UInt32 → Nat → List UInt8} {log : List Routed} (drained : host.Drained after log)
    (handled : host.handleBusMessage writes behind = some (after, log)) :
    host.Awake (host.turns writes behind) := by
  intro turn member elsewhere idle
  have lost := (handleBusMessage_rounds handled).not_kept idle
    ⟨turn, member, by simp [isFor, elsewhere]⟩
  have kept := congrArg List.length (drained.kept turn.given.remoteAddress.nodeAddr)
  rw [List.length_append, List.length_append] at kept
  omega

/-- What is dropped of a cache waited there before exactly if what comes to wait fits into
it. -/
theorem old_iff_room {host after : Host} {turns : List Turn} {log : List Routed}
    (rounds : Rounds host turns after log) (awake : host.Awake turns) (nodeAddress : UInt32) :
    (∃ left, host.daemon.server.cachedFor nodeAddress = dropedFor nodeAddress log ++ left) ↔
      host.waiting nodeAddress turns ≤ kMaxCachedMessageNum := by
  obtain ⟨order, count, full⟩ := rounds.kept (awake.of_isFor nodeAddress)
  have limit := Server.length_cachedFor_le after.daemon.server nodeAddress
  have lengths := congrArg List.length order
  rw [List.length_append, List.length_append] at lengths
  constructor
  · intro old
    obtain ⟨left, held⟩ := old
    rw [held, List.length_append] at lengths
    omega
  · intro few
    rcases List.append_eq_append_iff.mp order with ⟨more, gone, _⟩ | ⟨left, held, _⟩
    · have longer := congrArg List.length gone
      rw [List.length_append] at longer
      have none : more = [] := by
        refine List.eq_nil_of_length_eq_zero ?_
        rcases full with nothing | full
        · rw [nothing, List.length_nil] at longer
          omega
        · omega
      exact ⟨[], by rw [gone, none, List.append_nil, List.append_nil]⟩
    · exact ⟨left, held⟩

theorem losesNone_iff {host after : Host} {turns : List Turn} {log : List Routed}
    (rounds : Rounds host turns after log) (awake : host.Awake turns) :
    host.LosesNone log ↔ host.Takes turns :=
  ⟨fun loses => ⟨rounds.delivered_iff.mp loses.delivered,
      fun nodeAddress => (old_iff_room rounds awake nodeAddress).mp (loses.old nodeAddress)⟩,
    fun takes => ⟨rounds.delivered_iff.mpr takes.registered,
      fun nodeAddress => (old_iff_room rounds awake nodeAddress).mpr (takes.room nodeAddress)⟩⟩

/-- A call drains the buses exactly if on none of them a record stands behind a malformed
one, and no message that it reaches is for an idle node; and it does so without loss
exactly if the messages can also be taken where they go. -/
theorem drains_run_iff {messageServerPort : Int32} {resolveServerAddress : NetAddress}
    {busLocation : List UInt8} {history : List (EventMachine.Taken Host Event Routed)}
    {host : Host} (run : machine.Run (fun _ _ => True)
      (initial messageServerPort resolveServerAddress busLocation) history host)
    (writes : UInt32 → Nat → Nat → Bool) (behind : UInt32 → Nat → List UInt8) :
    (host.Drains writes behind ↔
        RefusesLast host ∧ host.Awake (host.turns writes behind)) ∧
      (host.DrainsWithoutLoss writes behind ↔ RefusesLast host ∧
        host.Awake (host.turns writes behind) ∧ host.Takes (host.turns writes behind)) := by
  have keyed := keyed_run run
  obtain ⟨after, log, handled, _⟩ := handleBusMessage_accounts writes behind keyed
  have rounds := handleBusMessage_rounds handled
  refine ⟨⟨fun drains => ?_, fun conditions => ?_⟩, ⟨fun drains => ?_, fun conditions => ?_⟩⟩
  · obtain ⟨_, _, handled, drained⟩ := drains
    exact ⟨drained.refusesLast handled, drained.awake handled⟩
  · exact ⟨after, log, handled, drained_of_awake keyed conditions.1 conditions.2 handled⟩
  · obtain ⟨_, _, handled, drained, loses⟩ := drains
    have awake := drained.awake handled
    exact ⟨drained.refusesLast handled, awake,
      (losesNone_iff (handleBusMessage_rounds handled) awake).mp loses⟩
  · obtain ⟨last, awake, takes⟩ := conditions
    exact ⟨after, log, handled, drained_of_awake keyed last awake handled,
      (losesNone_iff rounds awake).mpr takes⟩

theorem refusesLast_of_keys {host : Host} (last : ∀ key ∈ host.clients.keys,
    Draining.leftBehind ClientInfo.accepts (host.pending key) = []) : RefusesLast host := by
  intro key
  refine Draining.leftBehind_eq_nil_iff.mp ?_
  by_cases known : key ∈ host.clients.keys
  · exact last key known
  · have absent : host.clients.find key = none := AList.lookup_eq_none.mpr known
    rw [pending, absent]
    rfl

theorem waitingAmong_le_length (connected asks unresolved : Bool) (outcomes : List Bool) :
    waitingAmong connected asks unresolved outcomes ≤ outcomes.length := by
  induction outcomes generalizing unresolved with
  | nil => exact Nat.le_refl 0
  | cons written rest ih =>
      rw [waitingAmong, List.length_cons, Nat.add_comm]
      refine Nat.add_le_add (ih _) ?_
      split
      · exact Nat.zero_le 1
      · exact Nat.le_refl 1

/-- Few messages fit into any cache. -/
theorem waiting_le_length (host : Host) (nodeAddress : UInt32) (turns : List Turn) :
    host.waiting nodeAddress turns ≤ turns.length := by
  refine (waitingAmong_le_length _ _ _ _).trans ?_
  rw [List.length_map]
  exact List.length_filter_le _ _

/-- Client `a`'s messages to client `b` and to another node, with a record behind them
that is too short for one. -/
theorem drains_run_iff_last :
    ∃ history host, machine.Run (fun _ _ => True)
        (initial 8123 Daemon.someResolveServer [47, 116, 109, 112]) history host ∧
      host.pending (someKey [97]) =
        [someLocalMessage.serialize, Daemon.someMessage.serialize, [1, 2, 3]] ∧
      host.DrainsWithoutLoss (fun _ _ _ => true) fun _ _ => [] := by
  obtain ⟨history, host, run, offered⟩ := EventMachine.exists_run_of_any
    machine (fun _ _ => True) (initial 8123 Daemon.someResolveServer [47, 116, 109, 112])
    [handShakeOf [97], handShakeOf [98], .submit (someKey [97]) someLocalMessage.serialize,
      .submit (someKey [97]) Daemon.someMessage.serialize, .submit (someKey [97]) [1, 2, 3]]
    (fun reached =>
      let turns := reached.2.turns (fun _ _ _ => true) fun _ _ => []
      decide (reached.2.pending (someKey [97]) =
        [someLocalMessage.serialize, Daemon.someMessage.serialize, [1, 2, 3]] ∧
      (reached.2.clients.keys.all fun key =>
        (Draining.leftBehind ClientInfo.accepts (reached.2.pending key)).isEmpty) = true ∧
      (∀ turn ∈ turns, reached.2.daemon.server.isLocal turn.given.remoteAddress = true →
        (reached.2.identities turn.given.remoteAddress.clientAddr).isSome = true ∧
          turn.writes 0 = true) ∧
      (∀ turn ∈ turns, reached.2.daemon.server.isLocal turn.given.remoteAddress = false →
        ¬ reached.2.daemon.server.Idle reached.2.daemon.network
          turn.given.remoteAddress.nodeAddr) ∧
      turns.length ≤ kMaxCachedMessageNum))
    (by decide +kernel)
  obtain ⟨waiting, last, registered, awake, few⟩ := of_decide_eq_true offered
  have refusesLast : host.RefusesLast := refusesLast_of_keys fun key member =>
    List.isEmpty_iff.mp (List.all_eq_true.mp last key member)
  exact ⟨history, host, run, waiting, (drains_run_iff run _ _).2.mpr ⟨refusesLast,
    awake, registered, fun nodeAddress => (host.waiting_le_length nodeAddress _).trans few⟩⟩

/-- The other way round, the message stays on the bus. -/
theorem not_drains_behind :
    ∃ history host, machine.Run (fun _ _ => True)
        (initial 8123 Daemon.someResolveServer [47, 116, 109, 112]) history host ∧
      host.pending (someKey [97]) = [[1, 2, 3], someLocalMessage.serialize] ∧
      ClientInfo.accepts someLocalMessage.serialize = true ∧
      ¬ host.Drains (fun _ _ _ => true) fun _ _ => [] := by
  obtain ⟨history, host, run, offered⟩ := EventMachine.exists_run_of_any
    machine (fun _ _ => True) (initial 8123 Daemon.someResolveServer [47, 116, 109, 112])
    [handShakeOf [97], handShakeOf [98], .submit (someKey [97]) [1, 2, 3],
      .submit (someKey [97]) someLocalMessage.serialize]
    (fun reached => decide (reached.2.pending (someKey [97]) =
      [[1, 2, 3], someLocalMessage.serialize])) (by decide +kernel)
  have waiting := of_decide_eq_true offered
  refine ⟨history, host, run, waiting, by decide +kernel, fun drains => ?_⟩
  have refused : ClientInfo.accepts [1, 2, 3] = false := by decide
  obtain ⟨after, log, handled, drained⟩ := drains
  have behind := drained.refusesLast handled (someKey [97]) [] [1, 2, 3]
    [someLocalMessage.serialize] waiting refused
  cases behind

end Cpmd.Host
