import Cpmd.HostForwarding
import Cpmd.RemoteHandOver

/-! The rounds of `HandleBusMessage` from the side of one other node: which of its
messages are written to it, which wait, and which are lost. -/

set_option autoImplicit false

namespace Cpmd.Host

open Library

/-- A message for the node that was not written to it when it was handled. -/
def Routed.waitsFor (nodeAddress : UInt32) (entry : Routed) : Option Message :=
  if (writtenTo nodeAddress entry.effects).isEmpty then entry.submittedTo nodeAddress else none

/-- What was dropped for a message for the node. -/
def Routed.dropedFor (nodeAddress : UInt32) (entry : Routed) : Option Message :=
  (entry.submittedTo nodeAddress).bind fun _ => entry.droped

def waitingFor (nodeAddress : UInt32) (log : List Routed) : List Message :=
  log.filterMap (Routed.waitsFor nodeAddress)

def dropedFor (nodeAddress : UInt32) (log : List Routed) : List Message :=
  log.filterMap (Routed.dropedFor nodeAddress)

/-- The test by which the loop comes to hand a message over for the node. -/
def isFor (host : Host) (nodeAddress : UInt32) (m : Message) : Bool :=
  !host.daemon.server.isLocal m.remoteAddress && m.remoteAddress.nodeAddr == nodeAddress

def turnsFor (host : Host) (nodeAddress : UInt32) (turns : List Turn) : List Turn :=
  turns.filter fun turn => host.isFor nodeAddress turn.given

/-- How many of the messages for a node wait for it. -/
def waiting (host : Host) (nodeAddress : UInt32) (turns : List Turn) : Nat :=
  waitingAmong ((host.daemon.server.nodeOrNew nodeAddress).connected host.daemon.network)
    host.daemon.server.resolveServerConn.isSome
    (host.daemon.server.nodeOrNew nodeAddress).notResolved
    ((host.turnsFor nodeAddress turns).map fun turn => turn.writes 0)

variable {nodeAddress : UInt32}

/-- For the next message to the node the daemon is as it was. -/
structure SameFor (nodeAddress : UInt32) (before after : Daemon.State) : Prop where
  node : after.server.nodeOrNew nodeAddress = before.server.nodeOrNew nodeAddress
  asks : after.server.resolveServerConn = before.server.resolveServerConn
  opened : ∀ conn, after.network.isOpen conn = before.network.isOpen conn

theorem SameFor.idle_iff {before after : Daemon.State} (same : SameFor nodeAddress before after) :
    after.server.Idle after.network nodeAddress ↔
      before.server.Idle before.network nodeAddress := by
  rw [Server.idle_iff, Server.idle_iff, same.node, Node.connected_of_opened same.opened]

theorem SameFor.cachedFor {before after : Daemon.State}
    (same : SameFor nodeAddress before after) :
    after.server.cachedFor nodeAddress = before.server.cachedFor nodeAddress := by
  rw [← Server.cached_nodeOrNew, ← Server.cached_nodeOrNew, same.node]

theorem isFor_congr {host next : Host}
    (self : next.daemon.server.selfAddress = host.daemon.server.selfAddress) (m : Message) :
    next.isFor nodeAddress m = host.isFor nodeAddress m := by
  simp only [isFor, Server.isLocal, self]

theorem turnsFor_congr {host next : Host}
    (self : next.daemon.server.selfAddress = host.daemon.server.selfAddress) (turns : List Turn) :
    next.turnsFor nodeAddress turns = host.turnsFor nodeAddress turns :=
  List.filter_congr fun turn _ => isFor_congr self turn.given

theorem turnsFor_cons_of_own {host : Host} {turn : Turn}
    (own : host.isFor nodeAddress turn.given = true) (turns : List Turn) :
    host.turnsFor nodeAddress (turn :: turns) = turn :: host.turnsFor nodeAddress turns :=
  List.filter_cons_of_pos (p := fun turn : Turn => host.isFor nodeAddress turn.given) own

theorem turnsFor_cons_of_others {host : Host} {turn : Turn}
    (others : host.isFor nodeAddress turn.given = false) (turns : List Turn) :
    host.turnsFor nodeAddress (turn :: turns) = host.turnsFor nodeAddress turns :=
  List.filter_cons_of_neg (p := fun turn : Turn => host.isFor nodeAddress turn.given)
    (by simp [others])

theorem submittedTo_stamp (host : Host) (client : UInt32) (m : Message)
    (written : List (UInt32 × Bool)) (bytes : List UInt8) (droped : Option Message)
    (effects : List Effect) :
    Routed.submittedTo nodeAddress
        ⟨some client, m, host.daemon.server.stamp client m, written, bytes, droped, effects⟩ =
      if host.isFor nodeAddress m then some (host.daemon.server.stamp client m) else none := by
  have own : (host.daemon.server.stamp client m).sourceAddress.nodeAddr =
      host.daemon.server.selfAddress := rfl
  simp only [Routed.submittedTo, isFor, Server.remoteAddress_stamp, own, Server.isLocal,
    Option.isSome_some, Bool.true_and, Bool.not_or]
  cases m.remoteAddress.nodeAddr == nodeAddress <;> simp [bne]

theorem HandlesClient.for_others {host next : Host} {writes : Nat → Bool} {behind : List UInt8}
    {client : LocalClient} {m : Message} {routed : Routed}
    (handles : HandlesClient host writes behind client m next routed)
    (others : host.isFor nodeAddress m = false) :
    SameFor nodeAddress host.daemon next.daemon ∧ routed.waitsFor nodeAddress = none ∧
      routed.dropedFor nodeAddress = none := by
  cases handles with
  | toLocal here stamps =>
      subst stamps
      have daemon := (host.deliver_frame (writes 0) behind
        (host.daemon.server.stamp client.addr.clientAddr m)).1
      refine ⟨by rw [daemon]; exact ⟨rfl, rfl, fun _ => rfl⟩, ?_, ?_⟩
      · rw [Routed.waitsFor, submittedTo_stamp, others]
        simp
      · rw [Routed.dropedFor, submittedTo_stamp, others]
        rfl
  | toRemote elsewhere stamps handled =>
      subst stamps
      have different : nodeAddress ≠ m.remoteAddress.nodeAddr := by
        intro own
        simp [isFor, elsewhere, own] at others
      have handles := host.daemon.server.handleToRemoteMessage_handles host.daemon.network writes
        (host.daemon.server.stamp client.addr.clientAddr m)
      rw [handled] at handles
      obtain ⟨asks, opened, untouched⟩ := handles.frame
      refine ⟨⟨untouched nodeAddress different, asks, opened⟩, ?_, ?_⟩
      · rw [Routed.waitsFor, submittedTo_stamp, others]
        simp
      · rw [Routed.dropedFor, submittedTo_stamp, others]
        rfl

/-- A round for a node is a call of `HandleToRemoteMessage`. -/
theorem HandlesClient.handsOver {host next : Host} {writes : Nat → Bool} {behind : List UInt8}
    {client : LocalClient} {m : Message} {routed : Routed}
    (handles : HandlesClient host writes behind client m next routed)
    (own : host.isFor nodeAddress m = true) :
    ∃ stamped server droped effects, stamped.remoteAddress.nodeAddr = nodeAddress ∧
      host.daemon.server.handleToRemoteMessage host.daemon.network writes stamped =
        (server, droped, effects) ∧
      next.daemon = ⟨server, host.daemon.network.carryOutAll effects⟩ ∧
      routed.waitsFor nodeAddress =
        (if (writtenTo nodeAddress effects).isEmpty then some stamped else none) ∧
      routed.dropedFor nodeAddress = droped := by
  have remote : host.daemon.server.isLocal m.remoteAddress = false ∧
      m.remoteAddress.nodeAddr = nodeAddress := by simpa [isFor] using own
  obtain ⟨elsewhere, about⟩ := remote
  cases handles with
  | toLocal here _ =>
      rw [elsewhere] at here
      cases here
  | toRemote _ stamps handled =>
      subst stamps
      refine ⟨host.daemon.server.stamp client.addr.clientAddr m, _, _, _, about, handled, rfl,
        ?_, ?_⟩
      · rw [Routed.waitsFor, submittedTo_stamp, own]
        simp
      · rw [Routed.dropedFor, submittedTo_stamp, own]
        rfl

/-- What a round for a node does to its cache, and for the next message to it. -/
theorem HandlesClient.for_own {host next : Host} {writes : Nat → Bool} {behind : List UInt8}
    {client : LocalClient} {m : Message} {routed : Routed}
    (handles : HandlesClient host writes behind client m next routed)
    (own : host.isFor nodeAddress m = true)
    (busy : ¬ host.daemon.server.Idle host.daemon.network nodeAddress) :
    ¬ next.daemon.server.Idle next.daemon.network nodeAddress ∧
    host.daemon.server.cachedFor nodeAddress ++ (routed.waitsFor nodeAddress).toList =
      (routed.dropedFor nodeAddress).toList ++ next.daemon.server.cachedFor nodeAddress ∧
    (routed.dropedFor nodeAddress = none ∨
      (next.daemon.server.cachedFor nodeAddress).length = kMaxCachedMessageNum) ∧
    ∀ key turns, host.waiting nodeAddress (⟨key, m, writes, behind⟩ :: turns) =
      (routed.waitsFor nodeAddress).toList.length + next.waiting nodeAddress turns := by
  have self := handles.frame.1
  obtain ⟨stamped, server, droped, effects, rfl, handled, moved, waits, gone⟩ :=
    handles.handsOver own
  have remote := host.daemon.server.handleToRemoteMessage_handles host.daemon.network writes
    stamped
  have passes := Server.passes_handleToRemoteMessage writes busy
  rw [handled] at remote passes
  obtain ⟨asks, opened, _⟩ := remote.frame
  obtain ⟨connected, notResolved, stays, atOnce⟩ := passes
  have outcome := remote.waits busy
  rw [waits, gone]
  refine ⟨?_, ?_, ?_, fun key turns => ?_⟩
  · rw [moved]
    exact (Server.idle_of_opened opened).not.mpr stays
  · rw [moved]
    rcases outcome with ⟨wrote, none, kept⟩ | ⟨unwritten, joined, _⟩
    · rw [wrote, none, kept]
      exact List.append_nil _
    · rw [unwritten]
      exact joined
  · rw [moved]
    rcases outcome with ⟨_, none, _⟩ | ⟨_, _, room⟩
    · exact .inl none
    · exact room
  · rw [waiting, waiting, turnsFor_congr self, turnsFor_cons_of_own own, List.map_cons, moved,
      asks, Node.connected_of_opened opened, connected, notResolved, waitingAmong, atOnce]
    cases (host.daemon.server.nodeOrNew stamped.remoteAddress.nodeAddr).connected
      host.daemon.network && !(host.daemon.server.nodeOrNew
        stamped.remoteAddress.nodeAddr).notResolved && writes 0 <;> rfl

theorem HandlesClient.for_idle {host next : Host} {writes : Nat → Bool} {behind : List UInt8}
    {client : LocalClient} {m : Message} {routed : Routed}
    (handles : HandlesClient host writes behind client m next routed)
    (own : host.isFor nodeAddress m = true)
    (idle : host.daemon.server.Idle host.daemon.network nodeAddress) :
    ¬ next.daemon.server.Idle next.daemon.network nodeAddress ∧
    next.daemon.server.cachedFor nodeAddress = host.daemon.server.cachedFor nodeAddress ∧
    (routed.waitsFor nodeAddress).isSome = true ∧ routed.dropedFor nodeAddress = none := by
  obtain ⟨stamped, server, droped, effects, rfl, handled, moved, waits, gone⟩ :=
    handles.handsOver own
  have remote := host.daemon.server.handleToRemoteMessage_handles host.daemon.network writes
    stamped
  rw [handled] at remote
  obtain ⟨_, opened, _⟩ := remote.frame
  obtain ⟨none, unwritten, kept, stays⟩ := Server.handleToRemoteMessage_idles idle handled
  rw [moved, waits, gone, unwritten]
  exact ⟨(Server.idle_of_opened opened).not.mpr stays, kept, rfl, none⟩

theorem SameFor.waiting {host next : Host} (same : SameFor nodeAddress host.daemon next.daemon)
    (self : next.daemon.server.selfAddress = host.daemon.server.selfAddress) (turns : List Turn) :
    next.waiting nodeAddress turns = host.waiting nodeAddress turns := by
  rw [Host.waiting, Host.waiting, turnsFor_congr self, same.node, same.asks,
    Node.connected_of_opened same.opened]

theorem waitingFor_cons (routed : Routed) (log : List Routed) :
    waitingFor nodeAddress (routed :: log) =
      (routed.waitsFor nodeAddress).toList ++ waitingFor nodeAddress log := by
  rw [waitingFor, List.filterMap_cons]
  cases routed.waitsFor nodeAddress <;> rfl

theorem dropedFor_cons (routed : Routed) (log : List Routed) :
    dropedFor nodeAddress (routed :: log) =
      (routed.dropedFor nodeAddress).toList ++ dropedFor nodeAddress log := by
  rw [dropedFor, List.filterMap_cons]
  cases routed.dropedFor nodeAddress <;> rfl

/-- What waited or comes to wait is dropped or waits at the end, in order; and what is
dropped leaves a full cache. -/
theorem Rounds.kept {host after : Host} {turns : List Turn} {log : List Routed}
    (rounds : Rounds host turns after log)
    (awake : ∀ turn ∈ turns, host.isFor nodeAddress turn.given = true →
      ¬ host.daemon.server.Idle host.daemon.network nodeAddress) :
    host.daemon.server.cachedFor nodeAddress ++ waitingFor nodeAddress log =
        dropedFor nodeAddress log ++ after.daemon.server.cachedFor nodeAddress ∧
      (waitingFor nodeAddress log).length = host.waiting nodeAddress turns ∧
      (dropedFor nodeAddress log = [] ∨
        (after.daemon.server.cachedFor nodeAddress).length = kMaxCachedMessageNum) := by
  induction rounds with
  | done _ => exact ⟨List.append_nil _, rfl, .inl rfl⟩
  | dropped _ _ ih => exact ih awake
  | @handled host next after key client rest m writes behind routed turns log found handled _ ih =>
      have self : next.daemon.server.selfAddress = host.daemon.server.selfAddress :=
        handled.frame.1
      rw [waitingFor_cons, dropedFor_cons]
      cases own : host.isFor nodeAddress m with
      | false =>
          obtain ⟨same, unwaiting, undroped⟩ : SameFor nodeAddress host.daemon next.daemon ∧
              _ ∧ _ := handled.for_others own
          have later : ∀ turn ∈ turns, next.isFor nodeAddress turn.given = true →
              ¬ next.daemon.server.Idle next.daemon.network nodeAddress := by
            intro turn member there
            rw [isFor_congr self] at there
            exact same.idle_iff.not.mpr (awake turn (List.mem_cons_of_mem _ member) there)
          obtain ⟨order, count, full⟩ := ih later
          rw [unwaiting, undroped]
          have unchanged : host.waiting nodeAddress (⟨key, m, writes, behind⟩ :: turns) =
              host.waiting nodeAddress turns := by
            rw [waiting, turnsFor_cons_of_others own, waiting]
          refine ⟨?_, ?_, full⟩
          · rw [← same.cachedFor]
            exact order
          · rw [unchanged, ← same.waiting self]
            exact count
      | true =>
          obtain ⟨stays, joined, room, counts⟩ :=
            handled.for_own own (awake _ List.mem_cons_self own)
          obtain ⟨order, count, full⟩ := ih fun _ _ _ => stays
          refine ⟨?_, ?_, ?_⟩
          · have one : host.daemon.server.cachedFor nodeAddress ++
                (routed.waitsFor nodeAddress).toList = _ := joined
            rw [← List.append_assoc, one, List.append_assoc, order, List.append_assoc]
          · rw [List.length_append, count]
            exact (counts key turns).symm
          · rcases full with nothing | full
            · rcases room with none | filled
              · exact .inl (by rw [none, nothing]; rfl)
              · have longer := congrArg List.length order
                rw [nothing, List.nil_append, List.length_append, filled] at longer
                have limit := Server.length_cachedFor_le after.daemon.server nodeAddress
                exact .inr (by omega)
            · exact .inr full

/-- Where the node is idle, the first message for it is in no account. -/
theorem Rounds.not_kept {host after : Host} {turns : List Turn} {log : List Routed}
    (rounds : Rounds host turns after log)
    (idle : host.daemon.server.Idle host.daemon.network nodeAddress)
    (comes : ∃ turn ∈ turns, host.isFor nodeAddress turn.given = true) :
    (host.daemon.server.cachedFor nodeAddress).length + (waitingFor nodeAddress log).length =
      (dropedFor nodeAddress log).length +
        (after.daemon.server.cachedFor nodeAddress).length + 1 := by
  induction rounds with
  | done _ => simp at comes
  | dropped _ _ ih => exact ih idle comes
  | @handled host next after key client rest m writes behind routed turns log found handled
      rounds ih =>
      have self : next.daemon.server.selfAddress = host.daemon.server.selfAddress :=
        handled.frame.1
      rw [waitingFor_cons, dropedFor_cons]
      cases own : host.isFor nodeAddress m with
      | false =>
          obtain ⟨same, unwaiting, undroped⟩ : SameFor nodeAddress host.daemon next.daemon ∧
              _ ∧ _ := handled.for_others own
          obtain ⟨turn, member, there⟩ := comes
          have later : turn ∈ turns := by
            rcases List.mem_cons.mp member with rfl | later
            · rw [own] at there
              cases there
            · exact later
          have lost := ih (same.idle_iff.mpr idle)
            ⟨turn, later, (isFor_congr self turn.given).trans there⟩
          rw [unwaiting, undroped, ← same.cachedFor]
          exact lost
      | true =>
          obtain ⟨stays, kept, waits, undroped⟩ := handled.for_idle own idle
          obtain ⟨order, _, _⟩ := rounds.kept fun _ _ _ => stays
          obtain ⟨m, waits⟩ := Option.isSome_iff_exists.mp waits
          have lengths := congrArg List.length order
          have unchanged : next.daemon.server.cachedFor nodeAddress =
              host.daemon.server.cachedFor nodeAddress := kept
          rw [unchanged] at lengths
          rw [waits, undroped]
          simp only [List.length_append, Option.toList_some, Option.toList_none, List.nil_append,
            List.length_cons, List.length_nil] at lengths ⊢
          omega

end Cpmd.Host
