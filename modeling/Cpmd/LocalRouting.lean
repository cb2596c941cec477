import Cpmd.HostForwarding

/-! Messages between local clients, and from other nodes to them, along whole runs:
who they come from, whom they reach, and in which order. -/

set_option autoImplicit false

namespace Cpmd.Host

open Library

/-- What a step adds to the bus a client writes to: the records found there when it
registers, and those it submits. -/
def offered (key : UInt32) (taken : EventMachine.Taken Host Event Routed) : List (List UInt8) :=
  match taken.event with
  | .submit other record => if other = key then [record] else []
  | .handShake _ _ _ =>
      if taken.before.identities key = none then taken.after.pending key else []
  | .daemon _ | .remoteMessage _ _ _ | .busMessage _ _ | .receive _ => []

def offeredBy (key : UInt32) (history : List (EventMachine.Taken Host Event Routed)) :
    List (List UInt8) :=
  history.flatMap (offered key)

/-- The messages of one client that were written to another. -/
def fromTo (sender receiver : UInt32) (log : List Routed) : List Message :=
  readFrom sender (log.filter fun entry => entry.writes.any (· == (receiver, true)))

/-- A message for a client that is registered here, from a client or from another node,
is written to its bus, unless this has no room. -/
def Routed.Offered (host : Host) (entry : Routed) : Prop :=
  (entry.handled.remoteAddress.nodeAddr = host.daemon.server.selfAddress ∨
      entry.source ≠ none ∧ entry.handled.remoteAddress.nodeAddr = 0) →
    (host.identities entry.handled.remoteAddress.clientAddr).isSome = true →
    ∃ written, entry.writes = [(entry.handled.remoteAddress.clientAddr, written)]

/-- What is to hold of the routing in a run: each message is routed soundly, and offered
to the client that it is for, or given to the daemon where it is for another node; what
was read from a bus is what was put on it, in order, and so is the part of it that
was written to any one client; no other record is written for a client; only
messages from the buses wait for another node; and `HandleBusMessage` returns. -/
structure Routing (history : List (EventMachine.Taken Host Event Routed)) (host : Host) : Prop where
  sound : ∀ taken ∈ history, ∀ entry ∈ taken.outputs, entry.Sound taken.before
  offered : ∀ taken ∈ history, ∀ entry ∈ taken.outputs, entry.Offered taken.before
  forwards : ∀ taken ∈ history, (∀ own, taken.event ≠ .daemon own) →
    Forwards Daemon.Event.FromClient taken.before.daemon taken.after.daemon taken.outputs
      (effectsOf taken.outputs)
  read : ∀ key, readFrom key (EventMachine.outputs history) ++
      (host.pending key).filterMap ClientInfo.checkRecord =
    (offeredBy key history).filterMap ClientInfo.checkRecord
  ordered : ∀ sender receiver, (fromTo sender receiver (EventMachine.outputs history)).Sublist
    ((offeredBy sender history).filterMap ClientInfo.checkRecord)
  written : ∀ taken ∈ history, ∀ key, (taken.before.identities key).isSome = true →
    taken.event ≠ .receive key →
    taken.after.posted key = taken.before.posted key ++ writtenFor key taken.outputs
  cached : ∀ node, ∀ message ∈ host.daemon.server.cachedFor node,
    ∃ entry ∈ EventMachine.outputs history, entry.source ≠ none ∧ message = entry.handled
  returns : ∀ writes behind, ∃ after log, step host (.busMessage writes behind) = some (after, log)

theorem find_of_identities {host : Host} {key : UInt32}
    (registered : (host.identities key).isSome = true) :
    ∃ client, host.clients.find key = some client := by
  simpa [identities, Option.isSome_iff_exists] using registered

theorem pending_of_absent {host : Host} {key : UInt32} (absent : host.identities key = none) :
    host.pending key = [] := by
  have missing : host.clients.find key = none := by simpa [identities] using absent
  simp [pending, missing]

/-- A step reads from a client's bus the first of the records that are there, or
come with it. -/
theorem step_reads {before after : Host} {event : Event} {outputs : List Routed}
    (keyed : Keyed before) (stepped : step before event = some (after, outputs)) (key : UInt32) :
    ∃ taken, before.pending key ++ offered key ⟨before, event, outputs, after⟩ =
        taken ++ after.pending key ∧
      readFrom key outputs = taken.filterMap ClientInfo.checkRecord := by
  have untouched (same : after.pending key = before.pending key)
      (nothing : offered key ⟨before, event, outputs, after⟩ = []) (silent : outputs = []) :
      ∃ taken, before.pending key ++ offered key ⟨before, event, outputs, after⟩ =
          taken ++ after.pending key ∧
        readFrom key outputs = taken.filterMap ClientInfo.checkRecord :=
    ⟨[], by rw [nothing, same, List.append_nil, List.nil_append], by rw [silent]; rfl⟩
  cases step_transition stepped with
  | refused _ =>
      refine untouched rfl ?_ rfl
      simp only [offered]
      split
      · exact pending_of_absent ‹_›
      · rfl
  | @registered _ data _ input output _ =>
      cases known : before.identities key with
      | none => exact ⟨[], by simp [offered, known, pending_of_absent known], rfl⟩
      | some parts =>
          obtain ⟨client, found⟩ := find_of_identities (by rw [known]; rfl)
          refine untouched ?_ (by simp [offered, known]) rfl
          rw [pending_of_find found, pending_of_find (find_register_of_find found _ _)]
  | daemon _ _ => exact untouched rfl rfl rfl
  | fromPeer =>
      obtain ⟨taken, split, messages⟩ := (handleRemoteMessage_accounts before _ _ _).read key
      exact ⟨taken, by rw [← split]; exact List.append_nil _, messages⟩
  | drained handled =>
      obtain ⟨taken, split, messages⟩ := (accounts_of_drained keyed handled).read key
      exact ⟨taken, by rw [← split]; exact List.append_nil _, messages⟩
  | @submitted other record client found =>
      refine ⟨[], ?_, rfl⟩
      rw [leave, pending_putClient]
      by_cases own : key = other
      · subst own
        simp [offered, pending_of_find found]
      · simp [offered, own, Ne.symm own]
  | @received other client found =>
      refine untouched ?_ rfl rfl
      rw [pending_putClient]
      split
      · rename_i own
        rw [own, pending_of_find found]
      · rfl

theorem step_sound {before after : Host} {event : Event} {outputs : List Routed}
    (keyed : Keyed before) (stepped : step before event = some (after, outputs)) :
    ∀ entry ∈ outputs, entry.Sound before := by
  cases step_transition stepped with
  | fromPeer => exact (handleRemoteMessage_accounts before _ _ _).sound
  | drained handled => exact (accounts_of_drained keyed handled).sound
  | refused _ | registered _ | daemon _ _ | submitted _ | received _ => simp

theorem step_writes {before after : Host} {event : Event} {outputs : List Routed}
    (keyed : Keyed before) (stepped : step before event = some (after, outputs)) {key : UInt32}
    (registered : (before.identities key).isSome = true) (kept : event ≠ .receive key) :
    after.posted key = before.posted key ++ writtenFor key outputs := by
  cases step_transition stepped with
  | refused _ | daemon _ _ => exact (List.append_nil _).symm
  | registered _ =>
      obtain ⟨client, found⟩ := find_of_identities registered
      rw [posted_of_find found, posted_of_find (find_register_of_find found _ _)]
      exact (List.append_nil _).symm
  | fromPeer => exact (handleRemoteMessage_accounts before _ _ _).written key
  | drained handled => exact (accounts_of_drained keyed handled).written key
  | @submitted other record client found =>
      rw [leave, posted_putClient]
      split
      · rename_i own
        rw [own, posted_of_find found]
        exact (List.append_nil _).symm
      · exact (List.append_nil _).symm
  | @received other client found =>
      have different : key ≠ other := fun same => kept (by rw [same])
      rw [posted_putClient, if_neg different]
      exact (List.append_nil _).symm

theorem step_cached {before after : Host} {event : Event} {outputs : List Routed}
    (keyed : Keyed before) (stepped : step before event = some (after, outputs)) {node : UInt32}
    {message : Message} (member : message ∈ after.daemon.server.cachedFor node) :
    message ∈ before.daemon.server.cachedFor node ∨
      ∃ entry ∈ outputs, entry.source ≠ none ∧ message = entry.handled := by
  cases step_transition stepped with
  | fromPeer => exact (handleRemoteMessage_accounts before _ _ _).cached node message member
  | drained handled => exact (accounts_of_drained keyed handled).cached node message member
  | @daemon event daemon effects others handled =>
      have unbrought : Daemon.submission node before.daemon event = none := by
        cases event with
        | busMessage client m writes => exact absurd rfl (others client m writes)
        | _ => rfl
      have accounted := (Daemon.step_transition handled).accounts unbrought
      exact .inl (accounted ▸ List.mem_append_right _ member)
  | refused _ | registered _ | submitted _ | received _ => exact .inl member

theorem Routed.Offered.transfer {host after : Host} {entry : Routed}
    (offered : entry.Offered after)
    (self : after.daemon.server.selfAddress = host.daemon.server.selfAddress)
    (same : ∀ key, after.identities key = host.identities key) : entry.Offered host := by
  intro here registered
  exact offered (by rwa [self]) (by rwa [same])

theorem deliver_of_identities {host : Host} {m : Message}
    (registered : (host.identities m.remoteAddress.clientAddr).isSome = true) (written : Bool)
    (behind : List UInt8) :
    (host.deliver written behind m).2 = [(m.remoteAddress.clientAddr, written)] := by
  obtain ⟨receiver, known⟩ := find_of_identities registered
  rcases host.deliver_cases written behind m with ⟨missing, _⟩ | ⟨_, _, moved⟩
  · rw [missing] at known
    cases known
  · rw [moved]

theorem HandlesClient.offered {host next : Host} {writes : Nat → Bool} {behind : List UInt8}
    {client : LocalClient} {m : Message} {routed : Routed}
    (handles : HandlesClient host writes behind client m next routed) : routed.Offered host := by
  cases handles with
  | toLocal _ _ =>
      intro _ registered
      exact ⟨writes 0, deliver_of_identities registered (writes 0) behind⟩
  | toRemote elsewhere stamps _ =>
      intro here _
      have own := here.imp_right And.right
      subst stamps
      simp [Server.isLocal] at elsewhere own
      exact absurd own (by simp [elsewhere])

theorem Rounds.offered {host after : Host} {turns : List Turn} {log : List Routed}
    (rounds : Rounds host turns after log) : ∀ entry ∈ log, entry.Offered host := by
  induction rounds with
  | done _ => simp
  | dropped found _ ih =>
      intro entry member
      exact (ih entry member).transfer rfl (identities_leave found _)
  | handled found handled _ ih =>
      obtain ⟨self, identities, _⟩ := handled.frame
      have same := identities_leave found
      intro entry member
      rcases List.mem_cons.mp member with rfl | later
      · exact handled.offered.transfer rfl (same _)
      · exact (ih entry later).transfer self fun key => (identities key).trans (same _ key)

theorem offered_handleRemoteMessage (host : Host) (m : Message) (written : Bool)
    (behind : List UInt8) :
    Routed.Offered host
      ⟨none, m, m, (host.handleRemoteMessage written behind m).2.1, m.image behind, none, []⟩ := by
  intro here registered
  have own : m.remoteAddress.nodeAddr = host.daemon.server.selfAddress := by simpa using here
  have given : host.handleRemoteMessage written behind m =
      ((host.deliver written behind m).1, (host.deliver written behind m).2, true) :=
    if_neg (not_not_intro own)
  refine ⟨written, ?_⟩
  rw [given]
  exact deliver_of_identities registered written behind

theorem step_offered {before after : Host} {event : Event} {outputs : List Routed}
    (stepped : step before event = some (after, outputs)) :
    ∀ entry ∈ outputs, entry.Offered before := by
  cases step_transition stepped with
  | refused _ | registered _ | daemon _ _ | submitted _ | received _ => simp
  | fromPeer =>
      intro entry member
      rw [List.mem_singleton.mp member]
      exact offered_handleRemoteMessage before _ _ _
  | drained handled => exact (handleBusMessage_rounds handled).offered

theorem fromTo_sublist (sender receiver : UInt32) (log : List Routed) :
    (fromTo sender receiver log).Sublist (readFrom sender log) :=
  (List.filter_sublist.filter _).map _

section Runs

variable {messageServerPort : Int32} {resolveServerAddress : NetAddress}
  {busLocation : List UInt8} {history : List (EventMachine.Taken Host Event Routed)} {host : Host}

theorem keyed_run (run : machine.Run (fun _ _ => True)
    (initial messageServerPort resolveServerAddress busLocation) history host) : Keyed host :=
  run.state_invariant Keyed (keyed_initial _ _ _)
    (fun _ _ _ _ keyed _ stepped => keyed.preserved stepped)

theorem read_run (run : machine.Run (fun _ _ => True)
    (initial messageServerPort resolveServerAddress busLocation) history host) (key : UInt32) :
    readFrom key (EventMachine.outputs history) ++
        (host.pending key).filterMap ClientInfo.checkRecord =
      (offeredBy key history).filterMap ClientInfo.checkRecord := by
  induction run with
  | nil => simp [readFrom, offeredBy, pending, initial]
  | @snoc history before event outputs after earlier _ stepped ih =>
      obtain ⟨taken, split, messages⟩ := step_reads (keyed_run earlier) stepped key
      have joined : offeredBy key (history ++ [⟨before, event, outputs, after⟩]) =
          offeredBy key history ++ offered key ⟨before, event, outputs, after⟩ := by
        simp [offeredBy]
      rw [EventMachine.outputs_snoc, readFrom_append, messages, joined, List.filterMap_append,
        ← ih, List.append_assoc, List.append_assoc, ← List.filterMap_append,
        ← List.filterMap_append, split]

theorem cached_run (run : machine.Run (fun _ _ => True)
    (initial messageServerPort resolveServerAddress busLocation) history host) {node : UInt32}
    {message : Message} (member : message ∈ host.daemon.server.cachedFor node) :
    ∃ entry ∈ EventMachine.outputs history, entry.source ≠ none ∧ message = entry.handled := by
  induction run with
  | nil => simp [initial, Daemon.State.initial, Server.create, Server.cachedFor] at member
  | snoc earlier _ stepped ih =>
      rw [EventMachine.outputs_snoc]
      rcases step_cached (keyed_run earlier) stepped member with old | ⟨entry, new, origin⟩
      · obtain ⟨entry, known, origin⟩ := ih old
        exact ⟨entry, List.mem_append_left _ known, origin⟩
      · exact ⟨entry, List.mem_append_right _ new, origin⟩

/-- Routing is sound, authentic and in order in every run, and no lookup fails. -/
theorem routing_run (run : machine.Run (fun _ _ => True)
    (initial messageServerPort resolveServerAddress busLocation) history host) :
    Routing history host where
  sound := by
    intro taken member
    obtain ⟨_, earlier, _, stepped⟩ := run.of_mem member
    exact step_sound (keyed_run earlier) stepped
  offered := by
    intro taken member
    obtain ⟨_, _, _, stepped⟩ := run.of_mem member
    exact step_offered stepped
  forwards := by
    intro taken member others
    obtain ⟨_, _, _, stepped⟩ := run.of_mem member
    exact step_forwards others stepped
  read := read_run run
  ordered := by
    intro sender receiver
    rw [← read_run run sender]
    exact (fromTo_sublist _ _ _).trans (List.sublist_append_left _ _)
  written := by
    intro taken member key registered kept
    obtain ⟨_, earlier, _, stepped⟩ := run.of_mem member
    exact step_writes (keyed_run earlier) stepped registered kept
  cached := fun _ _ member => cached_run run member
  returns := by
    intro writes behind
    obtain ⟨after, log, handled, _⟩ := handleBusMessage_accounts writes behind (keyed_run run)
    exact ⟨after, log, handled⟩

end Runs

/-- A message that client `a` sends to client `b`, in the name of a third. -/
def someLocalMessage : Message :=
  ⟨⟨9, 9⟩, ⟨0, someKey [98]⟩, Message.kMagic, 3, [72, 105, 33]⟩

/-- Clients `a` and `b` register, and the message of `a` reaches `b`. -/
theorem routing_run_local :
    ∃ history host, host.posted (someKey [98]) =
        [(someLocalMessage.setSourceAddress ⟨0, someKey [97]⟩).serialize] ∧
      Routing history host := by
  obtain ⟨history, host, run, written⟩ := EventMachine.exists_run_of_any
    machine (fun _ _ => True) (initial 8123 Daemon.someResolveServer [47, 116, 109, 112])
    [handShakeOf [97], handShakeOf [98], .submit (someKey [97]) someLocalMessage.serialize,
      .busMessage (fun _ _ _ => true) fun _ _ => []]
    (fun reached => decide (reached.2.posted (someKey [98]) =
      [(someLocalMessage.setSourceAddress ⟨0, someKey [97]⟩).serialize])) (by decide +kernel)
  exact ⟨history, host, of_decide_eq_true written, routing_run run⟩

end Cpmd.Host
