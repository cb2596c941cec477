import Cpmd.Host
import Cpmd.DaemonProperties

/-! What the handlers do to the clients: who they are, what is pending on their
buses, what was posted to them, and a log of the messages that accounts for it. -/

set_option autoImplicit false

namespace Cpmd.Host

open Library

/-- What never changes of a registered client. -/
def identity (client : LocalClient) : List UInt8 × Address × List UInt8 × List UInt8 :=
  (client.name, client.addr, client.inputPath, client.outputPath)

def identities (host : Host) (key : UInt32) :
    Option (List UInt8 × Address × List UInt8 × List UInt8) :=
  (host.clients.find key).map identity

/-- The records that wait on the bus a client reads from. -/
def posted (host : Host) (key : UInt32) : List (List UInt8) :=
  match host.clients.find key with
  | some client => client.output
  | none => []

theorem pending_of_find {host : Host} {key : UInt32} {client : LocalClient}
    (found : host.clients.find key = some client) : host.pending key = client.input := by
  simp [pending, found]

theorem posted_of_find {host : Host} {key : UInt32} {client : LocalClient}
    (found : host.clients.find key = some client) : host.posted key = client.output := by
  simp [posted, found]

theorem identities_of_find {host : Host} {key : UInt32} {client : LocalClient}
    (found : host.clients.find key = some client) :
    host.identities key = some (identity client) := by
  simp [identities, found]

@[simp] theorem find_putClient (host : Host) (key other : UInt32) (client : LocalClient) :
    (host.putClient key client).clients.find other =
      if other = key then some client else host.clients.find other :=
  FiniteMap.find_assign _ _ _ _

theorem identities_putClient {host : Host} {key : UInt32} {client moved : LocalClient}
    (found : host.clients.find key = some client) (same : identity moved = identity client)
    (other : UInt32) : (host.putClient key moved).identities other = host.identities other := by
  rw [identities, find_putClient]
  split
  · rename_i own
    rw [own, identities_of_find found, Option.map_some, same]
  · rfl

theorem pending_putClient (host : Host) (key other : UInt32) (client : LocalClient) :
    (host.putClient key client).pending other =
      if other = key then client.input else host.pending other := by
  rw [pending, find_putClient]
  by_cases own : other = key <;> simp [own, pending]

theorem posted_putClient (host : Host) (key other : UInt32) (client : LocalClient) :
    (host.putClient key client).posted other =
      if other = key then client.output else host.posted other := by
  rw [posted, find_putClient]
  by_cases own : other = key <;> simp [own, posted]

/-- Each client's key is its own client address. -/
def Keyed (host : Host) : Prop :=
  ∀ key client, host.clients.find key = some client → client.addr.clientAddr = key

theorem Keyed.of_identities {host after : Host} (keyed : Keyed host)
    (same : ∀ key, after.identities key = host.identities key) : Keyed after := by
  intro key client found
  have known := (same key).symm.trans (identities_of_find found)
  obtain ⟨old, held, identical⟩ := Option.map_eq_some_iff.mp known
  have addr : old.addr = client.addr := congrArg (fun parts => parts.2.1) identical
  rw [← addr]
  exact keyed key old held

/-- The messages that were read from a client's bus. -/
def readFrom (key : UInt32) (log : List Routed) : List Message :=
  (log.filter (·.source == some key)).map Routed.given

/-- The records that were written for a client. -/
def writtenFor (key : UInt32) (log : List Routed) : List (List UInt8) :=
  (log.filter ((key, true) ∈ ·.writes)).map Routed.bytes

@[simp] theorem readFrom_append (key : UInt32) (first second : List Routed) :
    readFrom key (first ++ second) = readFrom key first ++ readFrom key second := by
  simp [readFrom]

@[simp] theorem writtenFor_append (key : UInt32) (first second : List Routed) :
    writtenFor key (first ++ second) = writtenFor key first ++ writtenFor key second := by
  simp [writtenFor]

/-- A message is stamped with the daemon's address and the key of the client it was
read from, and so forwarded; or it is written to at most one client, registered at
its remote client address on this node, with what stands behind it in memory where its
length says more than its record holds. -/
structure Routed.Sound (host : Host) (entry : Routed) : Prop where
  stamped : ∀ key, entry.source = some key →
    entry.handled = entry.given.setSourceAddress ⟨host.daemon.server.selfAddress, key⟩
  addressed : ∀ write ∈ entry.writes, write.1 = entry.handled.remoteAddress.clientAddr ∧
    (host.identities write.1).isSome = true ∧
    (entry.handled.remoteAddress.nodeAddr = host.daemon.server.selfAddress ∨
      entry.handled.remoteAddress.nodeAddr = 0)
  once : entry.writes.length ≤ 1 ∧ (entry.writes = [] ∨ entry.effects = [])
  written : entry.writes = [] ∨ ∃ behind, entry.bytes = entry.handled.image behind
  forwarded : ∀ node conn message, Effect.wrote node conn message ∈ entry.effects →
    message = entry.handled

/-- The log accounts for what happened between two states. -/
structure Accounts (before after : Host) (log : List Routed) : Prop where
  location : after.busLocation = before.busLocation
  self : after.daemon.server.selfAddress = before.daemon.server.selfAddress
  identities : ∀ key, after.identities key = before.identities key
  sound : ∀ entry ∈ log, entry.Sound before
  read : ∀ key, ∃ taken, before.pending key = taken ++ after.pending key ∧
    readFrom key log = taken.filterMap ClientInfo.checkRecord
  written : ∀ key, after.posted key = before.posted key ++ writtenFor key log
  cached : ∀ node, ∀ message ∈ after.daemon.server.cachedFor node,
    message ∈ before.daemon.server.cachedFor node ∨
      ∃ entry ∈ log, entry.source ≠ none ∧ message = entry.handled

theorem Accounts.refl (host : Host) : Accounts host host [] where
  location := rfl
  self := rfl
  identities := fun _ => rfl
  sound := by simp
  read := fun key => ⟨[], rfl, rfl⟩
  written := fun key => (List.append_nil _).symm
  cached := fun _ _ member => .inl member

theorem Routed.Sound.transfer {host after : Host} {entry : Routed} (sound : entry.Sound after)
    (self : after.daemon.server.selfAddress = host.daemon.server.selfAddress)
    (same : ∀ key, after.identities key = host.identities key) : entry.Sound host := by
  obtain ⟨stamped, addressed, once, written, forwarded⟩ := sound
  rw [self] at stamped
  refine ⟨stamped, fun write member => ?_, once, written, forwarded⟩
  have target := addressed write member
  rwa [same, self] at target

theorem Accounts.trans {first second third : Host} {earlier later : List Routed}
    (before : Accounts first second earlier) (after : Accounts second third later) :
    Accounts first third (earlier ++ later) where
  location := after.location.trans before.location
  self := after.self.trans before.self
  identities := fun key => (after.identities key).trans (before.identities key)
  sound := by
    intro entry member
    rcases List.mem_append.mp member with old | new
    · exact before.sound entry old
    · exact (after.sound entry new).transfer before.self before.identities
  read := by
    intro key
    obtain ⟨taken, split, messages⟩ := before.read key
    obtain ⟨next, rest, further⟩ := after.read key
    refine ⟨taken ++ next, by rw [split, rest, List.append_assoc], ?_⟩
    rw [readFrom_append, messages, further, List.filterMap_append]
  written := by
    intro key
    rw [after.written, before.written, writtenFor_append, List.append_assoc]
  cached := by
    intro node message member
    rcases after.cached node message member with old | ⟨entry, new, origin⟩
    · rcases before.cached node message old with older | ⟨entry, known, origin⟩
      · exact .inl older
      · exact .inr ⟨entry, List.mem_append_left _ known, origin⟩
    · exact .inr ⟨entry, List.mem_append_right _ new, origin⟩

theorem deliver_cases (host : Host) (written : Bool) (behind : List UInt8) (m : Message) :
    (host.clients.find m.remoteAddress.clientAddr = none ∧
      host.deliver written behind m = (host, [])) ∨
    (∃ client, host.clients.find m.remoteAddress.clientAddr = some client ∧
      host.deliver written behind m = (host.putClient m.remoteAddress.clientAddr
        { client with output := client.output ++ if written then [m.image behind] else [] },
        [(m.remoteAddress.clientAddr, written)])) := by
  unfold deliver
  cases found : host.clients.find m.remoteAddress.clientAddr with
  | none => exact .inl ⟨rfl, rfl⟩
  | some client =>
      refine .inr ⟨client, rfl, ?_⟩
      cases written with
      | true => rfl
      | false => simp [ClientInfo.writeMessage]

theorem deliver_frame (host : Host) (written : Bool) (behind : List UInt8) (m : Message) :
    (host.deliver written behind m).1.daemon = host.daemon ∧
      (host.deliver written behind m).1.busLocation = host.busLocation ∧
      (∀ key, (host.deliver written behind m).1.identities key = host.identities key) ∧
      ∀ key, (host.deliver written behind m).1.pending key = host.pending key := by
  rcases host.deliver_cases written behind m with ⟨_, same⟩ | ⟨client, found, moved⟩
  · rw [same]
    exact ⟨rfl, rfl, fun _ => rfl, fun _ => rfl⟩
  · rw [moved]
    refine ⟨rfl, rfl, identities_putClient found rfl, fun key => ?_⟩
    rw [pending_putClient]
    split
    · rename_i own
      rw [own, pending_of_find found]
    · rfl

theorem deliver_writes (host : Host) (written : Bool) (behind : List UInt8) (m : Message) :
    (host.deliver written behind m).2.length ≤ 1 ∧
      ∀ write ∈ (host.deliver written behind m).2, write.1 = m.remoteAddress.clientAddr ∧
        (host.identities write.1).isSome = true := by
  rcases host.deliver_cases written behind m with ⟨_, same⟩ | ⟨client, found, moved⟩
  · rw [same]
    simp
  · rw [moved]
    refine ⟨Nat.le_refl 1, fun write member => ?_⟩
    rw [List.mem_singleton.mp member]
    exact ⟨rfl, by rw [identities_of_find found]; rfl⟩

theorem posted_deliver (host : Host) (written : Bool) (behind : List UInt8) (m : Message)
    (key : UInt32) :
    (host.deliver written behind m).1.posted key =
      host.posted key ++
        if (key, true) ∈ (host.deliver written behind m).2 then [m.image behind] else [] := by
  rcases host.deliver_cases written behind m with ⟨_, same⟩ | ⟨client, found, moved⟩
  · rw [same]
    simp
  · rw [moved, posted_putClient]
    by_cases own : key = m.remoteAddress.clientAddr
    · subst own
      rw [if_pos rfl, posted_of_find found]
      cases written <;> simp
    · simp [own]

/-- The unchecked lookup finds the client whose message it is, and what is done with
the message is accounted for. -/
theorem handleClientMessage_spec {host : Host} {key : UInt32} {client known : LocalClient}
    (writes : Nat → Bool) (behind : List UInt8) (m : Message)
    (keyed : client.addr.clientAddr = key) (found : host.clients.find key = some known) :
    ∃ next routed, host.handleClientMessage writes behind client m = some (next, routed) ∧
      routed.source = some key ∧ routed.given = m ∧ routed.Sound host ∧
      next.busLocation = host.busLocation ∧
      next.daemon.server.selfAddress = host.daemon.server.selfAddress ∧
      (∀ other, next.identities other = host.identities other) ∧
      (∀ other, next.pending other = host.pending other) ∧
      (∀ other, next.posted other = host.posted other ++ writtenFor other [routed]) ∧
      ∀ node, ∀ message ∈ next.daemon.server.cachedFor node,
        message ∈ host.daemon.server.cachedFor node ∨ message = routed.handled := by
  subst keyed
  cases here : host.daemon.server.isLocal m.remoteAddress with
  | true =>
      have addressed : m.remoteAddress.nodeAddr = host.daemon.server.selfAddress ∨
          m.remoteAddress.nodeAddr = 0 := by
        simpa [Server.isLocal] using here
      have sender : (host.daemon.server.stamp client.addr.clientAddr m).sourceAddress.clientAddr =
          client.addr.clientAddr := rfl
      obtain ⟨sameDaemon, samePlace, sameClients, samePending⟩ :=
        host.deliver_frame (writes 0) behind (host.daemon.server.stamp client.addr.clientAddr m)
      obtain ⟨once, targets⟩ := host.deliver_writes (writes 0) behind
        (host.daemon.server.stamp client.addr.clientAddr m)
      have routed : host.handleClientMessage writes behind client m = some
          ((host.deliver (writes 0) behind (host.daemon.server.stamp client.addr.clientAddr m)).1,
            ⟨some client.addr.clientAddr, m, host.daemon.server.stamp client.addr.clientAddr m,
              (host.deliver (writes 0) behind
                (host.daemon.server.stamp client.addr.clientAddr m)).2,
              (host.daemon.server.stamp client.addr.clientAddr m).image behind, none, []⟩) := by
        simp only [handleClientMessage, Server.remoteAddress_stamp, here, if_true,
          handleToLocalMessage, sender, found]
      refine ⟨_, _, routed, rfl, rfl, ⟨?_, ?_, ⟨once, .inr rfl⟩, .inr ⟨behind, rfl⟩, by simp⟩,
        samePlace, ?_, sameClients, samePending, ?_, ?_⟩
      · intro own same
        cases same
        rfl
      · intro write member
        obtain ⟨target, registered⟩ := targets write member
        exact ⟨target, registered, addressed⟩
      · rw [sameDaemon]
      · intro other
        rw [posted_deliver]
        by_cases wrote : (other, true) ∈ (host.deliver (writes 0) behind
          (host.daemon.server.stamp client.addr.clientAddr m)).2 <;> simp [writtenFor, wrote]
      · intro node message member
        rw [sameDaemon] at member
        exact .inl member
  | false =>
      have handles := host.daemon.server.handleToRemoteMessage_handles host.daemon.network writes
        (host.daemon.server.stamp client.addr.clientAddr m)
      generalize handled : host.daemon.server.handleToRemoteMessage host.daemon.network writes
        (host.daemon.server.stamp client.addr.clientAddr m) = result at handles
      obtain ⟨server, droped, effects⟩ := result
      have routed : host.handleClientMessage writes behind client m = some
          ({ host with daemon := ⟨server, host.daemon.network.carryOutAll effects⟩ },
            ⟨some client.addr.clientAddr, m, host.daemon.server.stamp client.addr.clientAddr m,
              [], [], droped, effects⟩) := by
        simp only [handleClientMessage, Server.remoteAddress_stamp, here, Bool.false_eq_true,
          if_false, handled]
      refine ⟨_, _, routed, rfl, rfl, ⟨?_, by simp, ⟨Nat.zero_le 1, .inl rfl⟩, .inl rfl, ?_⟩, rfl,
        handles.addresses.1, fun _ => rfl, fun _ => rfl, ?_, ?_⟩
      · intro own same
        cases same
        rfl
      · intro node conn message member
        exact handles.wrote_eq member
      · intro other
        exact (List.append_nil _).symm
      · intro node message member
        exact handles.cached_of member

/-- The client after some records were taken off its bus. -/
def leave (host : Host) (key : UInt32) (client : LocalClient) (rest : List (List UInt8)) : Host :=
  host.putClient key { client with input := rest }

theorem identities_leave {host : Host} {key : UInt32} {client : LocalClient}
    (found : host.clients.find key = some client) (rest : List (List UInt8)) (other : UInt32) :
    (host.leave key client rest).identities other = host.identities other := by
  have same : identity { client with input := rest } = identity client := rfl
  exact identities_putClient found same other

/-- Records are taken off a client's bus, and the log says what was done with the
messages among them. -/
theorem Accounts.of_read {host next : Host} {key : UInt32} {client : LocalClient}
    {taken rest : List (List UInt8)} {log : List Routed}
    (found : host.clients.find key = some client) (split : client.input = taken ++ rest)
    (messages : readFrom key log = taken.filterMap ClientInfo.checkRecord)
    (only : ∀ other, other ≠ key → readFrom other log = [])
    (sound : ∀ entry ∈ log, entry.Sound (host.leave key client rest))
    (location : next.busLocation = host.busLocation)
    (self : next.daemon.server.selfAddress = host.daemon.server.selfAddress)
    (identities : ∀ other, next.identities other = (host.leave key client rest).identities other)
    (pending : ∀ other, next.pending other = (host.leave key client rest).pending other)
    (written : ∀ other, next.posted other =
      (host.leave key client rest).posted other ++ writtenFor other log)
    (cached : ∀ node, ∀ message ∈ next.daemon.server.cachedFor node,
      message ∈ host.daemon.server.cachedFor node ∨
        ∃ entry ∈ log, entry.source ≠ none ∧ message = entry.handled) :
    Accounts host next log where
  location := location
  self := self
  identities := fun other => (identities other).trans (identities_leave found rest other)
  sound := fun entry member =>
    (sound entry member).transfer rfl (identities_leave found rest)
  read := by
    intro other
    rw [pending, leave, pending_putClient]
    by_cases own : other = key
    · subst own
      rw [if_pos rfl, pending_of_find found]
      exact ⟨taken, split, messages⟩
    · rw [if_neg own]
      exact ⟨[], rfl, only other own⟩
  written := by
    intro other
    rw [written, leave, posted_putClient]
    by_cases own : other = key
    · rw [if_pos own, own, posted_of_find found]
    · rw [if_neg own]
  cached := cached

/-- One round of the inner loop: the bus is empty, or its first record is dropped, and
the loop ends; or the record is a message, and the loop goes on after it. -/
theorem drain_round (writes : Nat → Nat → Bool) (behind : Nat → List UInt8) (fuel count : Nat)
    {host : Host} {key : UInt32} {client : LocalClient}
    (found : host.clients.find key = some client) :
    (client.input = [] ∧
      drain writes behind key (fuel + 1) count host = some (host.leave key client [], [])) ∨
    (∃ record rest, client.input = record :: rest ∧ ClientInfo.checkRecord record = none ∧
      drain writes behind key (fuel + 1) count host = some (host.leave key client rest, [])) ∨
    ∃ record rest m, client.input = record :: rest ∧
      ClientInfo.checkRecord record = some m ∧
      drain writes behind key (fuel + 1) count host =
        match (host.leave key client rest).handleClientMessage (writes count) (behind count)
            client m with
        | none => none
        | some (next, routed) =>
            match drain writes behind key fuel (count + 1) next with
            | none => none
            | some (last, rest) => some (last, routed :: rest) := by
  cases waiting : client.input with
  | nil =>
      have unread : host.leave key client [] = host.putClient key client := by
        rw [leave, ← waiting]
      refine .inl ⟨rfl, ?_⟩
      simp only [drain, found, ClientInfo.readMessage, waiting, unread]
  | cons record rest =>
      cases accepted : ClientInfo.checkRecord record with
      | none =>
          refine .inr (.inl ⟨record, rest, rfl, accepted, ?_⟩)
          simp [drain, found, ClientInfo.readMessage, waiting, accepted, leave]
      | some m =>
          refine .inr (.inr ⟨record, rest, m, rfl, accepted, ?_⟩)
          have brought : client.readMessage =
              ({ client.toClientInfo with input := rest }, some m) := by
            simp [ClientInfo.readMessage, waiting, accepted]
          simp only [drain, found, brought]
          rfl

/-- The loop run: the inner loop ends, never for want of a client, and is accounted
for. The induction is on the rounds left. -/
theorem drain_accounts (writes : Nat → Nat → Bool) (behind : Nat → List UInt8) (key : UInt32)
    {fuel : Nat} (count : Nat) {host : Host} (keyed : Keyed host)
    (registered : (host.identities key).isSome = true) (enough : (host.pending key).length < fuel) :
    ∃ after log, drain writes behind key fuel count host = some (after, log) ∧
      Accounts host after log := by
  induction fuel generalizing count host with
  | zero => cases enough
  | succ fuel ih =>
      obtain ⟨client, found⟩ : ∃ client, host.clients.find key = some client := by
        simpa [identities, Option.isSome_iff_exists] using registered
      rw [pending_of_find found] at enough
      rcases drain_round writes behind fuel count found with ⟨waiting, ends⟩ |
        ⟨record, rest, waiting, refused, ends⟩ | ⟨record, rest, m, waiting, accepted, goes⟩
      · have none : client.input = [] ++ [] := waiting
        exact ⟨_, _, ends, .of_read found none rfl (fun _ _ => rfl) (by simp) rfl rfl
          (fun _ => rfl) (fun _ => rfl) (fun _ => (List.append_nil _).symm)
          (fun _ _ member => .inl member)⟩
      · have split : client.input = [record] ++ rest := waiting
        exact ⟨_, _, ends, .of_read found split (by simp [refused, readFrom])
          (fun _ _ => rfl) (by simp) rfl rfl (fun _ => rfl) (fun _ => rfl)
          (fun _ => (List.append_nil _).symm) (fun _ _ member => .inl member)⟩
      · have split : client.input = [record] ++ rest := waiting
        have there : (host.leave key client rest).clients.find key =
            some { client with input := rest } := by
          rw [leave, find_putClient, if_pos rfl]
        obtain ⟨next, routed, handled, source, given, sound, location, self, identities, pending,
          posted, cached⟩ :=
            handleClientMessage_spec (writes count) (behind count) m (keyed key client found) there
        have first : Accounts host next [routed] :=
          .of_read found split (by simp [accepted, readFrom, source, given])
            (fun other elsewhere => by simp [readFrom, source, Ne.symm elsewhere])
            (by simpa using sound) location self identities pending posted
            (fun node message member => (cached node message member).imp_right
              fun same => ⟨routed, List.mem_singleton_self _, by simp [source], same⟩)
        have fewer : (next.pending key).length < fuel := by
          rw [pending, pending_of_find there]
          rw [waiting] at enough
          exact Nat.lt_of_succ_lt_succ enough
        obtain ⟨last, log, drained, accounts⟩ := ih (count + 1)
          (keyed.of_identities first.identities)
          (by rw [first.identities]; exact registered) fewer
        refine ⟨last, routed :: log, ?_, first.trans accounts⟩
        rw [goes]
        simp only [handled, drained]

theorem drainAll_accounts (writes : UInt32 → Nat → Nat → Bool)
    (behind : UInt32 → Nat → List UInt8) {keys : List UInt32} {host : Host} (keyed : Keyed host)
    (registered : ∀ key ∈ keys, (host.identities key).isSome = true) :
    ∃ after log, drainAll writes behind keys host = some (after, log) ∧
      Accounts host after log := by
  induction keys generalizing host with
  | nil => exact ⟨host, [], rfl, .refl host⟩
  | cons key keys ih =>
      obtain ⟨next, first, drained, accounts⟩ := drain_accounts (writes key) (behind key) key 0
        keyed (registered key List.mem_cons_self) (Nat.lt_succ_self _)
      obtain ⟨after, rest, others, later⟩ := ih (keyed.of_identities accounts.identities)
        (fun other member => by
          rw [accounts.identities]
          exact registered other (List.mem_cons_of_mem _ member))
      exact ⟨after, first ++ rest, by simp only [drainAll, drained, others],
        accounts.trans later⟩

theorem handleBusMessage_accounts (writes : UInt32 → Nat → Nat → Bool)
    (behind : UInt32 → Nat → List UInt8) {host : Host} (keyed : Keyed host) :
    ∃ after log, host.handleBusMessage writes behind = some (after, log) ∧
      Accounts host after log := by
  refine drainAll_accounts writes behind keyed fun key member => ?_
  have known : key ∈ host.clients := List.mem_insertionSort _ |>.mp member
  obtain ⟨client, found⟩ := Option.isSome_iff_exists.mp (AList.lookup_isSome.mpr known)
  rw [identities_of_find found]
  rfl

theorem accounts_of_drained {host after : Host} {writes : UInt32 → Nat → Nat → Bool}
    {behind : UInt32 → Nat → List UInt8} {log : List Routed} (keyed : Keyed host)
    (handled : host.handleBusMessage writes behind = some (after, log)) :
    Accounts host after log := by
  obtain ⟨_, _, returned, accounts⟩ := handleBusMessage_accounts writes behind keyed
  rw [handled] at returned
  cases returned
  exact accounts

theorem handleRemoteMessage_accounts (host : Host) (m : Message) (written : Bool)
    (behind : List UInt8) :
    Accounts host (host.handleRemoteMessage written behind m).1
      [⟨none, m, m, (host.handleRemoteMessage written behind m).2.1, m.image behind, none,
        []⟩] := by
  have silent (key : UInt32) (entry : Routed) (given : entry.source = none) :
      readFrom key [entry] = [] := by
    simp [readFrom, given]
  unfold handleRemoteMessage
  split
  · refine ⟨rfl, rfl, fun _ => rfl, ?_, fun key => ⟨[], rfl, silent key _ rfl⟩,
      fun key => (List.append_nil _).symm, fun _ _ member => .inl member⟩
    intro entry member
    cases List.mem_singleton.mp member
    exact ⟨by simp, by simp, ⟨Nat.zero_le 1, .inl rfl⟩, .inl rfl, by simp⟩
  · rename_i own
    obtain ⟨sameDaemon, samePlace, sameClients, samePending⟩ := host.deliver_frame written behind m
    obtain ⟨once, targets⟩ := host.deliver_writes written behind m
    refine ⟨samePlace, by rw [sameDaemon], sameClients, ?_, fun key => ⟨[], (samePending key).symm,
      silent key _ rfl⟩, fun key => ?_, fun node message member => ?_⟩
    · intro entry member
      cases List.mem_singleton.mp member
      refine ⟨by simp, fun write wrote => ?_, ⟨once, .inr rfl⟩, .inr ⟨behind, rfl⟩, by simp⟩
      obtain ⟨target, registered⟩ := targets write wrote
      exact ⟨target, registered, .inl (not_not.mp own)⟩
    · rw [posted_deliver]
      by_cases wrote : (key, true) ∈ (host.deliver written behind m).2 <;> simp [writtenFor, wrote]
    · dsimp only at member
      rw [sameDaemon] at member
      exact .inl member

/-- The name in a handshake datagram. -/
def handShakeName (data : List UInt8) : List UInt8 :=
  (HandShakeRequest.ofData (ProtocolMessage.overlay data).data).name

/-- The client that a handshake makes of a name. -/
def newClient (host : Host) (name : List UInt8) (input output : List (List UInt8)) :
    LocalClient :=
  ⟨⟨name, Address.create name, input, output⟩, host.getInputBusPath name,
    host.getOutputBusPath name⟩

/-- A handshake is refused, and then changes nothing, or puts the client it makes
under its address unless there is one. -/
theorem handleInitCommand_cases (host : Host)
    (restoreOrCreate : List UInt8 → UInt32 → Option (List (List UInt8))) (data : List UInt8)
    (out : HandShakeResponse) :
    ((host.handleInitCommand restoreOrCreate data out).1 = host ∧
      ∀ reply, (host.handleInitCommand restoreOrCreate data out).2 = some reply →
        reply.code = .kFailedToCreateBus) ∨
    ∃ input output, host.handleInitCommand restoreOrCreate data out =
      ({ host with clients := (host.clients.emplace
          (Address.create (handShakeName data)).clientAddr
          (host.newClient (handShakeName data) input output)).1 },
        some ⟨.kOk, host.getOutputBusPath (handShakeName data),
          host.getInputBusPath (handShakeName data)⟩) := by
  unfold handleInitCommand
  split
  · exact .inl ⟨rfl, by simp⟩
  · dsimp only
    split
    · exact .inr ⟨_, _, rfl⟩
    · refine .inl ⟨rfl, fun reply replied => ?_⟩
      cases replied
      rfl

def register (host : Host) (key : UInt32) (client : LocalClient) : Host :=
  { host with clients := (host.clients.emplace key client).1 }

theorem find_register (host : Host) (key other : UInt32) (client : LocalClient) :
    (host.register key client).clients.find other =
      if other = key then some ((host.clients.find key).getD client)
      else host.clients.find other :=
  FiniteMap.find_emplace _ _ _ _

theorem find_register_of_find {host : Host} {other : UInt32} {known : LocalClient}
    (found : host.clients.find other = some known) (key : UInt32) (client : LocalClient) :
    (host.register key client).clients.find other = some known := by
  rw [find_register]
  split
  · rename_i own
    rw [← own, found]
    rfl
  · exact found

theorem Keyed.register {host : Host} (keyed : Keyed host) {key : UInt32} {client : LocalClient}
    (own : client.addr.clientAddr = key) : Keyed (host.register key client) := by
  intro other known found
  rw [find_register] at found
  split at found
  · rename_i here
    subst here
    cases held : host.clients.find other with
    | none =>
        rw [held] at found
        cases found
        exact own
    | some old =>
        rw [held] at found
        cases found
        exact keyed other _ held
  · exact keyed other known found

/-- What a step can do to the clients: a handshake registers one, or the step keeps
them all and accounts for the messages, or one of them uses its buses. -/
inductive Transition (host : Host) : Event → Host → List Routed → Prop where
  | refused {restoreOrCreate : List UInt8 → UInt32 → Option (List (List UInt8))}
      {data : List UInt8} {out : HandShakeResponse} :
      (∀ reply, (host.handleInitCommand restoreOrCreate data out).2 = some reply →
        reply.code = .kFailedToCreateBus) →
      Transition host (.handShake restoreOrCreate data out) host []
  | registered {restoreOrCreate : List UInt8 → UInt32 → Option (List (List UInt8))}
      {data : List UInt8} {out : HandShakeResponse} {input output : List (List UInt8)} :
      (host.handleInitCommand restoreOrCreate data out).2 =
        some ⟨.kOk, host.getOutputBusPath (handShakeName data),
          host.getInputBusPath (handShakeName data)⟩ →
      Transition host (.handShake restoreOrCreate data out)
        (host.register (Address.create (handShakeName data)).clientAddr
          (host.newClient (handShakeName data) input output)) []
  | daemon {event : Daemon.Event} {daemon : Daemon.State} {effects : List Effect} :
      (∀ client m writes, event ≠ .busMessage client m writes) →
      Daemon.step host.daemon event = some (daemon, effects) →
      Transition host (.daemon event) { host with daemon := daemon } []
  | fromPeer {m : Message} {written : Bool} {behind : List UInt8} :
      Transition host (.remoteMessage m written behind)
        (host.handleRemoteMessage written behind m).1
        [⟨none, m, m, (host.handleRemoteMessage written behind m).2.1, m.image behind, none, []⟩]
  | drained {writes : UInt32 → Nat → Nat → Bool} {behind : UInt32 → Nat → List UInt8}
      {after : Host} {log : List Routed} :
      host.handleBusMessage writes behind = some (after, log) →
      Transition host (.busMessage writes behind) after log
  | submitted {key : UInt32} {record : List UInt8} {client : LocalClient} :
      host.clients.find key = some client →
      Transition host (.submit key record)
        (host.leave key client (client.input ++ [record])) []
  | received {key : UInt32} {client : LocalClient} :
      host.clients.find key = some client →
      Transition host (.receive key)
        (host.putClient key { client with output := client.output.drop 1 }) []

theorem step_transition {host after : Host} {event : Event} {outputs : List Routed}
    (stepped : step host event = some (after, outputs)) :
    Transition host event after outputs := by
  cases event with
  | handShake restoreOrCreate data out =>
      rcases host.handleInitCommand_cases restoreOrCreate data out with ⟨same, refused⟩ |
        ⟨input, output, registered⟩
      · simp only [step, same] at stepped
        cases stepped
        exact .refused refused
      · simp only [step, registered] at stepped
        cases stepped
        exact .registered (by rw [registered])
  | daemon event =>
      have others : ∀ client m writes, event ≠ .busMessage client m writes := by
        intro client m writes equal
        subst equal
        cases stepped
      have mapped : (Daemon.step host.daemon event).map
          (fun stepped => ({ host with daemon := stepped.1 }, [])) = some (after, outputs) := by
        cases event with
        | busMessage client m writes => cases stepped
        | _ => exact stepped
      obtain ⟨⟨daemon, effects⟩, handled, settled⟩ := Option.map_eq_some_iff.mp mapped
      cases settled
      exact .daemon others handled
  | remoteMessage m written behind =>
      cases stepped
      exact .fromPeer
  | busMessage writes behind => exact .drained stepped
  | submit key record =>
      simp only [step] at stepped
      split at stepped
      · cases stepped
      · cases stepped
        exact .submitted ‹_›
  | receive key =>
      simp only [step] at stepped
      split at stepped
      · cases stepped
      · cases stepped
        exact .received ‹_›

theorem keyed_initial (messageServerPort : Int32) (resolveServerAddress : NetAddress)
    (busLocation : List UInt8) :
    Keyed (initial messageServerPort resolveServerAddress busLocation) := by
  intro key client found
  simp [initial] at found

theorem Keyed.preserved {host after : Host} {event : Event} {outputs : List Routed}
    (keyed : Keyed host) (stepped : step host event = some (after, outputs)) : Keyed after := by
  cases step_transition stepped with
  | refused _ => exact keyed
  | registered _ => exact keyed.register rfl
  | daemon _ _ => exact keyed
  | fromPeer => exact keyed.of_identities (handleRemoteMessage_accounts host _ _ _).identities
  | drained handled => exact keyed.of_identities (accounts_of_drained keyed handled).identities
  | submitted found => exact keyed.of_identities (identities_leave found _)
  | @received key client found =>
      have same : identity { client with output := client.output.drop 1 } = identity client := rfl
      exact keyed.of_identities (identities_putClient found same)

end Cpmd.Host
