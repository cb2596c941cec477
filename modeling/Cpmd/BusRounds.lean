import Cpmd.HostProperties
import Cpmd.Library.Draining

/-! `HandleBusMessage` as the list of its rounds: what each reads, in which order, and
what the loops leave on the buses. -/

set_option autoImplicit false

namespace Cpmd

open Library

/-- `ReadMessage` would accept the record. -/
def ClientInfo.accepts (record : List UInt8) : Bool := (checkRecord record).isSome

namespace Host

/-- What handling a message from a client can do: offer it to a client here, or hand it to
the daemon. -/
inductive HandlesClient (host : Host) (writes : Nat → Bool) (behind : List UInt8)
    (client : LocalClient) (m : Message) : Host → Routed → Prop where
  | toLocal {stamped : Message} : host.daemon.server.isLocal m.remoteAddress = true →
      host.daemon.server.stamp client.addr.clientAddr m = stamped →
      HandlesClient host writes behind client m (host.deliver (writes 0) behind stamped).1
        ⟨some client.addr.clientAddr, m, stamped, (host.deliver (writes 0) behind stamped).2,
          stamped.image behind, none, []⟩
  | toRemote {stamped : Message} {server : Server} {droped : Option Message}
      {effects : List Effect} : host.daemon.server.isLocal m.remoteAddress = false →
      host.daemon.server.stamp client.addr.clientAddr m = stamped →
      host.daemon.server.handleToRemoteMessage host.daemon.network writes stamped =
        (server, droped, effects) →
      HandlesClient host writes behind client m
        { host with daemon := ⟨server, host.daemon.network.carryOutAll effects⟩ }
        ⟨some client.addr.clientAddr, m, stamped, [], [], droped, effects⟩

theorem handleClientMessage_handles {host next : Host} {writes : Nat → Bool}
    {behind : List UInt8} {client : LocalClient} {m : Message} {routed : Routed}
    (handled : host.handleClientMessage writes behind client m = some (next, routed)) :
    HandlesClient host writes behind client m next routed := by
  cases here : host.daemon.server.isLocal m.remoteAddress with
  | true =>
      simp only [handleClientMessage, Server.remoteAddress_stamp, here, if_true,
        handleToLocalMessage] at handled
      split at handled
      · cases handled
      · rename_i delivered found
        split at found
        · cases found
        · cases found
          cases handled
          exact .toLocal here rfl
  | false =>
      simp only [handleClientMessage, Server.remoteAddress_stamp, here, Bool.false_eq_true,
        if_false, Option.some.injEq, Prod.mk.injEq] at handled
      obtain ⟨rfl, rfl⟩ := handled
      exact .toRemote here rfl rfl

theorem HandlesClient.frame {host next : Host} {writes : Nat → Bool} {behind : List UInt8}
    {client : LocalClient} {m : Message} {routed : Routed}
    (handles : HandlesClient host writes behind client m next routed) :
    next.daemon.server.selfAddress = host.daemon.server.selfAddress ∧
      (∀ key, next.identities key = host.identities key) ∧
      ∀ key, next.pending key = host.pending key := by
  cases handles with
  | @toLocal stamped _ _ =>
      obtain ⟨daemon, _, identities, pending⟩ := host.deliver_frame (writes 0) behind stamped
      exact ⟨by rw [daemon], identities, pending⟩
  | @toRemote stamped _ _ _ _ _ handled =>
      have handles := host.daemon.server.handleToRemoteMessage_handles host.daemon.network writes
        stamped
      rw [handled] at handles
      exact ⟨handles.addresses.1, fun _ => rfl, fun _ => rfl⟩

/-- A message read from the bus of the client at a key, with the outcomes of the
`Write`s made for it and what lies behind it in memory. -/
structure Turn where
  key : UInt32
  given : Message
  writes : Nat → Bool
  behind : List UInt8

/-- The rounds of the loops: records are taken off buses, and the messages among them
are handled in turn. -/
inductive Rounds : Host → List Turn → Host → List Routed → Prop where
  | done (host : Host) : Rounds host [] host []
  | dropped {host after : Host} {key : UInt32} {client : LocalClient}
      {rest : List (List UInt8)} {turns : List Turn} {log : List Routed} :
      host.clients.find key = some client →
      Rounds (host.leave key client rest) turns after log → Rounds host turns after log
  | handled {host next after : Host} {key : UInt32} {client : LocalClient}
      {rest : List (List UInt8)} {m : Message} {writes : Nat → Bool} {behind : List UInt8}
      {routed : Routed} {turns : List Turn} {log : List Routed} :
      host.clients.find key = some client →
      HandlesClient (host.leave key client rest) writes behind client m next routed →
      Rounds next turns after log →
      Rounds host (⟨key, m, writes, behind⟩ :: turns) after (routed :: log)

theorem Rounds.append {host next after : Host} {turns more : List Turn} {log rest : List Routed}
    (first : Rounds host turns next log) (second : Rounds next more after rest) :
    Rounds host (turns ++ more) after (log ++ rest) := by
  induction first with
  | done _ => exact second
  | dropped found _ ih => exact .dropped found (ih second)
  | handled found handled _ ih => exact .handled found handled (ih second)

theorem Rounds.frame {host after : Host} {turns : List Turn} {log : List Routed}
    (rounds : Rounds host turns after log) :
    after.daemon.server.selfAddress = host.daemon.server.selfAddress ∧
      ∀ key, after.identities key = host.identities key := by
  induction rounds with
  | done _ => exact ⟨rfl, fun _ => rfl⟩
  | dropped found _ ih =>
      exact ⟨ih.1, fun key => (ih.2 key).trans (identities_leave found _ key)⟩
  | handled found handled _ ih =>
      obtain ⟨self, identities, _⟩ := handled.frame
      exact ⟨ih.1.trans self, fun key =>
        (ih.2 key).trans ((identities key).trans (identities_leave found _ key))⟩

/-- The turns of one client, from some round of the inner loop on. -/
def turnsFrom (writes : Nat → Nat → Bool) (behind : Nat → List UInt8) (key : UInt32) :
    Nat → List Message → List Turn
  | _, [] => []
  | count, m :: rest =>
      ⟨key, m, writes count, behind count⟩ :: turnsFrom writes behind key (count + 1) rest

/-- The messages on a client's bus that the inner loop reaches. -/
def reached (host : Host) (key : UInt32) : List Message :=
  ((host.pending key).takeWhile ClientInfo.accepts).filterMap ClientInfo.checkRecord

theorem pending_leave {host : Host} {key : UInt32} (client : LocalClient)
    (rest : List (List UInt8)) (other : UInt32) :
    (host.leave key client rest).pending other = if other = key then rest else host.pending other :=
  pending_putClient host key other { client with input := rest }

/-- The inner loop ends after the first record that is refused, and takes nothing off the
other buses. -/
theorem drain_rounds (writes : Nat → Nat → Bool) (behind : Nat → List UInt8) (key : UInt32)
    {fuel : Nat} (count : Nat) {host after : Host} {log : List Routed}
    (drained : drain writes behind key fuel count host = some (after, log)) :
    Rounds host (turnsFrom writes behind key count (host.reached key)) after log ∧
      ∀ other, after.pending other =
        if other = key then Draining.leftBehind ClientInfo.accepts (host.pending key)
        else host.pending other := by
  induction fuel generalizing count host log with
  | zero => cases drained
  | succ fuel ih =>
      cases found : host.clients.find key with
      | none =>
          simp only [drain, found] at drained
          cases drained
      | some client =>
          rw [reached, pending_of_find found]
          rcases drain_round writes behind fuel count found with ⟨waiting, ends⟩ |
            ⟨record, rest, waiting, refused, ends⟩ | ⟨record, rest, m, waiting, accepted, goes⟩
          · rw [ends] at drained
            cases drained
            rw [waiting]
            exact ⟨.dropped found (.done _), pending_leave client []⟩
          · have fails : ClientInfo.accepts record = false := by
              simp [ClientInfo.accepts, refused]
            rw [ends] at drained
            cases drained
            rw [waiting, Draining.leftBehind_cons_bad fails,
              List.takeWhile_cons_of_neg (by simp [fails])]
            exact ⟨.dropped found (.done _), pending_leave client rest⟩
          · have passes : ClientInfo.accepts record = true := by
              simp [ClientInfo.accepts, accepted]
            cases handled : (host.leave key client rest).handleClientMessage (writes count)
                (behind count) client m with
            | none => simp [goes, handled] at drained
            | some result =>
                obtain ⟨next, routed⟩ := result
                have handles := handleClientMessage_handles handled
                obtain ⟨_, _, pending⟩ := handles.frame
                rw [goes, handled] at drained
                dsimp only at drained
                split at drained
                · cases drained
                · rename_i last later further
                  cases drained
                  obtain ⟨rounds, left⟩ := ih (count + 1) further
                  have further : next.reached key =
                      (rest.takeWhile ClientInfo.accepts).filterMap ClientInfo.checkRecord := by
                    rw [reached, pending, pending_leave, if_pos rfl]
                  rw [further] at rounds
                  rw [waiting, Draining.leftBehind_cons_good passes,
                    List.takeWhile_cons_of_pos passes, List.filterMap_cons_some accepted]
                  refine ⟨.handled found handles rounds, fun other => ?_⟩
                  rw [left, pending, pending, pending_leave, pending_leave, if_pos rfl]
                  split <;> rfl

/-- The turns of the outer loop over these keys. -/
def turnsOf (host : Host) (writes : UInt32 → Nat → Nat → Bool)
    (behind : UInt32 → Nat → List UInt8) (keys : List UInt32) : List Turn :=
  keys.flatMap fun key => turnsFrom (writes key) (behind key) key 0 (host.reached key)

theorem turnsOf_congr {host other : Host} {writes : UInt32 → Nat → Nat → Bool}
    {behind : UInt32 → Nat → List UInt8} {keys : List UInt32}
    (same : ∀ key ∈ keys, host.pending key = other.pending key) :
    host.turnsOf writes behind keys = other.turnsOf writes behind keys := by
  refine List.flatMap_congr fun key member => ?_
  simp only [reached, same key member]

theorem drainAll_rounds (writes : UInt32 → Nat → Nat → Bool) (behind : UInt32 → Nat → List UInt8)
    {keys : List UInt32} {host after : Host} {log : List Routed}
    (distinct : keys.Nodup) (drained : drainAll writes behind keys host = some (after, log)) :
    Rounds host (host.turnsOf writes behind keys) after log ∧
      ∀ other, after.pending other =
        if other ∈ keys then Draining.leftBehind ClientInfo.accepts (host.pending other)
        else host.pending other := by
  induction keys generalizing host log with
  | nil =>
      cases drained
      exact ⟨.done _, fun _ => rfl⟩
  | cons key keys ih =>
      obtain ⟨fresh, apart⟩ := List.nodup_cons.mp distinct
      rw [drainAll] at drained
      split at drained
      · cases drained
      · rename_i next first here
        split at drained
        · cases drained
        · rename_i last rest there
          cases drained
          obtain ⟨now, left⟩ := drain_rounds (writes key) (behind key) key 0 here
          obtain ⟨later, others⟩ := ih apart there
          have unread : next.turnsOf writes behind keys = host.turnsOf writes behind keys := by
            refine turnsOf_congr fun other member => ?_
            have different : other ≠ key := fun same => fresh (same ▸ member)
            rw [left, if_neg different]
          rw [unread] at later
          refine ⟨now.append later, fun other => ?_⟩
          rw [others, left]
          by_cases own : other = key
          · subst own
            simp [fresh]
          · simp [own]

/-- The turns of a call of `HandleBusMessage`. -/
def turns (host : Host) (writes : UInt32 → Nat → Nat → Bool)
    (behind : UInt32 → Nat → List UInt8) : List Turn :=
  host.turnsOf writes behind (host.clients.keys.insertionSort (· ≤ ·))

theorem handleBusMessage_rounds {host after : Host} {writes : UInt32 → Nat → Nat → Bool}
    {behind : UInt32 → Nat → List UInt8} {log : List Routed}
    (handled : host.handleBusMessage writes behind = some (after, log)) :
    Rounds host (host.turns writes behind) after log := by
  have sorted := List.perm_insertionSort (· ≤ ·) host.clients.keys
  exact (drainAll_rounds writes behind (sorted.nodup_iff.mpr host.clients.keys_nodup)
    handled).1

theorem handleBusMessage_pending {host after : Host} {writes : UInt32 → Nat → Nat → Bool}
    {behind : UInt32 → Nat → List UInt8} {log : List Routed}
    (handled : host.handleBusMessage writes behind = some (after, log)) (key : UInt32) :
    after.pending key = Draining.leftBehind ClientInfo.accepts (host.pending key) := by
  have sorted := List.perm_insertionSort (· ≤ ·) host.clients.keys
  rw [(drainAll_rounds writes behind (sorted.nodup_iff.mpr host.clients.keys_nodup)
    handled).2]
  split
  · rfl
  · rename_i missing
    have absent : host.clients.find key = none :=
      AList.lookup_eq_none.mpr fun known => missing (sorted.mem_iff.mpr known)
    rw [pending, absent]
    rfl

end Host

end Cpmd
