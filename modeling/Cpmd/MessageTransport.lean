import Cpmd.FederationProperties

/-! The connections of a federation as ordered channels: while the messages that go out
are well formed, what has been read at the far end is what was written, up to the part
that is still under way. -/

set_option autoImplicit false

namespace Cpmd

open Library

namespace MessageCodec

theorem receives_of_receive {rounds : Nat} {connection after : Connection} {chunk : List UInt8}
    {handed : List Message} (opened : connection.closed = false)
    (read : receive rounds connection chunk = some (after, handed)) :
    Receives connection chunk after ∧ after.received = connection.received ++ handed := by
  obtain ⟨unread, closed, received⟩ := connection
  cases opened
  unfold receive at read
  dsimp only at read
  split at read
  · cases read
    exact ⟨.left ⟨rounds, ‹_›⟩, rfl⟩
  · cases read
    exact ⟨.closed ⟨rounds, ‹_›⟩, rfl⟩
  · cases read
  · cases read

theorem receive_of_receives {connection after : Connection} {chunk : List UInt8}
    (received : Receives connection chunk after) :
    ∃ rounds handed, receive rounds connection chunk = some (after, handed) := by
  cases received with
  | left read | closed read =>
      obtain ⟨rounds, ran⟩ := read
      exact ⟨rounds, _, by simp only [receive, ran]; rfl⟩

theorem ReadsBelow.snoc {limit : Nat} {chunks : List (List UInt8)} {connection : Connection}
    {chunk : List UInt8} (below : ReadsBelow limit chunks)
    (fed : Feeds .fresh chunks connection)
    (small : (connection.unread ++ chunk).length < limit) :
    ReadsBelow limit (chunks ++ [chunk]) := by
  intro earlier next later cut other otherFed
  rcases List.eq_nil_or_concat later with rfl | ⟨before, last, rfl⟩
  · obtain ⟨rfl, same⟩ := List.append_inj' cut rfl
    cases same
    rw [otherFed.unique fed]
    exact small
  · have shorter : chunks ++ [chunk] = (earlier ++ next :: before) ++ [last] := by
      simpa using cut
    obtain ⟨rfl, _⟩ := List.append_inj' shorter rfl
    exact below earlier next before rfl other otherFed

theorem Feeds.of_snoc {before after : Connection} {chunks : List (List UInt8)}
    {chunk : List UInt8} (fed : Feeds before (chunks ++ [chunk]) after) :
    ∃ middle, Feeds before chunks middle ∧ Receives middle chunk after := by
  induction chunks generalizing before with
  | nil =>
      cases fed with
      | cons received rest =>
          cases rest
          exact ⟨before, .nil, received⟩
  | cons first chunks ih =>
      cases fed with
      | cons received rest =>
          obtain ⟨middle, earlier, last⟩ := ih rest
          exact ⟨middle, .cons received earlier, last⟩

/-- What has been handed over of a stream of well-formed messages is the first of them. -/
theorem received_prefix {messages : List Message} {chunks : List (List UInt8)}
    {connection : Connection} (more : List UInt8)
    (formed : ∀ message ∈ messages, message.WellFormed)
    (split : chunks.flatten ++ more = Message.stream messages)
    (below : ReadsBelow (2 ^ 31) chunks) (fed : Feeds .fresh chunks connection) :
    connection.received.map Message.trim <+: messages.map Message.trim := by
  obtain ⟨other, otherFed, _, parsed⟩ := Feeds.of_prefix more formed split below
  cases otherFed.unique fed
  obtain ⟨values, tail, continued⟩ := Framing.Grammar.parses_total (connection.unread ++ more)
  have whole := parsed.append continued
  rw [split] at whole
  exact ⟨values, (whole.unique (Message.parses_stream formed)).1⟩

/-- Once all bytes have arrived, all messages have been handed over. -/
theorem received_of_arrived {messages : List Message} {chunks : List (List UInt8)}
    {connection : Connection} (formed : ∀ message ∈ messages, message.WellFormed)
    (split : chunks.flatten = Message.stream messages)
    (below : ReadsBelow (2 ^ 31) chunks) (fed : Feeds .fresh chunks connection) :
    connection.received.map Message.trim = messages.map Message.trim ∧
      connection.unread = [] ∧ connection.closed = false := by
  obtain ⟨other, otherFed, opened, parsed⟩ :=
    Feeds.of_prefix [] formed (by rw [List.append_nil]; exact split) below
  cases otherFed.unique fed
  rw [split] at parsed
  obtain ⟨same, stop⟩ := parsed.unique (Message.parses_stream formed)
  exact ⟨same, Framing.Tail.rest.inj stop, opened⟩

end MessageCodec

theorem Message.stream_append (first second : List Message) :
    stream (first ++ second) = stream first ++ stream second :=
  List.flatMap_append

section Lists

variable {Item : Type} {items : List Item} {put found : Item} {place index : Nat}

theorem getElem?_set_cases (there : (items.set place put)[index]? = some found) :
    (index = place ∧ found = put) ∨ (place ≠ index ∧ items[index]? = some found) := by
  by_cases own : place = index
  · subst own
    rw [List.getElem?_set_self'] at there
    obtain ⟨_, _, rfl⟩ := Option.map_eq_some_iff.mp there
    exact .inl ⟨rfl, rfl⟩
  · rw [List.getElem?_set_ne own] at there
    exact .inr ⟨own, there⟩

theorem getElem?_append_cases (there : (items ++ [put])[index]? = some found) :
    items[index]? = some found ∨ (index = items.length ∧ found = put) := by
  rcases Nat.lt_or_ge index items.length with inside | beyond
  · exact .inl ((List.getElem?_append_left inside).symm.trans there)
  · rw [List.getElem?_append_right beyond] at there
    obtain ⟨first, same⟩ := List.getElem?_eq_some_iff.mp there
    have last : index = items.length := by
      simp only [List.length_singleton] at first
      omega
    subst last
    exact .inr ⟨rfl, by simpa using same.symm⟩

end Lists

namespace Federation

variable {Peer : Type} [DecidableEq Peer]

/-- A daemon never gives two of its connections the same identity. -/
def Link.key (link : Link Peer) : Peer × ConnId := (link.source, link.conn)

def Link.writtenIn (link : Link Peer) (outputs : List (Output Peer)) : List Message :=
  valuesAt link.conn (writtenBy link.source outputs)

def Link.arrivedIn (link : Link Peer) (outputs : List (Output Peer)) : List Message :=
  valuesAt link.conn (arrivedFrom link.source outputs)

@[simp] theorem Link.writtenIn_append (link : Link Peer) (first second : List (Output Peer)) :
    link.writtenIn (first ++ second) = link.writtenIn first ++ link.writtenIn second := by
  simp [writtenIn]

@[simp] theorem Link.arrivedIn_append (link : Link Peer) (first second : List (Output Peer)) :
    link.arrivedIn (first ++ second) = link.arrivedIn first ++ link.arrivedIn second := by
  simp [arrivedIn]

/-- How many bytes arrive on a connection with an event. -/
def Event.arriving (index : Nat) : Event Peer → Option Nat
  | .arrived place count _ _ _ => if place = index then some count else none
  | .host _ _ | .daemon _ _ | .connected _ _ _ _ | .lost _ => none

/-- What a step does to a connection that the outputs of the step agree with: its daemon
writes on it, or some of what is under way is read, or it ends. -/
inductive Link.Moves (outputs : List (Output Peer)) (arriving : Option Nat) (link : Link Peer) :
    Link Peer → Prop where
  | sent {messages : List Message} :
      link.writtenIn outputs = messages → link.arrivedIn outputs = [] →
      Moves outputs arriving link
        { link with inFlight := link.inFlight ++ Message.stream messages }
  | read {count : Nat} {reading : MessageCodec.Connection} {refused : Bool} :
      arriving = some count → link.reading.closed = false →
      MessageCodec.Receives link.reading (link.inFlight.take count) reading →
      reading.received = link.reading.received ++ link.arrivedIn outputs →
      link.writtenIn outputs = [] →
      Moves outputs arriving link
        (link.read count { reading with closed := reading.closed || refused })
  | ended :
      link.writtenIn outputs = [] → link.arrivedIn outputs = [] →
      Moves outputs arriving link link.finish

theorem Link.Moves.key {outputs : List (Output Peer)} {arriving : Option Nat}
    {link moved : Link Peer} (moves : link.Moves outputs arriving moved) :
    moved.key = link.key := by
  cases moves <;> rfl

theorem Link.Moves.received {outputs : List (Output Peer)} {arriving : Option Nat}
    {link moved : Link Peer} (moves : link.Moves outputs arriving moved) :
    moved.reading.received = link.reading.received ++ link.arrivedIn outputs := by
  cases moves with
  | sent _ nothing => rw [nothing, List.append_nil]
  | ended _ nothing =>
      rw [nothing, List.append_nil]
      rfl
  | read _ _ _ received _ => exact received

/-- The connections are told apart by who made them and by what their maker calls them,
and what was read at their far ends is what they have in their records. -/
structure Wired (outputs : List (Output Peer)) (state : State Peer) : Prop where
  made : ∀ key ∈ state.links.map Link.key,
    key.2 < (state.hosts key.1).daemon.network.nextId
  distinct : (state.links.map Link.key).Nodup
  linked : ∀ peer, ∀ entry ∈ arrivedFrom peer outputs,
    (peer, entry.1) ∈ state.links.map Link.key
  arrived : ∀ link ∈ state.links, link.reading.received = link.arrivedIn outputs

theorem Link.moves_send {outputs : List (Output Peer)} {peer : Peer} {effects : List Effect}
    {arriving : Option Nat} (link : Link Peer)
    (written : ∀ other, effectsBy other outputs = if peer = other then effects else [])
    (quiet : ∀ other, arrivedFrom other outputs = []) :
    link.Moves outputs arriving (link.send peer effects) := by
  have nothing : link.arrivedIn outputs = [] := by
    rw [arrivedIn, quiet, valuesAt_nil]
  unfold send
  split
  · rename_i own
    refine .sent ?_ nothing
    rw [writtenIn, writtenBy, written, if_pos own.symm]
  · rename_i other
    have unwritten : link.writtenIn outputs = [] := by
      rw [writtenIn, writtenBy, written, if_neg (Ne.symm other), List.filterMap_nil, valuesAt_nil]
    simpa using Moves.sent unwritten nothing

theorem Link.moves_still {outputs : List (Output Peer)} {arriving : Option Nat}
    {link : Link Peer} (unwritten : link.writtenIn outputs = [])
    (nothing : link.arrivedIn outputs = []) : link.Moves outputs arriving link := by
  simpa using Moves.sent unwritten nothing

/-- Where a connection comes from that is there after a step: it was there before, or it
has just been made. -/
def Link.Before (before : State Peer) (index : Nat) (link : Link Peer) : Prop :=
  before.links[index]? = some link ∨
    (index = before.links.length ∧ ∃ source target, link =
      ⟨source, (before.hosts source).daemon.network.nextId, target, [], .fresh⟩)

theorem getElem?_map_send {links : List (Link Peer)} {peer : Peer} {effects : List Effect}
    {index : Nat} {moved : Link Peer}
    (there : (links.map (Link.send peer effects))[index]? = some moved) :
    ∃ link, links[index]? = some link ∧ link.send peer effects = moved := by
  rw [List.getElem?_map] at there
  exact Option.map_eq_some_iff.mp there

theorem Wired.key_ne {earlier : List (Output Peer)} {state : State Peer}
    (wired : Wired earlier state) {index other : Nat} {link another : Link Peer}
    (linked : state.links[index]? = some link) (alsoLinked : state.links[other]? = some another)
    (different : index ≠ other) : link.key ≠ another.key := by
  intro same
  have first : (state.links.map Link.key)[index]? = some link.key := by
    rw [List.getElem?_map, linked]
    rfl
  have second : (state.links.map Link.key)[other]? = some link.key := by
    rw [List.getElem?_map, alsoLinked, same]
    rfl
  have inside : index < (state.links.map Link.key).length :=
    (List.getElem?_eq_some_iff.mp first).1
  exact different ((List.getElem?_inj inside wired.distinct).mp (first.trans second.symm))

theorem step_moves {earlier : List (Output Peer)} {before after : State Peer}
    {event : Event Peer} {outputs : List (Output Peer)} (wired : Wired earlier before)
    (stepped : step before event = some (after, outputs)) {index : Nat} {moved : Link Peer}
    (there : after.links[index]? = some moved) :
    ∃ link : Link Peer, link.Before before index ∧
      link.Moves outputs (event.arriving index) moved := by
  cases step_transition stepped with
  | host _ _ =>
      obtain ⟨link, linked, rfl⟩ := getElem?_map_send there
      exact ⟨link, .inl linked, link.moves_send (by simp) (by simp)⟩
  | daemon _ _ _ =>
      obtain ⟨link, linked, rfl⟩ := getElem?_map_send there
      exact ⟨link, .inl linked, link.moves_send (by simp) (by simp)⟩
  | @connected source target _ _ _ _ _ _ =>
      obtain ⟨link, linked, rfl⟩ := getElem?_map_send there
      refine ⟨link, ?_, link.moves_send (by simp) (by simp)⟩
      change (before.links ++ [_])[index]? = some link at linked
      rcases getElem?_append_cases linked with old | ⟨last, same⟩
      · exact .inl old
      · exact .inr ⟨last, source, target, same⟩
  | @arrived place count rounds written memory link reading handed host log preserved linked
      opened read handled =>
      have given :=
        Host.given_handleRemoteNodeMessages written memory handed 0 (before.hosts link.target)
      have silent :=
        Host.effectsOf_handleRemoteNodeMessages written memory handed 0 (before.hosts link.target)
      simp only [handled] at given silent
      have unwritten (other : Link Peer) : other.writtenIn
          (log.map (Output.logged link.target (some (link.source, link.conn)))) = [] := by
        simp [Link.writtenIn, writtenBy, silent]
      rcases getElem?_set_cases there with ⟨rfl, rfl⟩ | ⟨elsewhere, kept⟩
      · obtain ⟨received, more⟩ := MessageCodec.receives_of_receive opened read
        refine ⟨link, .inl linked, .read (if_pos rfl) opened received ?_ (unwritten link)⟩
        rw [more, Link.arrivedIn, arrivedFrom_map_arrived, if_pos rfl, valuesAt_map_pair,
          if_pos rfl, given]
      · have apart := wired.key_ne linked kept elsewhere
        refine ⟨moved, .inl kept, Link.moves_still (unwritten moved) ?_⟩
        rw [Link.arrivedIn, arrivedFrom_map_arrived]
        by_cases same : link.source = moved.source
        · have calls : link.conn ≠ moved.conn := fun equal => apart (Prod.ext same equal)
          rw [if_pos same, valuesAt_map_pair, if_neg calls]
        · rw [if_neg same, valuesAt_nil]
  | @lost place link linked opened =>
      rcases getElem?_set_cases there with ⟨rfl, rfl⟩ | ⟨_, kept⟩
      · exact ⟨link, .inl linked, .ended rfl rfl⟩
      · exact ⟨moved, .inl kept, Link.moves_still rfl rfl⟩

theorem map_key_send (links : List (Link Peer)) (peer : Peer) (effects : List Effect) :
    (links.map (Link.send peer effects)).map Link.key = links.map Link.key := by
  rw [List.map_map]
  refine List.map_congr_left fun link _ => ?_
  simp only [Function.comp_apply, Link.send]
  split <;> rfl

omit [DecidableEq Peer] in
theorem map_key_set {links : List (Link Peer)} {place : Nat} {link put : Link Peer}
    (linked : links[place]? = some link) (same : put.key = link.key) :
    (links.set place put).map Link.key = links.map Link.key := by
  obtain ⟨inside, rfl⟩ := List.getElem?_eq_some_iff.mp linked
  rw [List.map_set, same]
  exact List.ext_getElem? fun index => by
    rw [List.getElem?_set]
    split
    · rename_i own
      subst own
      simp [inside]
    · rfl

/-- Connections are never forgotten, and a new one gets the next identity of its daemon. -/
theorem step_keys {before after : State Peer} {event : Event Peer}
    {outputs : List (Output Peer)} (stepped : step before event = some (after, outputs)) :
    (after.links.map Link.key = before.links.map Link.key) ∨
      ∃ source, after.links.map Link.key = before.links.map Link.key ++
          [(source, (before.hosts source).daemon.network.nextId)] ∧
        (before.hosts source).daemon.network.nextId <
          (after.hosts source).daemon.network.nextId := by
  cases step_transition stepped with
  | host _ _ | daemon _ _ _ => exact .inl (map_key_send _ _ _)
  | @connected source target addr writes daemon effects _ handled =>
      refine .inr ⟨source, ?_, ?_⟩
      · rw [State.act, State.addLink, map_key_send, List.map_append]
        rfl
      · change _ < (Function.update before.hosts source _ source).daemon.network.nextId
        rw [Function.update_self]
        change _ < daemon.network.nextId
        rw [Daemon.step_network handled, Network.nextId_carryOutAll]
        exact Nat.lt_succ_self _
  | arrived linked _ _ _ => exact .inl (map_key_set linked rfl)
  | lost linked _ => exact .inl (map_key_set linked rfl)

theorem step_arrivals {before after : State Peer} {event : Event Peer}
    {outputs : List (Output Peer)} (stepped : step before event = some (after, outputs))
    {peer : Peer} {entry : ConnId × Message} (member : entry ∈ arrivedFrom peer outputs) :
    (peer, entry.1) ∈ before.links.map Link.key := by
  cases step_transition stepped with
  | host _ _ | daemon _ _ _ | connected _ _ => simp at member
  | @arrived place count rounds written memory link reading handed host log preserved linked
      _ _ _ =>
      rw [arrivedFrom_map_arrived] at member
      split at member
      · rename_i own
        subst own
        obtain ⟨_, _, rfl⟩ := List.mem_map.mp member
        exact List.mem_map.mpr ⟨link, List.mem_of_getElem? linked, rfl⟩
      · cases member
  | lost _ _ => simp [arrivedFrom] at member

theorem wired_initial (messageServerPort : Peer → Int32)
    (resolveServerAddress : Peer → NetAddress) (busLocation : Peer → List UInt8) :
    Wired [] (State.initial messageServerPort resolveServerAddress busLocation) where
  made := by simp [State.initial]
  distinct := List.nodup_nil
  linked := by simp [arrivedFrom]
  arrived := by simp [State.initial]

theorem Link.writtenIn_congr {link other : Link Peer} (same : other.key = link.key)
    (outputs : List (Output Peer)) : other.writtenIn outputs = link.writtenIn outputs := by
  obtain ⟨source, conn⟩ := Prod.mk.inj same
  rw [writtenIn, writtenIn, source, conn]

theorem Link.arrivedIn_congr {link other : Link Peer} (same : other.key = link.key)
    (outputs : List (Output Peer)) : other.arrivedIn outputs = link.arrivedIn outputs := by
  obtain ⟨source, conn⟩ := Prod.mk.inj same
  rw [arrivedIn, arrivedIn, source, conn]

theorem Wired.unused {earlier : List (Output Peer)} {state : State Peer}
    (wired : Wired earlier state) {link : Link Peer}
    (new : link.conn = (state.hosts link.source).daemon.network.nextId) :
    link.arrivedIn earlier = [] := by
  refine valuesAt_eq_nil fun entry member equal => ?_
  have known := wired.made _ (wired.linked _ entry member)
  dsimp only at known
  rw [equal, new] at known
  exact Nat.lt_irrefl _ known

theorem Wired.preserved {earlier : List (Output Peer)} {before after : State Peer}
    {event : Event Peer} {outputs : List (Output Peer)} (wired : Wired earlier before)
    (later : ∀ peer, (before.hosts peer).daemon.network.nextId ≤
      (after.hosts peer).daemon.network.nextId)
    (stepped : step before event = some (after, outputs)) :
    Wired (earlier ++ outputs) after := by
  have kept : before.links.map Link.key ⊆ after.links.map Link.key := by
    rcases step_keys stepped with same | ⟨_, added, _⟩
    · rw [same]
      exact List.Subset.refl _
    · rw [added]
      exact List.subset_append_left _ _
  refine ⟨?_, ?_, ?_, ?_⟩
  · intro key member
    rcases step_keys stepped with same | ⟨source, added, grown⟩
    · rw [same] at member
      exact Nat.lt_of_lt_of_le (wired.made key member) (later key.1)
    · rw [added] at member
      rcases List.mem_append.mp member with old | new
      · exact Nat.lt_of_lt_of_le (wired.made key old) (later key.1)
      · rw [List.mem_singleton.mp new]
        exact grown
  · rcases step_keys stepped with same | ⟨source, added, _⟩
    · rw [same]
      exact wired.distinct
    · rw [added]
      refine List.nodup_append.mpr ⟨wired.distinct, List.nodup_singleton _, ?_⟩
      intro key old other new equal
      have below := wired.made key old
      rw [equal, List.mem_singleton.mp new] at below
      exact Nat.lt_irrefl _ below
  · intro peer entry member
    rw [arrivedFrom_append] at member
    rcases List.mem_append.mp member with old | new
    · exact kept (wired.linked peer entry old)
    · exact kept (step_arrivals stepped new)
  · intro moved member
    obtain ⟨index, there⟩ := List.mem_iff_getElem?.mp member
    obtain ⟨link, origin, moves⟩ := step_moves wired stepped there
    rw [Link.arrivedIn_congr moves.key, Link.arrivedIn_append, moves.received]
    rcases origin with old | ⟨_, source, target, rfl⟩
    · rw [wired.arrived link (List.mem_of_getElem? old)]
    · rw [wired.unused rfl]
      rfl

section Runs

variable {messageServerPort : Peer → Int32} {resolveServerAddress : Peer → NetAddress}
  {busLocation : Peer → List UInt8} {guard : State Peer → Event Peer → Prop}
  {history : List (EventMachine.Taken (State Peer) (Event Peer) (Output Peer))}
  {state : State Peer}

theorem fresh_run (run : (machine Peer).Run guard
      (State.initial messageServerPort resolveServerAddress busLocation) history state)
    (peer : Peer) :
    (state.hosts peer).daemon.network.Fresh ∧
      ∀ entry ∈ writtenBy peer (EventMachine.outputs history),
        entry.1 < (state.hosts peer).daemon.network.nextId := by
  obtain ⟨handled, alone, did, _⟩ := (alone_run run peer).daemon
  obtain ⟨fresh, _, below⟩ := Daemon.fresh_run alone (Daemon.fresh_initial _ _)
  rw [did] at below
  exact ⟨fresh, below⟩

theorem step_nextId_le {before after : State Peer} {event : Event Peer}
    {outputs : List (Output Peer)} (stepped : step before event = some (after, outputs))
    {peer : Peer} (fresh : (before.hosts peer).daemon.network.Fresh) :
    (before.hosts peer).daemon.network.nextId ≤ (after.hosts peer).daemon.network.nextId := by
  obtain ⟨handled, alone, _⟩ := (step_alone stepped peer).daemon
  exact (Daemon.fresh_run alone fresh).2.1

theorem wired_run (run : (machine Peer).Run guard
    (State.initial messageServerPort resolveServerAddress busLocation) history state) :
    Wired (EventMachine.outputs history) state := by
  induction run with
  | nil => exact wired_initial _ _ _
  | snoc earlier _ stepped ih =>
      rw [EventMachine.outputs_snoc]
      exact ih.preserved (fun peer => step_nextId_le stepped (fresh_run earlier peer).1) stepped

end Runs

end Federation

end Cpmd
