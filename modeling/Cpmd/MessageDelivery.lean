import Cpmd.LocalRouting
import Cpmd.MessageTransport

/-! What the clients of a federation can rely on while the records they put on their
buses are those of whole messages: each connection delivers in order, without gaps or
repetitions, and only a message for a foreign node makes its reader close it. -/

set_option autoImplicit false

namespace Cpmd

open Library

namespace ClientInfo

/-- A record that is dropped where it is read, or passes the checks left out as well. -/
def FitsWhenRead (record : List UInt8) : Prop :=
  ∀ message ∈ checkRecord record, RecordFits record

theorem recordFits_iff {record : List UInt8} :
    RecordFits record ↔ (Message.overlay record).check = true ∧
      0 ≤ (Message.overlay record).len.toInt ∧
      (Message.kMinSize : Int) + (Message.overlay record).len.toInt < 2 ^ 31 ∧
      (Message.kMinSize : Int) + (Message.overlay record).len.toInt ≤ record.length := by
  constructor
  · intro fits
    exact ⟨fits.magic, fits.nonneg, Int.not_le.mp fits.within, fits.inside⟩
  · intro parts
    obtain ⟨magic, nonneg, within, inside⟩ := parts
    exact ⟨magic, nonneg, Int.not_le.mpr within, inside⟩

instance (record : List UInt8) : Decidable (RecordFits record) :=
  decidable_of_iff _ recordFits_iff.symm

instance (record : List UInt8) : Decidable (FitsWhenRead record) :=
  inferInstanceAs (Decidable (∀ message ∈ checkRecord record, RecordFits record))

end ClientInfo

theorem Message.WellFormed.setSourceAddress {message : Message} (formed : message.WellFormed)
    (source : Address) : (message.setSourceAddress source).WellFormed :=
  ⟨formed.magic, formed.nonneg, formed.small, formed.stored⟩

namespace Host

def Fitting (host : Host) : Prop :=
  ∀ key, ∀ record ∈ host.pending key, ClientInfo.FitsWhenRead record

def handShakeBufferSize (data : List UInt8) : UInt32 :=
  (HandShakeRequest.ofData (ProtocolMessage.overlay data).data).bufferSize

/-- What clients put on their buses, or have left there before they register. -/
def OffersFitting (host : Host) : Event → Prop
  | .submit _ record => ClientInfo.FitsWhenRead record
  | .handShake restoreOrCreate data _ =>
      ∀ records ∈ restoreOrCreate (host.getInputBusPath (handShakeName data))
        (handShakeBufferSize data), ∀ record ∈ records, ClientInfo.FitsWhenRead record
  | .daemon _ | .remoteMessage _ _ _ | .busMessage _ _ | .receive _ => True

instance (host : Host) : ∀ event, Decidable (host.OffersFitting event)
  | .submit _ record => inferInstanceAs (Decidable (ClientInfo.FitsWhenRead record))
  | .handShake restoreOrCreate data _ => inferInstanceAs (Decidable
      (∀ records ∈ restoreOrCreate (host.getInputBusPath (handShakeName data))
        (handShakeBufferSize data), ∀ record ∈ records, ClientInfo.FitsWhenRead record))
  | .daemon _ | .remoteMessage _ _ _ | .busMessage _ _ | .receive _ =>
      inferInstanceAs (Decidable True)

/-- A handshake leaves a client's bus as it is, or registers a client whose bus holds
what was restored for it. -/
theorem pending_handleInitCommand (host : Host)
    (restoreOrCreate : List UInt8 → UInt32 → Option (List (List UInt8))) (data : List UInt8)
    (out : HandShakeResponse) (key : UInt32) :
    (host.handleInitCommand restoreOrCreate data out).1.pending key = host.pending key ∨
      restoreOrCreate (host.getInputBusPath (handShakeName data)) (handShakeBufferSize data) =
        some ((host.handleInitCommand restoreOrCreate data out).1.pending key) := by
  unfold handleInitCommand
  split
  · exact .inl rfl
  · dsimp only
    split
    · rename_i input output restored _
      change (host.register (Address.create (handShakeName data)).clientAddr
        (host.newClient (handShakeName data) input output)).pending key = _ ∨ _ = some
        ((host.register (Address.create (handShakeName data)).clientAddr
        (host.newClient (handShakeName data) input output)).pending key)
      by_cases own : key = (Address.create (handShakeName data)).clientAddr
      · cases held : host.clients.find key with
        | none =>
            have there : (host.register (Address.create (handShakeName data)).clientAddr
                (host.newClient (handShakeName data) input output)).clients.find key =
                some (host.newClient (handShakeName data) input output) := by
              rw [find_register, if_pos own, ← own, held]
              rfl
            rw [pending_of_find there]
            exact .inr restored
        | some known =>
            refine .inl ?_
            rw [pending_of_find held, pending_of_find (find_register_of_find held _ _)]
      · refine .inl ?_
        rw [pending, find_register, if_neg own]
        rfl
    · exact .inl rfl

theorem offered_fits {host after : Host} {event : Event} {outputs : List Routed}
    (offers : host.OffersFitting event) (stepped : step host event = some (after, outputs))
    (key : UInt32) :
    ∀ record ∈ offered key ⟨host, event, outputs, after⟩, ClientInfo.FitsWhenRead record := by
  intro record member
  cases event with
  | submit other given =>
      simp only [offered] at member
      split at member
      · rw [List.mem_singleton.mp member]
        exact offers
      · cases member
  | handShake restoreOrCreate data out =>
      simp only [offered] at member
      split at member
      · rename_i absent
        cases stepped
        rcases host.pending_handleInitCommand restoreOrCreate data out key with same | restored
        · rw [same, pending_of_absent absent] at member
          cases member
        · exact offers _ restored record member
      · cases member
  | daemon _ | remoteMessage _ _ _ | busMessage _ _ | receive _ => cases member

theorem fitting_step {host after : Host} {event : Event} {outputs : List Routed}
    (keyed : Keyed host) (fitting : host.Fitting) (offers : host.OffersFitting event)
    (stepped : step host event = some (after, outputs)) :
    after.Fitting ∧ ∀ entry ∈ outputs, entry.source ≠ none → entry.handled.WellFormed := by
  have taken (key : UInt32) : ∃ taken, (∀ record ∈ taken ++ after.pending key,
        ClientInfo.FitsWhenRead record) ∧
      readFrom key outputs = taken.filterMap ClientInfo.checkRecord := by
    obtain ⟨taken, split, messages⟩ := step_reads keyed stepped key
    refine ⟨taken, fun record member => ?_, messages⟩
    rw [← split] at member
    rcases List.mem_append.mp member with old | new
    · exact fitting key record old
    · exact offered_fits offers stepped key record new
  refine ⟨fun key record member => ?_, fun entry member brought => ?_⟩
  · obtain ⟨_, fits, _⟩ := taken key
    exact fits record (List.mem_append_right _ member)
  · obtain ⟨key, source⟩ := Option.ne_none_iff_exists'.mp brought
    obtain ⟨records, fits, messages⟩ := taken key
    have read : entry.given ∈ readFrom key outputs :=
      List.mem_map.mpr ⟨entry, List.mem_filter.mpr ⟨member, by simp [source]⟩, rfl⟩
    rw [messages] at read
    obtain ⟨record, there, accepted⟩ := List.mem_filterMap.mp read
    have whole := fits record (List.mem_append_left _ there) _ accepted
    rw [(step_sound keyed stepped entry member).stamped key source]
    exact (whole.wellFormed accepted).setSourceAddress _

theorem pending_handleRemoteNodeMessages (written : Nat → Bool) (memory : Nat → List UInt8)
    (handed : List Message) (count : Nat) (host : Host) (key : UInt32) :
    (host.handleRemoteNodeMessages written memory count handed).1.pending key =
      host.pending key := by
  induction handed generalizing count host with
  | nil => rfl
  | cons m rest ih =>
      refine (ih (count + 1) (host.handleRemoteMessage (written count) (memory count) m).1).trans ?_
      unfold handleRemoteMessage
      split
      · rfl
      · exact (host.deliver_frame _ _ _).2.2.2 key

theorem source_handleRemoteNodeMessages (written : Nat → Bool) (memory : Nat → List UInt8)
    (handed : List Message) (count : Nat) (host : Host) :
    ∀ entry ∈ (host.handleRemoteNodeMessages written memory count handed).2.1,
      entry.source = none := by
  induction handed generalizing count host with
  | nil => simp [handleRemoteNodeMessages]
  | cons m rest ih =>
      intro entry member
      rcases List.mem_cons.mp member with rfl | later
      · rfl
      · exact ih (count + 1) _ entry later

theorem preserved_handleRemoteNodeMessages (written : Nat → Bool) (memory : Nat → List UInt8)
    (handed : List Message) (count : Nat) (host : Host) :
    (host.handleRemoteNodeMessages written memory count handed).2.2 =
      handed.all (·.remoteAddress.nodeAddr == host.daemon.server.selfAddress) := by
  induction handed generalizing count host with
  | nil => rfl
  | cons m rest ih =>
      have same :
          (host.handleRemoteMessage (written count) (memory count) m).1.daemon = host.daemon :=
        host.daemon_handleRemoteMessage (written count) (memory count) m
      have first : (host.handleRemoteMessage (written count) (memory count) m).2.2 =
          (m.remoteAddress.nodeAddr == host.daemon.server.selfAddress) := by
        unfold handleRemoteMessage
        by_cases own : m.remoteAddress.nodeAddr = host.daemon.server.selfAddress <;> simp [own]
      rw [List.all_cons, ← first, ← same, ← ih]
      rfl

end Host

namespace Federation

variable {Peer : Type} [DecidableEq Peer]

/-- Clients put records of whole messages on their buses, and a read of a connection
finds fewer unread bytes than an `int` counts. -/
def Fits (state : State Peer) : Event Peer → Prop
  | .host peer event => (state.hosts peer).OffersFitting event
  | .arrived index count _ _ _ => ∀ link ∈ state.links[index]?,
      (link.reading.unread ++ link.inFlight.take count).length < 2 ^ 31
  | .daemon _ _ | .connected _ _ _ _ | .lost _ => True

instance (state : State Peer) : ∀ event, Decidable (Fits state event)
  | .host peer event => inferInstanceAs (Decidable ((state.hosts peer).OffersFitting event))
  | .arrived index count _ _ _ => inferInstanceAs (Decidable (∀ link ∈ state.links[index]?,
      (link.reading.unread ++ link.inFlight.take count).length < 2 ^ 31))
  | .daemon _ _ | .connected _ _ _ _ | .lost _ => inferInstanceAs (Decidable True)

/-- What was handed over of the messages written on a connection; while it is open, the
rest of them is the rest of what is under way. -/
structure Link.Carried (link : Link Peer) (messages : List Message) : Prop where
  ordered : link.reading.received.map Message.trim <+: messages.map Message.trim
  fed : link.reading.closed = false →
    ∃ chunks, MessageCodec.Feeds .fresh chunks link.reading ∧
      MessageCodec.ReadsBelow (2 ^ 31) chunks ∧
      chunks.flatten ++ link.inFlight = Message.stream messages

omit [DecidableEq Peer] in
theorem Link.carried_fresh (source : Peer) (conn : ConnId) (target : Peer) :
    Link.Carried ⟨source, conn, target, [], .fresh⟩ [] where
  ordered := List.prefix_refl _
  fed := fun _ => ⟨[], .nil, MessageCodec.readsBelow_of_length_lt (by decide), rfl⟩

/-- Whatever happens to a connection keeps it so, if only well-formed messages are
written on it. -/
theorem Link.Carried.moves {outputs : List (Output Peer)} {arriving : Option Nat}
    {link moved : Link Peer} {messages : List Message} (carried : link.Carried messages)
    (moves : link.Moves outputs arriving moved)
    (formed : ∀ message ∈ messages ++ link.writtenIn outputs, message.WellFormed)
    (below : ∀ count ∈ arriving,
      (link.reading.unread ++ link.inFlight.take count).length < 2 ^ 31) :
    moved.Carried (messages ++ link.writtenIn outputs) := by
  cases moves with
  | @sent more written _ =>
      refine ⟨?_, fun opened => ?_⟩
      · rw [List.map_append]
        exact carried.ordered.trans (List.prefix_append _ _)
      · obtain ⟨chunks, fed, small, split⟩ := carried.fed opened
        refine ⟨chunks, fed, small, ?_⟩
        rw [written, Message.stream_append, ← split, List.append_assoc]
  | @read count reading refused arrives opened received _ unwritten =>
      rw [unwritten, List.append_nil] at formed ⊢
      obtain ⟨chunks, fed, small, split⟩ := carried.fed opened
      have next := fed.snoc received
      have bounded := small.snoc fed (below count arrives)
      have rest : (chunks ++ [link.inFlight.take count]).flatten ++ link.inFlight.drop count =
          Message.stream messages := by
        rw [List.flatten_append, List.flatten_singleton, List.append_assoc,
          List.take_append_drop, split]
      have ordered := MessageCodec.received_prefix _ formed rest bounded next
      refine ⟨ordered, fun still => ?_⟩
      have quiet : reading.closed = false := (Bool.or_eq_false_iff.mp still).1
      have same : { reading with closed := reading.closed || refused } = reading := by
        have closed : (reading.closed || refused) = reading.closed := still.trans quiet.symm
        rw [closed]
      refine ⟨_, ?_, bounded, rest⟩
      rw [Link.read, same]
      exact next
  | ended unwritten _ =>
      rw [unwritten, List.append_nil]
      exact ⟨carried.ordered, fun opened => by cases opened⟩

theorem written_logged {messageServerPort : Peer → Int32}
    {resolveServerAddress : Peer → NetAddress} {busLocation : Peer → List UInt8}
    {guard : State Peer → Event Peer → Prop}
    {history : List (EventMachine.Taken (State Peer) (Event Peer) (Output Peer))}
    {state : State Peer} (run : (machine Peer).Run guard
      (State.initial messageServerPort resolveServerAddress busLocation) history state)
    {peer : Peer} {entry : ConnId × Message}
    (member : entry ∈ writtenBy peer (EventMachine.outputs history)) :
    ∃ logged ∈ logOf peer (EventMachine.outputs history),
      logged.submittedTo entry.2.remoteAddress.nodeAddr = some entry.2 := by
  obtain ⟨handled, alone, did, brought⟩ := (alone_run run peer).daemon
  obtain ⟨conn, m⟩ := entry
  obtain ⟨effect, there, wrote⟩ := List.mem_filterMap.mp member
  obtain ⟨node, rfl⟩ := Effect.written_eq_some.mp wrote
  rw [← did] at there
  have taken := (Daemon.accounts_of_run alone node).subset
    (List.mem_append_left _ (mem_writtenTo.mpr ⟨conn, there⟩))
  rw [brought] at taken
  obtain ⟨logged, inLog, submitted⟩ := List.mem_filterMap.mp taken
  have own := (Host.Routed.submittedTo_eq_some.mp submitted).2.1
  have same := (Host.Routed.submittedTo_eq_some.mp submitted).2.2.2.2
  refine ⟨logged, inLog, ?_⟩
  rw [← same, own, same]
  exact submitted

structure Delivering (outputs : List (Output Peer)) (state : State Peer) : Prop where
  fitting : ∀ peer, (state.hosts peer).Fitting
  formed : ∀ peer, ∀ entry ∈ logOf peer outputs, entry.source ≠ none → entry.handled.WellFormed
  carried : ∀ link ∈ state.links, link.Carried (link.writtenIn outputs)

theorem delivering_initial (messageServerPort : Peer → Int32)
    (resolveServerAddress : Peer → NetAddress) (busLocation : Peer → List UInt8) :
    Delivering [] (State.initial messageServerPort resolveServerAddress busLocation) where
  fitting := by simp [Host.Fitting, State.initial, Host.initial, Host.pending]
  formed := by simp [logOf]
  carried := by simp [State.initial]

theorem fitting_step {before after : State Peer} {event : Event Peer}
    {outputs : List (Output Peer)} (keyed : ∀ peer, (before.hosts peer).Keyed)
    (fitting : ∀ peer, (before.hosts peer).Fitting) (fits : Fits before event)
    (stepped : step before event = some (after, outputs)) (peer : Peer) :
    (after.hosts peer).Fitting ∧
      ∀ entry ∈ logOf peer outputs, entry.source ≠ none → entry.handled.WellFormed := by
  have daemonOnly {actor : Peer} {daemon : Daemon.State} :
      (Function.update before.hosts actor { before.hosts actor with daemon := daemon }
        peer).Fitting := by
    by_cases own : actor = peer
    · subst own
      rw [Function.update_self]
      exact fitting actor
    · rw [Function.update_of_ne (Ne.symm own)]
      exact fitting peer
  cases step_transition stepped with
  | @host actor event moved log own handled =>
      obtain ⟨kept, formed⟩ := Host.fitting_step (keyed actor) (fitting actor) fits handled
      change (Function.update before.hosts actor moved peer).Fitting ∧ _
      rw [logOf_map_logged]
      by_cases acts : actor = peer
      · subst acts
        rw [Function.update_self, if_pos rfl]
        exact ⟨kept, formed⟩
      · rw [Function.update_of_ne (Ne.symm acts), if_neg acts]
        exact ⟨fitting peer, by simp⟩
  | daemon _ _ _ | connected _ _ => exact ⟨daemonOnly, by simp⟩
  | @arrived _ _ _ written memory link _ handed host log _ _ _ _ handled =>
      have unread := Host.pending_handleRemoteNodeMessages written memory handed 0
        (before.hosts link.target)
      have foreign := Host.source_handleRemoteNodeMessages written memory handed 0
        (before.hosts link.target)
      simp only [handled] at unread foreign
      change (Function.update before.hosts link.target host peer).Fitting ∧ _
      rw [logOf_map_logged]
      by_cases own : link.target = peer
      · subst own
        rw [Function.update_self, if_pos rfl]
        refine ⟨fun key record member => ?_, fun entry member brought => ?_⟩
        · rw [unread] at member
          exact fitting link.target key record member
        · exact absurd (foreign entry member) brought
      · rw [Function.update_of_ne (Ne.symm own), if_neg own]
        exact ⟨fitting peer, by simp⟩
  | lost _ _ => exact ⟨fitting peer, by simp [logOf]⟩

theorem formed_written {outputs : List (Output Peer)} {link : Link Peer}
    (formed : ∀ entry ∈ logOf link.source outputs, entry.source ≠ none →
      entry.handled.WellFormed)
    (logged : ∀ entry ∈ writtenBy link.source outputs, ∃ logged ∈ logOf link.source outputs,
      logged.submittedTo entry.2.remoteAddress.nodeAddr = some entry.2) :
    ∀ message ∈ link.writtenIn outputs, message.WellFormed := by
  intro message sent
  obtain ⟨entry, inLog, submitted⟩ := logged _ (mem_valuesAt.mp sent)
  obtain ⟨brought, _, _, _, same⟩ := Host.Routed.submittedTo_eq_some.mp submitted
  have sound := formed entry inLog brought
  rw [same] at sound
  exact sound

theorem Delivering.preserved {earlier : List (Output Peer)} {before after : State Peer}
    {event : Event Peer} {outputs : List (Output Peer)} (delivering : Delivering earlier before)
    (wired : Wired earlier before) (keyed : ∀ peer, (before.hosts peer).Keyed)
    (written : ∀ peer, ∀ entry ∈ writtenBy peer earlier,
      entry.1 < (before.hosts peer).daemon.network.nextId)
    (logged : ∀ peer, ∀ entry ∈ writtenBy peer (earlier ++ outputs),
      ∃ logged ∈ logOf peer (earlier ++ outputs),
        logged.submittedTo entry.2.remoteAddress.nodeAddr = some entry.2)
    (fits : Fits before event) (stepped : step before event = some (after, outputs)) :
    Delivering (earlier ++ outputs) after := by
  have hosts := fitting_step keyed delivering.fitting fits stepped
  have formed (peer : Peer) : ∀ entry ∈ logOf peer (earlier ++ outputs), entry.source ≠ none →
      entry.handled.WellFormed := by
    intro entry member
    rw [logOf_append] at member
    rcases List.mem_append.mp member with old | new
    · exact delivering.formed peer entry old
    · exact (hosts peer).2 entry new
  refine ⟨fun peer => (hosts peer).1, formed, fun moved member => ?_⟩
  obtain ⟨index, there⟩ := List.mem_iff_getElem?.mp member
  obtain ⟨link, origin, moves⟩ := step_moves wired stepped there
  have whole := formed_written (formed link.source) (logged link.source)
  rw [Link.writtenIn_append] at whole
  have carried : link.Carried (link.writtenIn earlier) := by
    rcases origin with old | ⟨_, source, target, rfl⟩
    · exact delivering.carried link (List.mem_of_getElem? old)
    · have nothing : Link.writtenIn ⟨source, (before.hosts source).daemon.network.nextId,
          target, [], .fresh⟩ earlier = [] :=
        valuesAt_eq_nil fun entry sent equal =>
          Nat.lt_irrefl _ (equal ▸ written source entry sent)
      rw [nothing]
      exact Link.carried_fresh _ _ _
  rw [Link.writtenIn_congr moves.key, Link.writtenIn_append]
  refine carried.moves moves whole fun count arrives => ?_
  cases event with
  | arrived place many rounds how memory =>
      obtain ⟨rfl, same⟩ := Option.ite_none_right_eq_some.mp (Option.mem_def.mp arrives)
      cases same
      rcases origin with old | ⟨_, source, target, rfl⟩
      · exact fits link old
      · simp [MessageCodec.Connection.fresh]
  | host _ _ | daemon _ _ | connected _ _ _ _ | lost _ => cases arrives

omit [DecidableEq Peer] in
/-- What is read of a connection by itself: as much as has arrived, without closing it,
and all of it once nothing is under way. -/
theorem Link.Carried.reads {link : Link Peer} {messages : List Message}
    (carried : link.Carried messages) (formed : ∀ message ∈ messages, message.WellFormed)
    (opened : link.reading.closed = false) {count : Nat}
    (below : (link.reading.unread ++ link.inFlight.take count).length < 2 ^ 31) :
    ∃ reading, MessageCodec.Receives link.reading (link.inFlight.take count) reading ∧
      reading.closed = false ∧ (link.inFlight.drop count = [] →
        reading.received.map Message.trim = messages.map Message.trim) := by
  obtain ⟨chunks, fed, small, split⟩ := carried.fed opened
  have bounded := small.snoc fed below
  have rest : (chunks ++ [link.inFlight.take count]).flatten ++ link.inFlight.drop count =
      Message.stream messages := by
    rw [List.flatten_append, List.flatten_singleton, List.append_assoc, List.take_append_drop,
      split]
  obtain ⟨reading, next, still, _⟩ :=
    MessageCodec.Feeds.of_prefix (link.inFlight.drop count) formed rest bounded
  obtain ⟨middle, earlier, received⟩ := next.of_snoc
  rw [earlier.unique fed] at received
  refine ⟨reading, received, still, fun nothing => ?_⟩
  rw [nothing, List.append_nil] at rest
  exact (MessageCodec.received_of_arrived formed rest bounded next).1

/-- What the connections of a federation do in a run: what is read from one is, in
order, the first of what was written on it; while it is open all of it can be; and a
read closes it only for a message to another node than the reader's. -/
structure Transport (history : List (EventMachine.Taken (State Peer) (Event Peer) (Output Peer)))
    (state : State Peer) : Prop where
  ordered : ∀ link ∈ state.links,
    (link.arrivedIn (EventMachine.outputs history)).map Message.trim <+:
      (link.writtenIn (EventMachine.outputs history)).map Message.trim
  complete : ∀ index link, state.links[index]? = some link → link.reading.closed = false →
    (link.reading.unread ++ link.inFlight).length < 2 ^ 31 →
    ∃ rounds, ∀ written memory, ∃ after outputs,
      step state (.arrived index link.inFlight.length rounds written memory) =
        some (after, outputs) ∧
      (link.arrivedIn (EventMachine.outputs history ++ outputs)).map Message.trim =
        (link.writtenIn (EventMachine.outputs history)).map Message.trim
  closing : ∀ taken ∈ history, ∀ index count rounds written memory,
    taken.event = .arrived index count rounds written memory →
    ∀ link ∈ taken.after.links[index]?, link.reading.closed = true →
    ∃ entry, Output.logged link.target (some link.key) entry ∈ taken.outputs ∧
      entry.given.remoteAddress.nodeAddr ≠
        (taken.before.hosts link.target).daemon.server.selfAddress

section Runs

variable {messageServerPort : Peer → Int32} {resolveServerAddress : Peer → NetAddress}
  {busLocation : Peer → List UInt8}
  {history : List (EventMachine.Taken (State Peer) (Event Peer) (Output Peer))}
  {state : State Peer}

theorem keyed_run {guard : State Peer → Event Peer → Prop} (run : (machine Peer).Run guard
      (State.initial messageServerPort resolveServerAddress busLocation) history state)
    (peer : Peer) : (state.hosts peer).Keyed := by
  obtain ⟨_, alone, _⟩ := (alone_run run peer).host
  exact Host.keyed_run alone

theorem delivering_run (run : (machine Peer).Run Fits
    (State.initial messageServerPort resolveServerAddress busLocation) history state) :
    Delivering (EventMachine.outputs history) state := by
  induction run with
  | nil => exact delivering_initial _ _ _
  | @snoc earlier before event outputs after run fits stepped ih =>
      have logged (peer : Peer) := fun entry =>
        @written_logged _ _ _ _ _ _ _ _ (.snoc run fits stepped) peer entry
      rw [EventMachine.outputs_snoc] at logged ⊢
      exact ih.preserved (wired_run run) (keyed_run run) (fun peer => (fresh_run run peer).2)
        logged fits stepped

theorem formed_run (run : (machine Peer).Run Fits
      (State.initial messageServerPort resolveServerAddress busLocation) history state)
    (link : Link Peer) :
    ∀ message ∈ link.writtenIn (EventMachine.outputs history), message.WellFormed :=
  formed_written ((delivering_run run).formed link.source) fun _ => written_logged run

theorem ordered_run (run : (machine Peer).Run Fits
      (State.initial messageServerPort resolveServerAddress busLocation) history state)
    {link : Link Peer} (member : link ∈ state.links) :
    (link.arrivedIn (EventMachine.outputs history)).map Message.trim <+:
      (link.writtenIn (EventMachine.outputs history)).map Message.trim := by
  rw [← (wired_run run).arrived link member]
  exact ((delivering_run run).carried link member).ordered

theorem step_closing {earlier : List (Output Peer)} {before after : State Peer}
    {index count rounds : Nat} {written : Nat → Bool} {memory : Nat → List UInt8}
    {outputs : List (Output Peer)} (delivering : Delivering earlier before)
    (formed : ∀ link : Link Peer, ∀ message ∈ link.writtenIn earlier, message.WellFormed)
    (fits : Fits before (.arrived index count rounds written memory))
    (stepped : step before (.arrived index count rounds written memory) = some (after, outputs))
    {moved : Link Peer} (there : after.links[index]? = some moved)
    (closed : moved.reading.closed = true) :
    ∃ entry, Output.logged moved.target (some moved.key) entry ∈ outputs ∧
      entry.given.remoteAddress.nodeAddr ≠
        (before.hosts moved.target).daemon.server.selfAddress := by
  cases step_transition stepped with
  | @arrived _ _ _ _ _ link reading handed host log preserved linked opened read handled =>
      rcases getElem?_set_cases there with ⟨_, rfl⟩ | ⟨elsewhere, _⟩
      · obtain ⟨other, received, still, _⟩ :=
          (delivering.carried link (List.mem_of_getElem? linked)).reads (formed link) opened
            (fits link linked)
        rw [received.unique (MessageCodec.receives_of_receive opened read).1] at still
        have given := Host.given_handleRemoteNodeMessages written memory handed 0
          (before.hosts link.target)
        have kept := Host.preserved_handleRemoteNodeMessages written memory handed 0
          (before.hosts link.target)
        simp only [handled] at given kept
        have refused : preserved = false := by
          simpa [Link.read, still] using closed
        rw [refused] at kept
        obtain ⟨m, member, foreign⟩ := List.all_eq_false.mp kept.symm
        rw [← given] at member
        obtain ⟨entry, inLog, rfl⟩ := List.mem_map.mp member
        have elsewhere : entry.given.remoteAddress.nodeAddr ≠
            (before.hosts link.target).daemon.server.selfAddress := by simpa using foreign
        exact ⟨entry, List.mem_map.mpr ⟨entry, inLog, rfl⟩, elsewhere⟩
      · exact absurd rfl elsewhere

/-- Between any number of hosts, under any interleaving, while clients put the records
of whole messages on their buses. -/
theorem transport_run (run : (machine Peer).Run Fits
    (State.initial messageServerPort resolveServerAddress busLocation) history state) :
    Transport history state where
  ordered := fun _ => ordered_run run
  complete := by
    intro index link linked opened below
    have member := List.mem_of_getElem? linked
    rw [← List.take_length (l := link.inFlight)] at below
    obtain ⟨reading, received, _, all⟩ :=
      ((delivering_run run).carried link member).reads (formed_run run link) opened below
    obtain ⟨rounds, handed, read⟩ := MessageCodec.receive_of_receives received
    have more := (MessageCodec.receives_of_receive opened read).2
    refine ⟨rounds, fun written memory => ?_⟩
    have given := Host.given_handleRemoteNodeMessages written memory handed 0
      (state.hosts link.target)
    refine ⟨_, _, by simp only [step, linked, opened, read]; rfl, ?_⟩
    rw [Link.arrivedIn_append, ← (wired_run run).arrived link member, Link.arrivedIn,
      arrivedFrom_map_arrived, if_pos rfl, valuesAt_map_pair, if_pos rfl, given, ← more]
    exact all (List.drop_length (l := link.inFlight))
  closing := by
    intro taken member index count rounds written memory arrives moved there closed
    obtain ⟨earlier, before, fits, stepped⟩ := run.of_mem member
    rw [arrives] at fits stepped
    exact step_closing (delivering_run before) (formed_run before) fits stepped there closed

end Runs

theorem transport_run_pair :
    ∃ history, ∃ state : State Bool, (arrivedFrom false (EventMachine.outputs history)).length = 1 ∧
      Transport history state := by
  obtain ⟨history, state, run, arrived⟩ := EventMachine.exists_run_of_any (machine Bool) Fits
    someStart someEvents
    (fun reached => (arrivedFrom false (EventMachine.outputs reached.1)).length == 1)
    (by decide +kernel)
  exact ⟨history, state, eq_of_beq arrived, transport_run run⟩

end Federation

end Cpmd
