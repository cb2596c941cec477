import Cpmd.MessageDelivery

/-! From client to client across nodes: a message that is handed to a client was put on
its bus by the client in whose name it comes, and no message arrives more often than it
was sent. -/

set_option autoImplicit false

namespace Cpmd

open Library

def Effect.writtenFor : Effect → Option (UInt32 × Message)
  | .wrote node _ m => some (node, m)
  | .connectTo _ | .registered _ _ | .requested _ _ | .close _ | .connectLater _ => none

theorem valuesAt_writtenFor (node : UInt32) (effects : List Effect) :
    valuesAt node (effects.filterMap Effect.writtenFor) = writtenTo node effects := by
  rw [valuesAt_filterMap, writtenTo]
  congr 1
  funext effect
  cases effect <;> rfl

theorem map_snd_written (effects : List Effect) :
    (effects.filterMap Effect.written).map Prod.snd =
      (effects.filterMap Effect.writtenFor).map Prod.snd := by
  rw [List.map_filterMap, List.map_filterMap]
  congr 1
  funext effect
  cases effect <;> rfl

namespace Host

/-- A message that was read from a client's bus and is for another node, with that
node's address. -/
def Routed.submitted (entry : Routed) : Option (UInt32 × Message) :=
  (entry.submittedTo entry.handled.remoteAddress.nodeAddr).map fun m =>
    (m.remoteAddress.nodeAddr, m)

def submitted (log : List Routed) : List (UInt32 × Message) := log.filterMap Routed.submitted

theorem valuesAt_submitted (node : UInt32) (log : List Routed) :
    valuesAt node (submitted log) = submittedTo node log := by
  rw [submitted, valuesAt_filterMap, submittedTo]
  congr 1
  funext entry
  by_cases own : entry.handled.remoteAddress.nodeAddr = node
  · subst own
    cases found : entry.submittedTo entry.handled.remoteAddress.nodeAddr with
    | none => simp [Routed.submitted, found]
    | some m =>
        have same := (Routed.submittedTo_eq_some.mp found).2.2.2.2
        simp [Routed.submitted, found, ← same]
  · have nothing : entry.submittedTo node = none := by
      simp [Routed.submittedTo, own]
    rw [nothing]
    cases found : entry.submittedTo entry.handled.remoteAddress.nodeAddr with
    | none => simp [Routed.submitted, found]
    | some m =>
        have same := (Routed.submittedTo_eq_some.mp found).2.2.2.2
        simp [Routed.submitted, found, ← same, own]

theorem registered_of_source {host after : Host} {event : Event} {outputs : List Routed}
    (keyed : Keyed host) (stepped : step host event = some (after, outputs)) {entry : Routed}
    (member : entry ∈ outputs) {key : UInt32} (source : entry.source = some key) :
    (host.identities key).isSome = true := by
  have read : entry.given ∈ readFrom key outputs :=
    List.mem_map.mpr ⟨entry, List.mem_filter.mpr ⟨member, by simp [source]⟩, rfl⟩
  cases step_transition stepped with
  | refused _ | registered _ | daemon _ _ | submitted _ | received _ => cases member
  | fromPeer =>
      rw [List.mem_singleton.mp member] at source
      cases source
  | drained handled =>
      obtain ⟨taken, split, messages⟩ := (accounts_of_drained keyed handled).read key
      rw [messages] at read
      obtain ⟨record, there, _⟩ := List.mem_filterMap.mp read
      cases known : host.identities key with
      | some _ => rfl
      | none =>
          rw [pending_of_absent known] at split
          rw [(List.append_eq_nil_iff.mp split.symm).1] at there
          cases there

/-- A message from another node is written to at most one client, and only to the one
it is addressed to on this node. -/
theorem addressed_handleRemoteNodeMessages (written : Nat → Bool) (memory : Nat → List UInt8)
    (handed : List Message)
    (count : Nat) (host : Host) :
    ∀ entry ∈ (host.handleRemoteNodeMessages written memory count handed).2.1,
      entry.writes.length ≤ 1 ∧ ∀ write ∈ entry.writes,
        entry.given.remoteAddress = ⟨host.daemon.server.selfAddress, write.1⟩ ∧
          (host.identities write.1).isSome = true := by
  induction handed generalizing count host with
  | nil => simp [handleRemoteNodeMessages]
  | cons m rest ih =>
      have accounts := host.handleRemoteMessage_accounts m (written count) (memory count)
      intro entry member
      rcases List.mem_cons.mp member with rfl | later
      · have sound := accounts.sound _ (List.mem_singleton_self _)
        refine ⟨sound.once.1, fun write wrote => ?_⟩
        obtain ⟨client, registered, _⟩ := sound.addressed write wrote
        refine ⟨?_, registered⟩
        have node : m.remoteAddress.nodeAddr = host.daemon.server.selfAddress := by
          by_contra foreign
          simp [handleRemoteMessage, foreign] at wrote
        rw [← node, client]
      · obtain ⟨once, targets⟩ := ih (count + 1) _ entry later
        refine ⟨once, fun write wrote => ?_⟩
        have target := targets write wrote
        rwa [accounts.self, accounts.identities] at target

end Host

namespace Federation

variable {Peer : Type} [DecidableEq Peer]

theorem step_busRead {before after : State Peer} {event : Event Peer}
    {outputs : List (Output Peer)} (stepped : step before event = some (after, outputs))
    {peer : Peer} {entry : Host.Routed} (member : entry ∈ logOf peer outputs)
    (brought : entry.source ≠ none) :
    Output.logged peer none entry ∈ outputs ∧
      ∃ event next log, Host.step (before.hosts peer) event = some (next, log) ∧
        entry ∈ log := by
  cases step_transition stepped with
  | @host actor event next log _ handled =>
      rw [logOf_map_logged] at member
      split at member
      · rename_i own
        subst own
        exact ⟨List.mem_map.mpr ⟨entry, member, rfl⟩, event, next, log, handled, member⟩
      · cases member
  | daemon _ _ _ | connected _ _ => simp at member
  | @arrived _ _ _ written memory link _ handed host log _ _ _ _ handled =>
      have foreign := Host.source_handleRemoteNodeMessages written memory handed 0
        (before.hosts link.target)
      simp only [handled] at foreign
      rw [logOf_map_logged] at member
      split at member
      · exact absurd (foreign entry member) brought
      · cases member
  | lost _ _ => simp [logOf] at member

theorem logOf_flatMap (peer : Peer)
    (history : List (EventMachine.Taken (State Peer) (Event Peer) (Output Peer))) :
    logOf peer (EventMachine.outputs history) =
      history.flatMap fun taken => logOf peer taken.outputs := by
  induction history using List.reverseRecOn with
  | nil => rfl
  | append_singleton history taken ih =>
      rw [EventMachine.outputs_append, logOf_append, ih, List.flatMap_append]
      simp [EventMachine.outputs]

/-- At some step, a host had read this from the bus of the client registered under the key,
and had given it that key and its own address at the time. -/
def SentBy (earlier : List (EventMachine.Taken (State Peer) (Event Peer) (Output Peer)))
    (source : Peer) (key : UInt32) (m : Message) : Prop :=
  ∃ taken ∈ earlier, ∃ read, Output.logged source none read ∈ taken.outputs ∧
    read.source = some key ∧ ((taken.before.hosts source).identities key).isSome = true ∧
    read.handled = read.given.setSourceAddress
      ⟨(taken.before.hosts source).daemon.server.selfAddress, key⟩ ∧
    MessageCodec.view m = MessageCodec.view read.handled

/-- What is to hold when a message is read from a connection. It is written to no client but
the one it is addressed to, and a client of its source host had sent it. If the nodes have
different addresses, none of them 0, and the source had its own or none yet, then a message
in the name of a node's client comes from that client: where the source had none yet, it
comes in the name of no node. -/
structure Authentic (earlier : List (EventMachine.Taken (State Peer) (Event Peer) (Output Peer)))
    (before : State Peer) (source target : Peer) (entry : Host.Routed) : Prop where
  addressed : entry.writes.length ≤ 1 ∧ ∀ write ∈ entry.writes,
    entry.given.remoteAddress = ⟨(before.hosts target).daemon.server.selfAddress, write.1⟩ ∧
      ((before.hosts target).identities write.1).isSome = true
  sent : ∃ key, SentBy earlier source key entry.given
  named : ∀ addressOf : Peer → UInt32, Function.Injective addressOf →
    (∀ peer, addressOf peer ≠ 0) →
    (∀ taken ∈ earlier, (taken.before.hosts source).daemon.server.selfAddress = 0 ∨
      (taken.before.hosts source).daemon.server.selfAddress = addressOf source) →
    ∀ peer key, entry.given.sourceAddress = ⟨addressOf peer, key⟩ →
      peer = source ∧ SentBy earlier source key entry.given

theorem view_of_trim {first second : Message} (same : first.trim = second.trim) :
    MessageCodec.view first = MessageCodec.view second := by
  rw [← MessageCodec.view_trim first, same, MessageCodec.view_trim]

section Runs

variable {messageServerPort : Peer → Int32} {resolveServerAddress : Peer → NetAddress}
  {busLocation : Peer → List UInt8}
  {history : List (EventMachine.Taken (State Peer) (Event Peer) (Output Peer))}
  {state : State Peer}

/-- A message that was written for another node was read from a client's bus. -/
theorem sent_of_written {guard : State Peer → Event Peer → Prop}
    (run : (machine Peer).Run guard
      (State.initial messageServerPort resolveServerAddress busLocation) history state)
    {source : Peer} {entry : ConnId × Message}
    (member : entry ∈ writtenBy source (EventMachine.outputs history)) :
    ∃ key, SentBy history source key entry.2 := by
  obtain ⟨read, inLog, submitted⟩ := written_logged run member
  obtain ⟨brought, _, _, _, same⟩ := Host.Routed.submittedTo_eq_some.mp submitted
  obtain ⟨key, source⟩ := Option.ne_none_iff_exists'.mp brought
  rw [logOf_flatMap] at inLog
  obtain ⟨taken, there, logged⟩ := List.mem_flatMap.mp inLog
  obtain ⟨_, earlier, _, stepped⟩ := run.of_mem there
  obtain ⟨output, event, next, log, handled, inStep⟩ := step_busRead stepped logged brought
  exact ⟨key, taken, there, read, output, source,
    Host.registered_of_source (keyed_run earlier _) handled inStep source,
    (Host.step_sound (keyed_run earlier _) handled read inStep).stamped key source,
    congrArg MessageCodec.view same.symm⟩

omit [DecidableEq Peer] in
theorem SentBy.of_view {earlier : List (EventMachine.Taken (State Peer) (Event Peer) (Output Peer))}
    {source : Peer} {key : UInt32} {first second : Message} (sent : SentBy earlier source key first)
    (same : MessageCodec.view second = MessageCodec.view first) :
    SentBy earlier source key second := by
  obtain ⟨taken, member, read, output, origin, registered, stamped, view⟩ := sent
  exact ⟨taken, member, read, output, origin, registered, stamped, same.trans view⟩

omit [DecidableEq Peer] in
/-- The name is that of the client and of its node at the time. -/
theorem SentBy.sourceAddress
    {earlier : List (EventMachine.Taken (State Peer) (Event Peer) (Output Peer))}
    {source : Peer} {key : UInt32} {m : Message} (sent : SentBy earlier source key m) :
    ∃ taken ∈ earlier, m.sourceAddress =
      ⟨(taken.before.hosts source).daemon.server.selfAddress, key⟩ := by
  obtain ⟨taken, member, read, _, _, _, stamped, view⟩ := sent
  refine ⟨taken, member, ?_⟩
  have named := congrArg Prod.fst view
  rw [stamped] at named
  exact named

omit [DecidableEq Peer] in
theorem named_of_sentBy
    {earlier : List (EventMachine.Taken (State Peer) (Event Peer) (Output Peer))}
    {source : Peer} {key : UInt32} {m : Message} (sent : SentBy earlier source key m)
    {addressOf : Peer → UInt32} (distinct : Function.Injective addressOf)
    (told : ∀ peer, addressOf peer ≠ 0)
    (own : ∀ taken ∈ earlier, (taken.before.hosts source).daemon.server.selfAddress = 0 ∨
      (taken.before.hosts source).daemon.server.selfAddress = addressOf source)
    {peer : Peer} {client : UInt32} (named : m.sourceAddress = ⟨addressOf peer, client⟩) :
    peer = source ∧ SentBy earlier source client m := by
  obtain ⟨taken, member, address⟩ := sent.sourceAddress
  rw [named] at address
  obtain ⟨node, rfl⟩ := Address.mk.inj address
  rcases own taken member with unknown | known
  · exact absurd (node.trans unknown) (told peer)
  · exact ⟨distinct (node.trans known), sent⟩

theorem step_arrived {before after : State Peer} {event : Event Peer}
    {outputs : List (Output Peer)} (stepped : step before event = some (after, outputs))
    {source target : Peer} {conn : ConnId} {entry : Host.Routed}
    (member : Output.logged target (some (source, conn)) entry ∈ outputs) :
    writtenBy source outputs = [] ∧ (conn, entry.given) ∈ arrivedFrom source outputs ∧
      entry.writes.length ≤ 1 ∧ ∀ write ∈ entry.writes,
        entry.given.remoteAddress = ⟨(before.hosts target).daemon.server.selfAddress, write.1⟩ ∧
          ((before.hosts target).identities write.1).isSome = true := by
  cases step_transition stepped with
  | host _ _ | daemon _ _ _ | connected _ _ => simp at member
  | @arrived _ _ _ written memory link _ handed host log _ _ _ _ handled =>
      have addressed := Host.addressed_handleRemoteNodeMessages written memory handed 0
        (before.hosts link.target)
      have silent := Host.effectsOf_handleRemoteNodeMessages written memory handed 0
        (before.hosts link.target)
      simp only [handled] at addressed silent
      obtain ⟨_, inLog, same⟩ := List.mem_map.mp member
      cases same
      refine ⟨by simp [writtenBy, silent], ?_, addressed entry inLog⟩
      rw [arrivedFrom_map_arrived, if_pos rfl]
      exact List.mem_map.mpr ⟨entry, inLog, rfl⟩
  | lost _ _ => cases member

/-- No client can reach a client that it does not address, or speak in the name of another one
at an address other than 0. -/
theorem authentic_run
    {earlier later : List (EventMachine.Taken (State Peer) (Event Peer) (Output Peer))}
    {taken : EventMachine.Taken (State Peer) (Event Peer) (Output Peer)}
    (run : (machine Peer).Run Fits
      (State.initial messageServerPort resolveServerAddress busLocation)
      (earlier ++ taken :: later) state)
    {source target : Peer} {conn : ConnId} {entry : Host.Routed}
    (member : Output.logged target (some (source, conn)) entry ∈ taken.outputs) :
    Authentic earlier taken.before source target entry := by
  obtain ⟨before, fits, stepped⟩ := run.of_split
  obtain ⟨silent, arrived, addressed⟩ := step_arrived stepped member
  have through := EventMachine.Run.snoc before fits stepped
  have wired := wired_run through
  rw [EventMachine.outputs_snoc] at wired
  have known := wired.linked source _ (arrivedFrom_append source _ _ ▸
    List.mem_append_right _ arrived)
  obtain ⟨link, linked, same⟩ := List.mem_map.mp known
  obtain ⟨rfl, rfl⟩ := Prod.mk.inj same
  have ordered := ordered_run through linked
  rw [EventMachine.outputs_snoc] at ordered
  have there : entry.given.trim ∈ (link.arrivedIn
      (EventMachine.outputs earlier ++ taken.outputs)).map Message.trim := by
    refine List.mem_map_of_mem (mem_valuesAt.mpr ?_)
    rw [arrivedFrom_append]
    exact List.mem_append_right _ arrived
  obtain ⟨m, sent, equal⟩ := List.mem_map.mp (ordered.subset there)
  have written := mem_valuesAt.mp sent
  rw [writtenBy_append, silent, List.append_nil] at written
  obtain ⟨key, origin⟩ := sent_of_written before written
  have sender := origin.of_view (view_of_trim equal.symm)
  exact ⟨addressed, ⟨key, sender⟩, fun _ distinct told own _ _ named =>
    named_of_sentBy sender distinct told own named⟩

def Output.handedTo (source target : Peer) : Output Peer → Option Host.Routed
  | .logged there (some (origin, _)) entry =>
      if there = target ∧ origin = source then some entry else none
  | .logged _ none _ | .did _ _ => none

theorem authentic_run_pair :
    ∃ earlier, ∃ taken : EventMachine.Taken (State Bool) (Event Bool) (Output Bool),
      ∃ conn entry, Output.logged true (some (false, conn)) entry ∈ taken.outputs ∧
        entry.writes.length = 1 ∧
        entry.given.sourceAddress = ⟨someNearNode, Host.someKey [97]⟩ ∧
        Authentic earlier taken.before false true entry := by
  obtain ⟨history, state, run, last⟩ := EventMachine.exists_run_of_any (machine Bool) Fits
    someStart someEvents
    (fun reached => reached.1.getLast?.any fun taken => taken.outputs.any fun output =>
      (output.handedTo false true).any fun entry => entry.writes.length == 1 &&
        entry.given.sourceAddress == ⟨someNearNode, Host.someKey [97]⟩) (by decide +kernel)
  obtain ⟨taken, ends, handed⟩ := (Option.any_eq_true _ _).mp last
  obtain ⟨earlier, rfl⟩ := List.getLast?_eq_some_iff.mp ends
  obtain ⟨output, member, written⟩ := List.any_eq_true.mp handed
  obtain ⟨entry, there, both⟩ := (Option.any_eq_true _ _).mp written
  obtain ⟨once, name⟩ := Bool.and_eq_true_iff.mp both
  match output, there with
  | .logged _ (some (_, conn)) _, there =>
      obtain ⟨⟨rfl, rfl⟩, same⟩ := Option.ite_none_right_eq_some.mp there
      cases same
      exact ⟨earlier, taken, conn, entry, member, eq_of_beq once, eq_of_beq name,
        authentic_run run member⟩

/-- What was read of a connection of the source comes before what is under way on it,
and what has come of none other. -/
theorem arrived_subperm_written (run : (machine Peer).Run Fits
      (State.initial messageServerPort resolveServerAddress busLocation) history state)
    (source : Peer) :
    ((arrivedFrom source (EventMachine.outputs history)).map
        fun entry => MessageCodec.view entry.2).Subperm
      (((writtenBy source (EventMachine.outputs history)).map Prod.snd).map
        MessageCodec.view) := by
  have each (conn : ConnId) :
      (valuesAt conn ((arrivedFrom source (EventMachine.outputs history)).map
        fun entry => (entry.1, MessageCodec.view entry.2))).Subperm
      (valuesAt conn ((writtenBy source (EventMachine.outputs history)).map
        fun entry => (entry.1, MessageCodec.view entry.2))) := by
    rw [← map_valuesAt, ← map_valuesAt]
    by_cases known : (source, conn) ∈ state.links.map Link.key
    · obtain ⟨link, member, same⟩ := List.mem_map.mp known
      obtain ⟨rfl, rfl⟩ := Prod.mk.inj same
      have views := (ordered_run run member).map MessageCodec.view
      simp only [List.map_map, Function.comp_def, MessageCodec.view_trim] at views
      exact views.sublist.subperm
    · have nothing : valuesAt conn (arrivedFrom source (EventMachine.outputs history)) = [] := by
        refine valuesAt_eq_nil fun entry arrived same => known ?_
        subst same
        exact (wired_run run).linked source entry arrived
      rw [nothing]
      exact List.nil_subperm
  have both := subperm_of_valuesAt each
  simpa [List.map_map, Function.comp_def] using both

theorem written_within_submitted {guard : State Peer → Event Peer → Prop}
    (run : (machine Peer).Run guard
      (State.initial messageServerPort resolveServerAddress busLocation) history state)
    (source : Peer) :
    ((writtenBy source (EventMachine.outputs history)).map Prod.snd).Subperm
      ((Host.submitted (logOf source (EventMachine.outputs history))).map Prod.snd) := by
  obtain ⟨handled, alone, did, brought⟩ := (alone_run run source).daemon
  rw [writtenBy, map_snd_written]
  refine subperm_of_valuesAt fun node => ?_
  rw [valuesAt_writtenFor, Host.valuesAt_submitted, ← brought, ← did]
  exact (List.sublist_append_left _ _).subperm.trans (Daemon.accounts_of_run alone node)

/-- What arrives from a node and was read there on its clients' buses: no message is
handed over at the far ends more often than clients of the node have sent it. -/
theorem arrived_subperm_submitted (run : (machine Peer).Run Fits
      (State.initial messageServerPort resolveServerAddress busLocation) history state)
    (source : Peer) :
    ((arrivedFrom source (EventMachine.outputs history)).map
        fun entry => MessageCodec.view entry.2).Subperm
      ((Host.submitted (logOf source (EventMachine.outputs history))).map
        fun entry => MessageCodec.view entry.2) := by
  have once := (arrived_subperm_written run source).trans
    (subperm_map MessageCodec.view (written_within_submitted run source))
  rwa [List.map_map] at once

theorem arrived_subperm_submitted_pair :
    ∃ history : List (EventMachine.Taken (State Bool) (Event Bool) (Output Bool)),
      (arrivedFrom false (EventMachine.outputs history)).length = 1 ∧
      ((arrivedFrom false (EventMachine.outputs history)).map
          fun entry => MessageCodec.view entry.2).Subperm
        ((Host.submitted (logOf false (EventMachine.outputs history))).map
          fun entry => MessageCodec.view entry.2) := by
  obtain ⟨history, _, run, arrived⟩ := EventMachine.exists_run_of_any (machine Bool) Fits
    someStart someEvents
    (fun reached => (arrivedFrom false (EventMachine.outputs reached.1)).length == 1)
    (by decide +kernel)
  exact ⟨history, eq_of_beq arrived, arrived_subperm_submitted run false⟩

end Runs

end Federation

end Cpmd
