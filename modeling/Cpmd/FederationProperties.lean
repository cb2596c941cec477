import Cpmd.Federation

/-! The steps of a federation, and what they are for each host by itself: a run of the
host, and below it a run of its daemon. -/

set_option autoImplicit false

namespace Cpmd

open Library

/-- The host after the messages of one `OnRead` is a host that was given them one at a
time. -/
theorem Host.run_handleRemoteNodeMessages (written : Nat → Bool) (memory : Nat → List UInt8)
    (handed : List Message) (count : Nat) (host : Host) :
    ∃ history, Host.machine.Run (fun _ event => ∀ own, event ≠ .daemon own) host history
        (host.handleRemoteNodeMessages written memory count handed).1 ∧
      EventMachine.outputs history =
        (host.handleRemoteNodeMessages written memory count handed).2.1 := by
  induction handed generalizing count host with
  | nil => exact ⟨[], .nil, rfl⟩
  | cons m rest ih =>
      obtain ⟨history, run, did⟩ := ih (count + 1)
        (host.handleRemoteMessage (written count) (memory count) m).1
      have first : Host.machine.Run (fun _ event => ∀ own, event ≠ .daemon own) host
          [⟨host, .remoteMessage m (written count) (memory count),
            [⟨none, m, m, (host.handleRemoteMessage (written count) (memory count) m).2.1,
              m.image (memory count), none, []⟩],
            (host.handleRemoteMessage (written count) (memory count) m).1⟩]
          (host.handleRemoteMessage (written count) (memory count) m).1 :=
        EventMachine.Run.single (fun _ equal => by cases equal) rfl
      refine ⟨_, first.append run, ?_⟩
      rw [EventMachine.outputs_append, did]
      rfl

theorem Host.given_handleRemoteNodeMessages (written : Nat → Bool) (memory : Nat → List UInt8)
    (handed : List Message) (count : Nat) (host : Host) :
    (host.handleRemoteNodeMessages written memory count handed).2.1.map Host.Routed.given =
      handed := by
  induction handed generalizing count host with
  | nil => rfl
  | cons m rest ih => exact congrArg (m :: ·) (ih (count + 1) _)

theorem Host.effectsOf_handleRemoteNodeMessages (written : Nat → Bool) (memory : Nat → List UInt8)
    (handed : List Message) (count : Nat) (host : Host) :
    Host.effectsOf (host.handleRemoteNodeMessages written memory count handed).2.1 = [] := by
  induction handed generalizing count host with
  | nil => rfl
  | cons m rest ih => exact ih (count + 1) _

namespace Federation

variable {Peer : Type} [DecidableEq Peer]

inductive Transition (state : State Peer) :
    Event Peer → State Peer → List (Output Peer) → Prop where
  | host {peer : Peer} {event : Host.Event} {after : Host} {log : List Host.Routed} :
      ownEvent event = true → Host.step (state.hosts peer) event = some (after, log) →
      Transition state (.host peer event) (state.act peer after (Host.effectsOf log))
        (log.map (Output.logged peer none))
  | daemon {peer : Peer} {event : Daemon.Event} {daemon : Daemon.State}
      {effects : List Effect} :
      toNode (state.hosts peer).daemon.server event = false →
      (∀ client m writes, event ≠ .busMessage client m writes) →
      Daemon.step (state.hosts peer).daemon event = some (daemon, effects) →
      Transition state (.daemon peer event)
        (state.act peer { state.hosts peer with daemon := daemon } effects)
        (effects.map (Output.did peer))
  | connected {source target : Peer} {addr : NetAddress} {writes : Nat → Bool}
      {daemon : Daemon.State} {effects : List Effect} :
      addr ≠ (state.hosts source).daemon.server.resolveServerAddress →
      Daemon.step (state.hosts source).daemon (.connected addr writes) =
        some (daemon, effects) →
      Transition state (.connected source target addr writes)
        ((state.addLink ⟨source, (state.hosts source).daemon.network.nextId, target, [],
          .fresh⟩).act source { state.hosts source with daemon := daemon } effects)
        (effects.map (Output.did source))
  | arrived {index count rounds : Nat} {written : Nat → Bool} {memory : Nat → List UInt8}
      {link : Link Peer} {reading : MessageCodec.Connection} {handed : List Message} {host : Host}
      {log : List Host.Routed} {preserved : Bool} :
      state.links[index]? = some link → link.reading.closed = false →
      MessageCodec.receive rounds link.reading (link.inFlight.take count) =
        some (reading, handed) →
      (state.hosts link.target).handleRemoteNodeMessages written memory 0 handed =
        (host, log, preserved) →
      Transition state (.arrived index count rounds written memory)
        ((state.putHost link.target host).putLink index
          (link.read count { reading with closed := reading.closed || !preserved }))
        (log.map (Output.logged link.target (some (link.source, link.conn))))
  | lost {index : Nat} {link : Link Peer} :
      state.links[index]? = some link → link.reading.closed = false →
      Transition state (.lost index) (state.putLink index link.finish) []

theorem daemonStep_eq_some {state after : State Peer} {peer : Peer} {event : Daemon.Event}
    {outputs : List (Output Peer)}
    (stepped : state.daemonStep peer event = some (after, outputs)) :
    (∀ client m writes, event ≠ .busMessage client m writes) ∧
      ∃ daemon effects,
        Daemon.step (state.hosts peer).daemon event = some (daemon, effects) ∧
        after = state.act peer { state.hosts peer with daemon := daemon } effects ∧
        outputs = effects.map (Output.did peer) := by
  have others : ∀ client m writes, event ≠ .busMessage client m writes := by
    intro client m writes equal
    subst equal
    cases stepped
  have mapped : (Daemon.step (state.hosts peer).daemon event).map (fun stepped =>
      (state.act peer { state.hosts peer with daemon := stepped.1 } stepped.2,
        stepped.2.map (Output.did peer))) = some (after, outputs) := by
    cases event with
    | busMessage client m writes => cases stepped
    | _ => exact stepped
  obtain ⟨⟨daemon, effects⟩, handled, settled⟩ := Option.map_eq_some_iff.mp mapped
  cases settled
  exact ⟨others, daemon, effects, handled, rfl, rfl⟩

theorem step_transition {state after : State Peer} {event : Event Peer}
    {outputs : List (Output Peer)} (stepped : step state event = some (after, outputs)) :
    Transition state event after outputs := by
  cases event with
  | host peer event =>
      simp only [step] at stepped
      split at stepped
      · rename_i own
        obtain ⟨_, handled, settled⟩ := Option.map_eq_some_iff.mp stepped
        cases settled
        exact .host own handled
      · cases stepped
  | daemon peer event =>
      simp only [step] at stepped
      split at stepped
      · cases stepped
      · rename_i inside
        obtain ⟨others, _, _, handled, rfl, rfl⟩ := daemonStep_eq_some stepped
        exact .daemon (Bool.eq_false_iff.mpr inside) others handled
  | connected source target addr writes =>
      simp only [step] at stepped
      split at stepped
      · rename_i outside
        obtain ⟨_, _, _, handled, rfl, rfl⟩ := daemonStep_eq_some stepped
        have different : addr ≠ (state.hosts source).daemon.server.resolveServerAddress := by
          simpa [toNode, Server.isResolveServerAddress] using outside
        exact .connected different handled
      · cases stepped
  | arrived index count rounds written memory =>
      simp only [step] at stepped
      split at stepped
      · rename_i link linked
        split at stepped
        · cases stepped
        · rename_i opened
          split at stepped
          · rename_i reading handed read
            cases stepped
            exact .arrived linked (Bool.eq_false_iff.mpr opened) read rfl
          · cases stepped
      · cases stepped
  | lost index =>
      simp only [step] at stepped
      split at stepped
      · rename_i link linked
        split at stepped
        · cases stepped
        · rename_i opened
          cases stepped
          exact .lost linked (Bool.eq_false_iff.mpr opened)
      · cases stepped

@[simp] theorem logOf_append (peer : Peer) (first second : List (Output Peer)) :
    logOf peer (first ++ second) = logOf peer first ++ logOf peer second :=
  List.filterMap_append

@[simp] theorem effectsBy_append (peer : Peer) (first second : List (Output Peer)) :
    effectsBy peer (first ++ second) = effectsBy peer first ++ effectsBy peer second :=
  List.flatMap_append

@[simp] theorem writtenBy_append (peer : Peer) (first second : List (Output Peer)) :
    writtenBy peer (first ++ second) = writtenBy peer first ++ writtenBy peer second := by
  simp [writtenBy]

@[simp] theorem arrivedFrom_append (peer : Peer) (first second : List (Output Peer)) :
    arrivedFrom peer (first ++ second) = arrivedFrom peer first ++ arrivedFrom peer second :=
  List.filterMap_append

section Selections

variable (peer other : Peer) (origin : Option (Peer × ConnId)) (log : List Host.Routed)
  (effects : List Effect)

@[simp] theorem logOf_map_logged :
    logOf peer (log.map (Output.logged other origin)) = if other = peer then log else [] := by
  by_cases own : other = peer <;> simp [logOf, List.filterMap_map, own]

@[simp] theorem logOf_map_did : logOf peer (effects.map (Output.did other)) = [] := by
  simp [logOf, List.filterMap_map]

@[simp] theorem effectsBy_map_logged :
    effectsBy peer (log.map (Output.logged other origin)) =
      if other = peer then Host.effectsOf log else [] := by
  by_cases own : other = peer <;>
    simp [effectsBy, Host.effectsOf, List.flatMap_map, own]

@[simp] theorem effectsBy_map_did :
    effectsBy peer (effects.map (Output.did other)) = if other = peer then effects else [] := by
  by_cases own : other = peer <;> simp [effectsBy, List.flatMap_map, own]

@[simp] theorem arrivedFrom_map_busRead :
    arrivedFrom peer (log.map (Output.logged other none)) = [] := by
  simp [arrivedFrom, List.filterMap_map]

@[simp] theorem arrivedFrom_map_did : arrivedFrom peer (effects.map (Output.did other)) = [] := by
  simp [arrivedFrom, List.filterMap_map]

@[simp] theorem arrivedFrom_map_arrived (source : Peer) (conn : ConnId) :
    arrivedFrom peer (log.map (Output.logged other (some (source, conn)))) =
      if source = peer then log.map fun entry => (conn, entry.given) else [] := by
  by_cases own : source = peer <;>
    simp [arrivedFrom, List.filterMap_map, own]

end Selections

theorem others_of_ownEvent {event : Host.Event} (own : ownEvent event = true) :
    ∀ inner, event ≠ .daemon inner := by
  intro inner equal
  subst equal
  cases own

/-- A host goes from one state to the other by steps of the host alone that log this,
and its daemon by steps of the daemon alone that have these effects. -/
structure Alone (before after : Host) (log : List Host.Routed) (effects : List Effect) :
    Prop where
  host : ∃ history, Host.machine.Run (fun _ _ => True) before history after ∧
    EventMachine.outputs history = log
  daemon : Host.Forwards (fun _ => True) before.daemon after.daemon log effects

theorem Alone.refl (host : Host) : Alone host host [] [] :=
  ⟨⟨[], .nil, rfl⟩, .refl _⟩

theorem Alone.trans {first second third : Host} {log more : List Host.Routed}
    {effects further : List Effect} (before : Alone first second log effects)
    (after : Alone second third more further) :
    Alone first third (log ++ more) (effects ++ further) := by
  obtain ⟨earlier, run, logged⟩ := before.host
  obtain ⟨later, continued, added⟩ := after.host
  refine ⟨⟨earlier ++ later, run.append continued, ?_⟩, before.daemon.trans after.daemon⟩
  rw [EventMachine.outputs_append, logged, added]

theorem Alone.of_daemon {host : Host} {event : Daemon.Event} {daemon : Daemon.State}
    {effects : List Effect} (others : ∀ client m writes, event ≠ .busMessage client m writes)
    (handled : Daemon.step host.daemon event = some (daemon, effects)) :
    Alone host { host with daemon := daemon } [] effects := by
  have alone : Host.step host (.daemon event) = some ({ host with daemon := daemon }, []) := by
    cases event with
    | busMessage client m writes => exact absurd rfl (others client m writes)
    | _ => simp only [Host.step, handled, Option.map_some]
  have run : Host.machine.Run (fun _ _ => True) host _ { host with daemon := daemon } :=
    .single trivial alone
  refine ⟨⟨_, run, rfl⟩, .of_step trivial handled fun nodeAddress => ?_⟩
  rw [Host.submission_of_others others]
  rfl

theorem Alone.update {hosts : Peer → Host} {actor : Peer} {moved : Host}
    {log : List Host.Routed} {effects : List Effect}
    (goes : Alone (hosts actor) moved log effects) (peer : Peer) :
    Alone (hosts peer) (Function.update hosts actor moved peer) (if actor = peer then log else [])
      (if actor = peer then effects else []) := by
  by_cases own : actor = peer
  · subst own
    rw [Function.update_self, if_pos rfl, if_pos rfl]
    exact goes
  · rw [Function.update_of_ne (Ne.symm own), if_neg own, if_neg own]
    exact .refl _

theorem step_alone {before after : State Peer} {event : Event Peer}
    {outputs : List (Output Peer)} (stepped : step before event = some (after, outputs))
    (peer : Peer) :
    Alone (before.hosts peer) (after.hosts peer) (logOf peer outputs)
      (effectsBy peer outputs) := by
  cases step_transition stepped with
  | @host actor event moved log own handled =>
      rw [logOf_map_logged, effectsBy_map_logged]
      have run : Host.machine.Run (fun _ _ => True) (before.hosts actor) _ moved :=
        .single trivial handled
      have goes : Alone (before.hosts actor) moved log (Host.effectsOf log) :=
        ⟨⟨_, run, List.append_nil _⟩,
          (Host.step_forwards (others_of_ownEvent own) handled).weaken⟩
      exact goes.update peer
  | daemon _ others handled =>
      rw [logOf_map_did, effectsBy_map_did, ← ite_self (c := _ = peer) ([] : List Host.Routed)]
      exact (Alone.of_daemon others handled).update peer
  | connected _ handled =>
      rw [logOf_map_did, effectsBy_map_did, ← ite_self (c := _ = peer) ([] : List Host.Routed)]
      exact (Alone.of_daemon (fun _ _ _ equal => by cases equal) handled).update peer
  | @arrived _ _ _ written memory link _ handed host log preserved _ _ _ handled =>
      rw [logOf_map_logged, effectsBy_map_logged]
      obtain ⟨alone, run, did⟩ :=
        Host.run_handleRemoteNodeMessages written memory handed 0 (before.hosts link.target)
      simp only [handled] at run did
      subst did
      have goes : Alone (before.hosts link.target) host (EventMachine.outputs alone)
          (Host.effectsOf (EventMachine.outputs alone)) :=
        ⟨⟨alone, run.weaken fun _ _ _ => trivial, rfl⟩, (Host.forwards_run run).weaken⟩
      exact goes.update peer
  | lost _ _ => exact .refl _

/-- However the steps of a federation interleave, each host in it goes through a run of
the host alone, and its daemon through a run of the daemon alone. -/
theorem alone_run {messageServerPort : Peer → Int32} {resolveServerAddress : Peer → NetAddress}
    {busLocation : Peer → List UInt8} {guard : State Peer → Event Peer → Prop}
    {history : List (EventMachine.Taken (State Peer) (Event Peer) (Output Peer))}
    {state : State Peer} (run : (machine Peer).Run guard
      (State.initial messageServerPort resolveServerAddress busLocation) history state)
    (peer : Peer) :
    Alone
      (Host.initial (messageServerPort peer) (resolveServerAddress peer) (busLocation peer))
      (state.hosts peer) (logOf peer (EventMachine.outputs history))
      (effectsBy peer (EventMachine.outputs history)) := by
  induction run with
  | nil => exact .refl _
  | snoc _ _ stepped ih =>
      rw [EventMachine.outputs_snoc, logOf_append, effectsBy_append]
      exact ih.trans (step_alone stepped peer)

end Federation

end Cpmd
