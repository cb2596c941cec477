import Cpmd.HostProperties

/-! Handshakes that agree with the registry: a client that was told `kOk` is the one
registered at its address, on the buses it was given. -/

set_option autoImplicit false

namespace Cpmd.Host

open Library

/-- The step answered a handshake for this name with `kOk`. -/
def Accepted (taken : EventMachine.Taken Host Event Routed) (name : List UInt8)
    (reply : HandShakeResponse) : Prop :=
  ∃ restoreOrCreate data out, taken.event = .handShake restoreOrCreate data out ∧
    handShakeName data = name ∧
    (taken.before.handleInitCommand restoreOrCreate data out).2 = some reply ∧ reply.code = .kOk

/-- The client at the name's address has this name, and the buses of the reply. -/
def Serves (host : Host) (name : List UInt8) (reply : HandShakeResponse) : Prop :=
  ∃ client, host.clients.find (Address.create name).clientAddr = some client ∧
    client.name = name ∧ client.inputPath = reply.outputTunnelPath ∧
    client.outputPath = reply.inputTunnelPath

def Disjoint (left right : List UInt8 × List UInt8) : Prop :=
  left.1 ≠ right.1 ∧ left.1 ≠ right.2 ∧ left.2 ≠ right.1 ∧ left.2 ≠ right.2

/-- Every name that was accepted is served, and two names by two entries with buses
of their own. -/
structure Agreement (history : List (EventMachine.Taken Host Event Routed)) (host : Host) :
    Prop where
  serves : ∀ taken ∈ history, ∀ name reply, Accepted taken name reply → Serves host name reply
  apart : ∀ first ∈ history, ∀ second ∈ history, ∀ name other reply reply',
    Accepted first name reply → Accepted second other reply' → name ≠ other →
    (Address.create name).clientAddr ≠ (Address.create other).clientAddr ∧
      Disjoint (reply.outputTunnelPath, reply.inputTunnelPath)
        (reply'.outputTunnelPath, reply'.inputTunnelPath)

/-- A datagram of the right size for whose name both buses can be opened. -/
def Opens (host : Host) (restoreOrCreate : List UInt8 → UInt32 → Option (List (List UInt8)))
    (data : List UInt8) : Prop :=
  data.length = ProtocolMessage.sizeof ∧
    (restoreOrCreate (host.getInputBusPath (handShakeName data))
      (LittleEndian.word (ProtocolMessage.overlay data).data)).isSome = true ∧
    (restoreOrCreate (host.getOutputBusPath (handShakeName data))
      (LittleEndian.word (ProtocolMessage.overlay data).data)).isSome = true

/-- Where a handshake can be accepted, no client of another name is registered at
the name's address, or uses one of the two bus paths. -/
def Distinct (host : Host) : Event → Prop
  | .handShake restoreOrCreate data _ => host.Opens restoreOrCreate data →
      ∀ client ∈ host.clients.values, client.name ≠ handShakeName data →
        client.addr.clientAddr ≠ (Address.create (handShakeName data)).clientAddr ∧
          Disjoint (client.inputPath, client.outputPath)
            (host.getInputBusPath (handShakeName data), host.getOutputBusPath (handShakeName data))
  | .daemon _ | .remoteMessage _ _ _ | .busMessage _ _ | .submit _ _ | .receive _ => True

instance (left right : List UInt8 × List UInt8) : Decidable (Disjoint left right) :=
  inferInstanceAs (Decidable (_ ∧ _ ∧ _ ∧ _))

instance (host : Host) : ∀ event, Decidable (Distinct host event)
  | .handShake _ _ _ => inferInstanceAs (Decidable ((_ ∧ _ ∧ _) →
      ∀ client ∈ host.clients.values, _ → _ ∧ _))
  | .daemon _ | .remoteMessage _ _ _ | .busMessage _ _ | .submit _ _ | .receive _ =>
      inferInstanceAs (Decidable True)

/-- What a client of this name would be. -/
def identityOf (host : Host) (name : List UInt8) :
    List UInt8 × Address × List UInt8 × List UInt8 :=
  (name, Address.create name, host.getInputBusPath name, host.getOutputBusPath name)

theorem accepted_iff {host after : Host}
    {restoreOrCreate : List UInt8 → UInt32 → Option (List (List UInt8))} {data : List UInt8}
    {out reply : HandShakeResponse} {outputs : List Routed} {name : List UInt8} :
    Accepted ⟨host, .handShake restoreOrCreate data out, outputs, after⟩ name reply ↔
      host.Opens restoreOrCreate data ∧ handShakeName data = name ∧
        reply = ⟨.kOk, host.getOutputBusPath name, host.getInputBusPath name⟩ := by
  constructor
  · intro registers
    obtain ⟨_, _, _, ⟨⟩, rfl, replied, good⟩ := registers
    unfold handleInitCommand at replied
    split at replied
    · cases replied
    · rename_i sized
      dsimp only at replied
      split at replied
      · rename_i input output restored created
        refine ⟨⟨not_not.mp sized, ?_, ?_⟩, rfl, (Option.some.inj replied).symm⟩
        · exact Option.isSome_iff_exists.mpr ⟨_, restored⟩
        · exact Option.isSome_iff_exists.mpr ⟨_, created⟩
      · cases replied
        cases good
  · intro accepted
    obtain ⟨⟨sized, restored, created⟩, rfl, rfl⟩ := accepted
    obtain ⟨input, restored⟩ := Option.isSome_iff_exists.mp restored
    obtain ⟨output, created⟩ := Option.isSome_iff_exists.mp created
    refine ⟨_, _, _, rfl, rfl, ?_, rfl⟩
    unfold handleInitCommand
    rw [if_neg (not_not_intro sized)]
    simp only [handShakeName, HandShakeRequest.ofData] at restored created ⊢
    rw [restored, created]

theorem not_accepted_of_quiet {taken : EventMachine.Taken Host Event Routed}
    (quiet : ∀ restoreOrCreate data out, taken.event ≠ .handShake restoreOrCreate data out)
    (name : List UInt8) (reply : HandShakeResponse) : ¬ Accepted taken name reply := by
  intro shakes
  obtain ⟨restoreOrCreate, data, out, event, _⟩ := shakes
  exact quiet restoreOrCreate data out event

/-- Who is registered stays the same. -/
structure Keeps (before after : Host) : Prop where
  location : after.busLocation = before.busLocation
  identities : ∀ key, after.identities key = before.identities key

/-- The client of a name is registered unless there is one at its address. -/
structure Adds (before : Host) (name : List UInt8) (after : Host) : Prop where
  location : after.busLocation = before.busLocation
  identities : ∀ key, after.identities key =
    if key = (Address.create name).clientAddr then
      some ((before.identities key).getD (before.identityOf name))
    else before.identities key

theorem Accounts.keeps {before after : Host} {log : List Routed}
    (accounts : Accounts before after log) : Keeps before after :=
  ⟨accounts.location, accounts.identities⟩

theorem adds_register (host : Host) (name : List UInt8) (input output : List (List UInt8)) :
    Adds host name (host.register (Address.create name).clientAddr
      (host.newClient name input output)) := by
  refine ⟨rfl, fun key => ?_⟩
  rw [identities, find_register]
  split
  · rename_i own
    subst own
    rw [identities]
    cases host.clients.find (Address.create name).clientAddr <;> rfl
  · rfl

/-- A step that accepts a handshake adds the client it is from; any other step keeps
who is registered. -/
theorem step_registers {before after : Host} {event : Event} {outputs : List Routed}
    (keyed : Keyed before) (stepped : step before event = some (after, outputs)) :
    (Keeps before after ∧
      ∀ name reply, ¬ Accepted ⟨before, event, outputs, after⟩ name reply) ∨
    ∃ name, Accepted ⟨before, event, outputs, after⟩ name
      ⟨.kOk, before.getOutputBusPath name, before.getInputBusPath name⟩ ∧
      Adds before name after := by
  cases step_transition stepped with
  | refused failed =>
      refine .inl ⟨⟨rfl, fun _ => rfl⟩, ?_⟩
      intro name reply registers
      obtain ⟨_, _, _, ⟨⟩, _, replied, good⟩ := registers
      rw [failed reply replied] at good
      cases good
  | @registered _ data _ input output replied =>
      exact .inr ⟨handShakeName data, ⟨_, _, _, rfl, rfl, replied, rfl⟩,
        adds_register before (handShakeName data) input output⟩
  | daemon _ _ => exact .inl ⟨⟨rfl, fun _ => rfl⟩, not_accepted_of_quiet (by simp)⟩
  | @fromPeer m written behind =>
      exact .inl ⟨(handleRemoteMessage_accounts before m written behind).keeps,
        not_accepted_of_quiet (by simp)⟩
  | drained handled =>
      exact .inl ⟨(accounts_of_drained keyed handled).keeps, not_accepted_of_quiet (by simp)⟩
  | submitted found =>
      exact .inl ⟨⟨rfl, identities_leave found _⟩, not_accepted_of_quiet (by simp)⟩
  | @received key client found =>
      have same : identity { client with output := client.output.drop 1 } = identity client := rfl
      exact .inl ⟨⟨rfl, identities_putClient found same⟩, not_accepted_of_quiet (by simp)⟩

theorem Adds.keeps {before after : Host} {name : List UInt8} (adds : Adds before name after)
    {key : UInt32} (held : (before.identities key).isSome = true) :
    after.identities key = before.identities key := by
  rw [adds.identities]
  split
  · obtain ⟨parts, known⟩ := Option.isSome_iff_exists.mp held
    rw [known]
    rfl
  · rfl

/-- Who is registered stays so, and so do the paths of a name. -/
theorem step_keeps {before after : Host} {event : Event} {outputs : List Routed}
    (keyed : Keyed before) (stepped : step before event = some (after, outputs)) :
    (∀ key, (before.identities key).isSome = true →
      after.identities key = before.identities key) ∧
    after.getInputBusPath = before.getInputBusPath ∧
      after.getOutputBusPath = before.getOutputBusPath := by
  have paths (location : after.busLocation = before.busLocation) :
      after.getInputBusPath = before.getInputBusPath ∧
        after.getOutputBusPath = before.getOutputBusPath := by
    constructor <;> funext name <;> simp only [getInputBusPath, getOutputBusPath, getBusPath,
      location]
  rcases step_registers keyed stepped with ⟨keeps, _⟩ | ⟨name, _, adds⟩
  · exact ⟨fun key _ => keeps.identities key, paths keeps.location⟩
  · exact ⟨fun key held => adds.keeps held, paths adds.location⟩

/-- Who is registered, and what was accepted. -/
structure Registry (history : List (EventMachine.Taken Host Event Routed)) (host : Host) :
    Prop where
  keyed : Keyed host
  origin : ∀ key parts, host.identities key = some parts → ∃ name,
    parts = host.identityOf name ∧ key = (Address.create name).clientAddr ∧
      ∃ taken ∈ history, ∃ reply, Accepted taken name reply
  known : ∀ taken ∈ history, ∀ name reply, Accepted taken name reply →
    (host.identities (Address.create name).clientAddr).isSome = true ∧
      reply = ⟨.kOk, host.getOutputBusPath name, host.getInputBusPath name⟩

theorem identityOf_step {before after : Host} {event : Event} {outputs : List Routed}
    (keyed : Keyed before) (stepped : step before event = some (after, outputs))
    (name : List UInt8) : after.identityOf name = before.identityOf name := by
  obtain ⟨_, inputPath, outputPath⟩ := step_keeps keyed stepped
  rw [identityOf, inputPath, outputPath, identityOf]

theorem Registry.preserved {history : List (EventMachine.Taken Host Event Routed)}
    {before after : Host} {event : Event} {outputs : List Routed}
    (registry : Registry history before)
    (stepped : step before event = some (after, outputs)) :
    Registry (history ++ [⟨before, event, outputs, after⟩]) after := by
  obtain ⟨keeps, inputPath, outputPath⟩ := step_keeps registry.keyed stepped
  have sameIdentity := identityOf_step registry.keyed stepped
  refine ⟨registry.keyed.preserved stepped, ?_, ?_⟩
  · intro key parts found
    have old (held : before.identities key = some parts) : ∃ name,
        parts = after.identityOf name ∧ key = (Address.create name).clientAddr ∧
          ∃ taken ∈ history ++ [⟨before, event, outputs, after⟩], ∃ reply,
            Accepted taken name reply := by
      obtain ⟨name, same, own, taken, member, accepted⟩ := registry.origin key parts held
      exact ⟨name, same.trans (sameIdentity name).symm, own, taken,
        List.mem_append_left _ member, accepted⟩
    cases held : before.identities key with
    | some other =>
        rw [keeps key (by rw [held]; rfl), held] at found
        exact old (held.trans found)
    | none =>
        rcases step_registers registry.keyed stepped with ⟨same, _⟩ | ⟨name, accepted, adds⟩
        · rw [same.identities, held] at found
          cases found
        · rw [adds.identities, held] at found
          split at found
          · rename_i own
            cases found
            exact ⟨name, (sameIdentity name).symm, own, _,
              List.mem_append_right _ (List.mem_singleton_self _), _, accepted⟩
          · cases found
  · intro taken member name reply accepted
    rw [inputPath, outputPath]
    rcases List.mem_append.mp member with old | new
    · obtain ⟨held, same⟩ := registry.known taken old name reply accepted
      rw [keeps _ held]
      exact ⟨held, same⟩
    · cases List.mem_singleton.mp new
      rcases step_registers registry.keyed stepped with ⟨_, none⟩ | ⟨name', accepted', adds⟩
      · exact absurd accepted (none name reply)
      · obtain ⟨_, _, _, rfl, rfl, replied, _⟩ := accepted
        obtain ⟨_, _, _, ⟨⟩, rfl, replied', _⟩ := accepted'
        rw [replied] at replied'
        cases replied'
        rw [adds.identities, if_pos rfl]
        exact ⟨rfl, rfl⟩

theorem registry_of_run {messageServerPort : Int32} {resolveServerAddress : NetAddress}
    {busLocation : List UInt8} {history : List (EventMachine.Taken Host Event Routed)}
    {host : Host} (run : machine.Run (fun _ _ => True)
      (initial messageServerPort resolveServerAddress busLocation) history host) :
    Registry history host := by
  refine run.invariant Registry ⟨keyed_initial _ _ _, ?_, by simp⟩
    (fun _ _ _ _ _ registry _ stepped => registry.preserved stepped)
  intro key parts found
  simp [identities, initial] at found

theorem Disjoint.symm {left right : List UInt8 × List UInt8} (apart : Disjoint left right) :
    Disjoint right left :=
  ⟨apart.1.symm, apart.2.2.1.symm, apart.2.1.symm, apart.2.2.2.symm⟩

/-- Of a name that was accepted it is enough to ask who is at its address. -/
theorem Registry.serves_iff_identities {host : Host}
    {history : List (EventMachine.Taken Host Event Routed)} (registry : Registry history host)
    {taken : EventMachine.Taken Host Event Routed} (member : taken ∈ history)
    {name : List UInt8} {reply : HandShakeResponse}
    (accepted : Accepted taken name reply) :
    Serves host name reply ↔
      host.identities (Address.create name).clientAddr = some (host.identityOf name) := by
  obtain ⟨_, rfl⟩ := registry.known taken member name reply accepted
  constructor
  · intro served
    obtain ⟨client, found, named, _, _⟩ := served
    have held := identities_of_find found
    obtain ⟨name', same, _, _⟩ := registry.origin _ _ held
    have own : name = name' := named.symm.trans (congrArg Prod.fst same)
    rw [held, same, own]
  · intro held
    obtain ⟨client, found, same⟩ := Option.map_eq_some_iff.mp held
    exact ⟨client, found, congrArg Prod.fst same, congrArg (fun parts => parts.2.2.1) same,
      congrArg (fun parts => parts.2.2.2) same⟩

theorem Registry.client {history : List (EventMachine.Taken Host Event Routed)} {host : Host}
    (registry : Registry history host) {client : LocalClient}
    (member : client ∈ host.clients.values) :
    host.identities client.addr.clientAddr = some (host.identityOf client.name) ∧
      client.addr = Address.create client.name ∧
      (client.inputPath, client.outputPath) =
        (host.getInputBusPath client.name, host.getOutputBusPath client.name) ∧
      ∃ taken ∈ history, ∃ reply, Accepted taken client.name reply := by
  obtain ⟨key, found⟩ := FiniteMap.mem_values.mp member
  have held := identities_of_find found
  obtain ⟨name, same, _, accepted⟩ := registry.origin key _ held
  have own : client.name = name := congrArg Prod.fst same
  subst own
  refine ⟨?_, congrArg (fun parts => parts.2.1) same, congrArg (fun parts => parts.2.2) same,
    accepted⟩
  rw [registry.keyed key client found, held, same]

section Step

variable {history : List (EventMachine.Taken Host Event Routed)} {before after : Host}
  {event : Event} {outputs : List Routed}

theorem Registry.serves_step (registry : Registry history before)
    (stepped : step before event = some (after, outputs))
    {taken : EventMachine.Taken Host Event Routed} (member : taken ∈ history) {name : List UInt8}
    {reply : HandShakeResponse} (accepted : Accepted taken name reply) :
    Serves after name reply ↔ Serves before name reply := by
  obtain ⟨keeps, _, _⟩ := step_keeps registry.keyed stepped
  rw [registry.serves_iff_identities member accepted,
    (registry.preserved stepped).serves_iff_identities (List.mem_append_left _ member) accepted,
    keeps _ (registry.known taken member name reply accepted).1,
    identityOf_step registry.keyed stepped]

theorem Registry.distinct (registry : Registry history before)
    (agreement : Agreement (history ++ [⟨before, event, outputs, after⟩]) after) :
    Distinct before event := by
  cases event with
  | handShake restoreOrCreate data out =>
      intro opens client member different
      have accepted : Accepted ⟨before, .handShake restoreOrCreate data out, outputs, after⟩
          (handShakeName data) ⟨.kOk, before.getOutputBusPath (handShakeName data),
            before.getInputBusPath (handShakeName data)⟩ := accepted_iff.mpr ⟨opens, rfl, rfl⟩
      obtain ⟨_, addr, paths, taken, earlier, reply, known⟩ := registry.client member
      obtain ⟨_, rfl⟩ := registry.known taken earlier _ reply known
      rw [addr, paths]
      exact agreement.apart taken (List.mem_append_left _ earlier) _
        (List.mem_append_right _ (List.mem_singleton_self _)) _ _ _ _ known accepted different
  | daemon | remoteMessage | busMessage | submit | receive => trivial

theorem Registry.apart (registry : Registry history before) (agreement : Agreement history before)
    (distinct : Distinct before event) {taken : EventMachine.Taken Host Event Routed}
    (member : taken ∈ history) {name other : List UInt8} {reply reply' : HandShakeResponse}
    (known : Accepted taken name reply)
    (accepted : Accepted ⟨before, event, outputs, after⟩ other reply')
    (different : name ≠ other) :
    (Address.create name).clientAddr ≠ (Address.create other).clientAddr ∧
      Disjoint (reply.outputTunnelPath, reply.inputTunnelPath)
        (reply'.outputTunnelPath, reply'.inputTunnelPath) := by
  obtain ⟨client, found, rfl, inputPath, outputPath⟩ :=
    agreement.serves taken member name reply known
  have held := FiniteMap.mem_values.mpr ⟨_, found⟩
  obtain ⟨_, addr, _, _⟩ := registry.client held
  cases event with
  | handShake restoreOrCreate data out =>
      obtain ⟨opens, rfl, rfl⟩ := accepted_iff.mp accepted
      have apart := distinct opens client held different
      rwa [addr, inputPath, outputPath] at apart
  | daemon | remoteMessage | busMessage | submit | receive =>
      exact absurd accepted (not_accepted_of_quiet (by simp) _ _)

theorem Registry.serves_new (registry : Registry history before)
    (distinct : Distinct before event) (stepped : step before event = some (after, outputs))
    {name : List UInt8} {reply : HandShakeResponse}
    (accepted : Accepted ⟨before, event, outputs, after⟩ name reply) :
    Serves after name reply := by
  rw [(registry.preserved stepped).serves_iff_identities
    (List.mem_append_right _ (List.mem_singleton_self _)) accepted,
    identityOf_step registry.keyed stepped]
  rcases step_registers registry.keyed stepped with ⟨_, none⟩ | ⟨name', accepted', adds⟩
  · exact absurd accepted (none name reply)
  · cases event with
    | handShake restoreOrCreate data out =>
        obtain ⟨opens, rfl, _⟩ := accepted_iff.mp accepted
        obtain ⟨_, rfl, _⟩ := accepted_iff.mp accepted'
        rw [adds.identities, if_pos rfl]
        cases held : before.clients.find (Address.create (handShakeName data)).clientAddr with
        | none =>
            simp [identities, held]
        | some client =>
            have member := FiniteMap.mem_values.mpr ⟨_, held⟩
            obtain ⟨known, addr, _, _⟩ := registry.client member
            have same : client.name = handShakeName data := by
              by_contra different
              have apart := (distinct opens client member different).1
              rw [registry.keyed _ client held] at apart
              exact apart rfl
            rw [registry.keyed _ client held] at known
            rw [known, same]
            rfl
    | daemon | remoteMessage | busMessage | submit | receive =>
        exact absurd accepted (not_accepted_of_quiet (by simp) _ _)

/-- The step lemma: agreement goes on exactly if the handshake that is handled, if it
is one, is distinct from those before. -/
theorem Registry.agreement_snoc_iff (registry : Registry history before)
    (stepped : step before event = some (after, outputs)) :
    Agreement (history ++ [⟨before, event, outputs, after⟩]) after ↔
      Agreement history before ∧ Distinct before event := by
  constructor
  · intro agreement
    refine ⟨⟨?_, ?_⟩, registry.distinct agreement⟩
    · intro taken member name reply accepted
      exact (registry.serves_step stepped member accepted).mp
        (agreement.serves taken (List.mem_append_left _ member) name reply accepted)
    · intro first firstIn second secondIn
      exact agreement.apart first (List.mem_append_left _ firstIn) second
        (List.mem_append_left _ secondIn)
  · intro holds
    obtain ⟨agreement, distinct⟩ := holds
    refine ⟨?_, ?_⟩
    · intro taken member name reply accepted
      rcases List.mem_append.mp member with earlier | new
      · exact (registry.serves_step stepped earlier accepted).mpr
          (agreement.serves taken earlier name reply accepted)
      · cases List.mem_singleton.mp new
        exact registry.serves_new distinct stepped accepted
    · intro first firstIn second secondIn name other reply reply' known accepted different
      rcases List.mem_append.mp firstIn with firstOld | firstNew
      · rcases List.mem_append.mp secondIn with secondOld | secondNew
        · exact agreement.apart first firstOld second secondOld name other reply reply' known
            accepted different
        · cases List.mem_singleton.mp secondNew
          exact registry.apart agreement distinct firstOld known accepted different
      · cases List.mem_singleton.mp firstNew
        rcases List.mem_append.mp secondIn with secondOld | secondNew
        · obtain ⟨addr, apart⟩ :=
            registry.apart agreement distinct secondOld accepted known different.symm
          exact ⟨addr.symm, apart.symm⟩
        · cases List.mem_singleton.mp secondNew
          obtain ⟨_, _, _, rfl, rfl, _⟩ := known
          obtain ⟨_, _, _, ⟨⟩, rfl, _⟩ := accepted
          exact absurd rfl different

end Step

/-- In a run every accepted name is served, and different names by different clients
with buses of their own, exactly if every handshake is distinct from those before. -/
theorem agreement_run_iff {messageServerPort : Int32} {resolveServerAddress : NetAddress}
    {busLocation : List UInt8} {history : List (EventMachine.Taken Host Event Routed)}
    {host : Host} (run : machine.Run (fun _ _ => True)
      (initial messageServerPort resolveServerAddress busLocation) history host) :
    Agreement history host ↔ ∀ taken ∈ history, Distinct taken.before taken.event := by
  induction run with
  | nil => exact ⟨fun _ => by simp, fun _ => ⟨by simp, by simp⟩⟩
  | snoc earlier _ stepped ih =>
      rw [(registry_of_run earlier).agreement_snoc_iff stepped, ih]
      simp only [List.mem_append, List.mem_singleton, or_imp, forall_and, forall_eq]

/-- Clients `a` and `b` register, and `a` once more. -/
theorem agreement_run_iff_distinct :
    ∃ history host, host.clients.keys.length = 2 ∧ Agreement history host := by
  obtain ⟨history, host, run, both⟩ := EventMachine.exists_run_of_any
    machine Distinct (initial 8123 Daemon.someResolveServer [47, 116, 109, 112])
    [handShakeOf [97], handShakeOf [98], handShakeOf [97]]
    (fun reached => decide (reached.2.clients.keys.length = 2)) (by decide +kernel)
  refine ⟨history, host, of_decide_eq_true both,
    (agreement_run_iff (run.weaken fun _ _ _ => trivial)).mpr fun taken member => ?_⟩
  obtain ⟨_, _, distinct, _⟩ := run.of_mem member
  exact distinct

def registerOnly (host : Host) (name : List UInt8) : Host :=
  (host.handleInitCommand (fun _ _ => some []) (handShakeData name) ⟨.kOk, [], []⟩).1

/-- The names `a/x` and `b/x`: the second is told `kOk`, and what stands at its
address is the first. -/
theorem not_agreement_sameClientPart :
    ∃ history host, machine.Run (fun _ _ => True)
      (initial 8123 Daemon.someResolveServer [47, 116, 109, 112]) history host ∧
      ¬ Agreement history host := by
  have run (start : Host) : machine.Run (fun _ _ => True) start
      ([] ++ [⟨start, handShakeOf [97, 47, 120], [], start.registerOnly [97, 47, 120]⟩] ++
        [⟨start.registerOnly [97, 47, 120], handShakeOf [98, 47, 120], [],
          (start.registerOnly [97, 47, 120]).registerOnly [98, 47, 120]⟩])
      ((start.registerOnly [97, 47, 120]).registerOnly [98, 47, 120]) :=
    .snoc (.snoc .nil trivial rfl) trivial rfl
  refine ⟨_, _, run _, fun agreement => ?_⟩
  have named : handShakeName (handShakeData [98, 47, 120]) = [98, 47, 120] := by decide +kernel
  have accepted (start : Host) : Accepted ⟨start, handShakeOf [98, 47, 120], [],
      start.registerOnly [98, 47, 120]⟩ [98, 47, 120]
      ⟨.kOk, start.getOutputBusPath [98, 47, 120], start.getInputBusPath [98, 47, 120]⟩ :=
    accepted_iff.mpr ⟨⟨by decide +kernel, rfl, rfl⟩, named, rfl⟩
  obtain ⟨client, found, own, _⟩ := agreement.serves _
    (List.mem_append_right _ (List.mem_singleton_self _)) _ _ (accepted _)
  have first : ((((initial 8123 Daemon.someResolveServer [47, 116, 109, 112]).registerOnly
      [97, 47, 120]).registerOnly [98, 47, 120]).clients.find
        (someKey [98, 47, 120])).map (fun client => client.name) = some [97, 47, 120] := by
    decide +kernel
  have held : _ = some client := found
  rw [someKey, held, Option.map_some, own] at first
  cases first

end Cpmd.Host
