import Cpmd.ResolveServerProperties

/-! The registry of the resolve server: which connection speaks for which node. -/

set_option autoImplicit false

namespace Cpmd.Service

open Library

/-- A connection that is open, its `OnClose` not having run, and whose context
holds a node address. -/
def SpeaksFor (state : State) (conn : Nat) (nodeAddr : UInt32) : Prop :=
  ∃ connection, state.conns.find conn = some connection ∧ connection.released = false ∧
    connection.context = .nodeAddr nodeAddr

/-- `connections_` has an address for a connection exactly if that speaks for it. -/
def Registry (state : State) : Prop :=
  ∀ nodeAddr conn, state.server.connections.find nodeAddr = some conn ↔
    SpeaksFor state conn nodeAddr

/-- An accepted `kInitializeSelf` finds its address free exactly if its
connection is still open. -/
def InitializesFree (state : State) : Event → Prop
  | .request conn req _ =>
      req.type = .kInitializeSelf → ∀ connection ∈ state.conns.find conn,
        ∀ node ∈ state.server.conf.getNodeInfoByNetAddress
          ⟨connection.peerAddr.ip, req.cpmdPort⟩,
          (connection.released = false ↔ state.server.connections.find node.nodeAddr = none)
  | _ => True

theorem SpeaksFor.context_eq {state : State} {conn : Nat} {nodeAddr : UInt32}
    {connection : ServiceConnection} (speaks : SpeaksFor state conn nodeAddr)
    (found : state.conns.find conn = some connection) :
    connection.context = .nodeAddr nodeAddr := by
  obtain ⟨holder, held, _, context⟩ := speaks
  rw [found] at held
  cases held
  exact context

theorem speaksFor_assign {before after : State} {other : Nat} {moved : ServiceConnection}
    (conns : after.conns = before.conns.assign other moved) (conn : Nat) (nodeAddr : UInt32) :
    SpeaksFor after conn nodeAddr ↔
      if conn = other then moved.released = false ∧ moved.context = .nodeAddr nodeAddr
      else SpeaksFor before conn nodeAddr := by
  unfold SpeaksFor
  rw [conns]
  simp only [FiniteMap.find_assign]
  by_cases same : conn = other <;> simp [same]

theorem speaksFor_of_same {before after : State} {other : Nat}
    {connection : ServiceConnection} (moved : ServiceConnection)
    (found : before.conns.find other = some connection)
    (conns : after.conns = before.conns.assign other moved)
    (released : moved.released = connection.released)
    (context : moved.context = connection.context) (conn : Nat) (nodeAddr : UInt32) :
    SpeaksFor after conn nodeAddr ↔ SpeaksFor before conn nodeAddr := by
  rw [speaksFor_assign conns]
  by_cases same : conn = other
  · subst same
    rw [if_pos rfl, released, context]
    simp [SpeaksFor, found]
  · rw [if_neg same]

theorem registry_initialized {before after : State} {conn timer : Nat}
    {connection : ServiceConnection} {node : ConfNode} (registry : Registry before)
    (found : before.conns.find conn = some connection)
    (held : connection.context = .timerId timer)
    (connections : after.server.connections =
      (before.server.connections.emplace node.nodeAddr conn).1)
    (conns : after.conns =
      before.conns.assign conn { connection with context := .nodeAddr node.nodeAddr }) :
    Registry after ↔
      (connection.released = false ↔ before.server.connections.find node.nodeAddr = none) := by
  have speaks := speaksFor_assign conns
  have silent (nodeAddr : UInt32) : before.server.connections.find nodeAddr ≠ some conn := by
    intro entry
    have context := ((registry nodeAddr conn).mp entry).context_eq found
    rw [held] at context
    cases context
  have own : Registry after → (connection.released = false ↔
      before.server.connections.find node.nodeAddr = none) := by
    intro agrees
    have entry := agrees node.nodeAddr conn
    rw [connections, FiniteMap.find_emplace, if_pos rfl, speaks, if_pos rfl] at entry
    cases taken : before.server.connections.find node.nodeAddr with
    | none =>
        rw [taken] at entry
        simpa using entry
    | some other =>
        rw [taken] at entry
        have different : other ≠ conn := by
          intro equal
          subst equal
          exact silent _ taken
        simpa [different] using entry
  refine ⟨own, fun free nodeAddr other => ?_⟩
  rw [connections, FiniteMap.find_emplace, speaks]
  by_cases address : nodeAddr = node.nodeAddr
  · subst address
    rw [if_pos rfl]
    cases taken : before.server.connections.find node.nodeAddr with
    | none =>
        have opened : connection.released = false := free.mpr taken
        have unspoken : ¬ SpeaksFor before other node.nodeAddr := by
          rw [← registry, taken]
          simp
        by_cases same : other = conn
        · simp [same, opened]
        · simp [same, Ne.symm same, unspoken]
    | some holder =>
        have gone : connection.released = true := by
          cases release : connection.released with
          | true => rfl
          | false => rw [free.mp release] at taken; cases taken
        rw [← registry, taken]
        by_cases same : other = conn
        · have different : holder ≠ conn := by
            intro equal
            subst equal
            exact silent _ taken
          simp [same, different, gone]
        · simp [same]
  · rw [if_neg address, registry]
    by_cases same : other = conn
    · have unspoken : ¬ SpeaksFor before conn nodeAddr := by
        rw [← registry]
        exact silent nodeAddr
      simp [same, unspoken, Ne.symm address]
    · simp [same]

/-- The step lemma: from an agreeing state, a step leads to one exactly if it
initialises no connection out of turn. -/
theorem registry_step_iff {before after : State} {event : Event} {outputs : List Replied}
    (fresh : Fresh before) (registry : Registry before)
    (stepped : step before event = some (after, outputs)) :
    Registry after ↔ InitializesFree before event := by
  cases step_transition stepped with
  | @opened peerAddr =>
      refine iff_of_true (fun nodeAddr conn => ?_) trivial
      refine (registry nodeAddr conn).trans (Iff.symm ?_)
      rw [@speaksFor_assign before _ _ _ rfl]
      by_cases same : conn = before.nextConn
      · have unspoken : ¬ SpeaksFor before conn nodeAddr := by
          intro held
          obtain ⟨connection, found, _⟩ := held
          exact absurd (fresh conn connection found) (by omega)
        simp [same, same ▸ unspoken]
      · rw [if_neg same]
  | @initialized conn timer connection req written node found kind listed held =>
      rw [registry_initialized registry found held rfl rfl]
      constructor
      · intro free _ connection' found' node' listed'
        rw [Option.mem_def.mp found'] at found
        cases found
        rw [Option.mem_def.mp listed'] at listed
        cases listed
        exact free
      · intro free
        exact free kind connection found node listed
  | @answered conn connection req written preserve closed reply found refused _ =>
      refine iff_of_true (fun nodeAddr other => ?_) ?_
      · exact (registry nodeAddr other).trans
          (speaksFor_of_same { connection with closed := closed } found rfl rfl rfl other
            nodeAddr).symm
      · intro kind connection' found' node listed
        rw [Option.mem_def.mp found'] at found
        cases found
        rw [(refused kind).2] at listed
        cases listed
  | @shut event conn connection timers which found =>
      refine iff_of_true (fun nodeAddr other => ?_) ?_
      · exact (registry nodeAddr other).trans
          (speaksFor_of_same { connection with closed := true } found rfl rfl rfl other
            nodeAddr).symm
      · rcases which with rfl | ⟨timer, rfl⟩ <;> trivial
  | @closed conn connection found opened =>
      refine iff_of_true (fun nodeAddr other => ?_) trivial
      rw [@speaksFor_assign before _ _ _ rfl]
      cases context : connection.context with
      | nodeAddr own =>
          have mine : before.server.connections.find own = some conn :=
            (registry own conn).mpr ⟨connection, found, opened, context⟩
          simp only [ResolveServer.onClose, context, FiniteMap.find_remove]
          by_cases address : nodeAddr = own
          · subst address
            by_cases same : other = conn
            · simp [same]
            · rw [← registry, mine]
              simp [same, Ne.symm same]
          · rw [if_neg address, registry]
            by_cases same : other = conn
            · have unspoken : ¬ SpeaksFor before conn nodeAddr := by
                intro speaks
                have spoken := speaks.context_eq found
                rw [context] at spoken
                cases spoken
                exact address rfl
              simp [same, unspoken]
            · simp [same]
      | none | timerId timer =>
          simp only [ResolveServer.onClose, context]
          rw [registry]
          by_cases same : other = conn
          · have unspoken : ¬ SpeaksFor before conn nodeAddr := by
              intro speaks
              have spoken := speaks.context_eq found
              rw [context] at spoken
              cases spoken
            simp [same, unspoken]
          · simp [same]

theorem registry_initial (conf : ResolveServerConf) : Registry (State.initial conf) := by
  intro nodeAddr conn
  simp [State.initial, SpeaksFor]

theorem Registry.unique {state : State} (registry : Registry state) {left right : Nat}
    {nodeAddr : UInt32} (leftSpeaks : SpeaksFor state left nodeAddr)
    (rightSpeaks : SpeaksFor state right nodeAddr) : left = right := by
  have entry := (registry nodeAddr left).mpr leftSpeaks
  rw [(registry nodeAddr right).mpr rightSpeaks] at entry
  exact (Option.some.inj entry).symm

theorem Registry.undisturbed {before after : State} {conn other : Nat} {nodeAddr : UInt32}
    {outputs : List Replied} (registry : Registry before)
    (stepped : step before (.close conn) = some (after, outputs)) (different : other ≠ conn)
    (entry : before.server.connections.find nodeAddr = some other) :
    after.server.connections.find nodeAddr = some other := by
  have transition := step_transition stepped
  refine transition.keepsRegistered entry ?_
  rintro holder connection found context ⟨⟩
  cases transition with
  | shut which _ => rcases which with impossible | ⟨_, impossible⟩ <;> cases impossible
  | closed found' opened =>
      rw [found] at found'
      cases found'
      exact different (registry.unique ((registry nodeAddr other).mp entry)
        ⟨connection, found, opened, context⟩)

/-- In a run in which each accepted initialisation finds its address free, the
registry and the contexts agree; so no two connections speak for one address, and
closing one leaves the registrations of the others. -/
theorem registry_run {conf : ResolveServerConf}
    {history : List (EventMachine.Taken State Event Replied)} {state : State}
    (run : machine.Run InitializesFree (State.initial conf) history state) :
    Registry state ∧
      (∀ left right nodeAddr, SpeaksFor state left nodeAddr → SpeaksFor state right nodeAddr →
        left = right) ∧
      (∀ conn after outputs other nodeAddr,
        step state (.close conn) = some (after, outputs) → other ≠ conn →
        state.server.connections.find nodeAddr = some other →
        after.server.connections.find nodeAddr = some other) := by
  have both : Fresh state ∧ Registry state :=
    run.state_invariant (fun state => Fresh state ∧ Registry state)
      ⟨fun _ _ found => by simp [State.initial] at found, registry_initial conf⟩
      (fun _ _ _ _ holds free stepped => ⟨fresh_step holds.1 stepped,
        (registry_step_iff holds.1 holds.2 stepped).mpr free⟩)
  exact ⟨both.2, fun _ _ _ left right => both.2.unique left right,
    fun _ _ _ _ _ stepped different entry => both.2.undisturbed stepped different entry⟩

instance (state : State) : ∀ event, Decidable (InitializesFree state event)
  | .request conn req _ => inferInstanceAs (Decidable (_ → ∀ connection ∈ state.conns.find conn,
      ∀ node ∈ state.server.conf.getNodeInfoByNetAddress
        ⟨connection.peerAddr.ip, req.cpmdPort⟩, (_ ↔ _)))
  | .newConnection _ | .kickOff _ | .foundClosed _ | .close _ => inferInstanceAs (Decidable True)

/-- A daemon initialises itself, is lost, and does so again on a new connection. -/
theorem registry_run_reconnect :
    ∃ history state, machine.Run (fun _ _ => True) (State.initial someConf) history state ∧
      state.server.connections.find someConfNode.nodeAddr = some 1 ∧
      Registry state ∧
      (∀ left right nodeAddr, SpeaksFor state left nodeAddr → SpeaksFor state right nodeAddr →
        left = right) ∧
      (∀ conn after outputs other nodeAddr,
        step state (.close conn) = some (after, outputs) → other ≠ conn →
        state.server.connections.find nodeAddr = some other →
        after.server.connections.find nodeAddr = some other) := by
  obtain ⟨history, state, run, second⟩ := EventMachine.exists_run_of_any
    machine InitializesFree (State.initial someConf)
    [.newConnection somePeerAddr, .request 0 someInitialize true, .foundClosed 0, .close 0,
      .newConnection somePeerAddr, .request 1 someInitialize true]
    (fun reached => reached.2.server.connections.find someConfNode.nodeAddr == some 1)
    (by decide)
  exact ⟨history, state, run.weaken (fun _ _ _ => trivial), eq_of_beq second, registry_run run⟩

/-- The daemon does so before its first connection is noticed to be lost: the
second one speaks for the address, and the registry keeps the first. -/
theorem not_registry_duplicate :
    ∃ history state, machine.Run (fun _ _ => True) (State.initial someConf) history state ∧
      ¬ Registry state := by
  obtain ⟨history, state, run, both⟩ := EventMachine.exists_run_of_any
    machine (fun _ _ => True) (State.initial someConf)
    [.newConnection somePeerAddr, .request 0 someInitialize true,
      .newConnection somePeerAddr, .request 1 someInitialize true]
    (fun reached => decide (reached.2.server.connections.find someConfNode.nodeAddr = some 0 ∧
      reached.2.conns.find 1 =
        some ⟨somePeerAddr, .nodeAddr someConfNode.nodeAddr, false, false⟩)) (by decide)
  obtain ⟨first, second⟩ := of_decide_eq_true both
  refine ⟨history, state, run, fun registry => ?_⟩
  have entry := (registry someConfNode.nodeAddr 1).mpr ⟨_, second, rfl, rfl⟩
  rw [first] at entry
  cases entry

end Cpmd.Service
