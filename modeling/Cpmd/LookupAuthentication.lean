import Cpmd.ResolveServerProperties

/-! Whose lookups the resolve server answers. -/

set_option autoImplicit false

namespace Cpmd.Service

open Library

/-- The connection has been initialised with success under an address. -/
def Initialized (history : List (EventMachine.Taken State Event Replied)) (conn : Nat)
    (nodeAddr : UInt32) : Prop :=
  ∃ req reply written, ⟨conn, req, true, some reply, written⟩ ∈ EventMachine.outputs history ∧
    req.type = .kInitializeSelf ∧ reply.nodeAddr = nodeAddr

def AcceptsLookup (state : State) (connection : ServiceConnection) (req : ResolveRequest) :
    Prop :=
  ∃ handled, state.server.handleNodeLookup state.conns connection req = some handled ∧
    handled.preserve = true

/-- A connection's context holds the address it was initialised under, and what
is registered holds the address it is registered under. -/
structure Contexts (history : List (EventMachine.Taken State Event Replied)) (state : State) :
    Prop where
  initialized : ∀ conn nodeAddr, Initialized history conn nodeAddr ↔
    ∃ connection, state.conns.find conn = some connection ∧
      connection.context = .nodeAddr nodeAddr
  registered : ∀ nodeAddr conn, state.server.connections.find nodeAddr = some conn →
    ∃ connection, state.conns.find conn = some connection ∧
      connection.context = .nodeAddr nodeAddr
  fresh : Fresh state

theorem initialized_snoc {history : List (EventMachine.Taken State Event Replied)}
    {taken : EventMachine.Taken State Event Replied} {conn : Nat} {nodeAddr : UInt32} :
    Initialized (history ++ [taken]) conn nodeAddr ↔ Initialized history conn nodeAddr ∨
      ∃ req reply written, ⟨conn, req, true, some reply, written⟩ ∈ taken.outputs ∧
        req.type = .kInitializeSelf ∧ reply.nodeAddr = nodeAddr := by
  unfold Initialized
  rw [EventMachine.outputs_snoc]
  constructor
  · intro answered
    obtain ⟨req, reply, written, member, kind, address⟩ := answered
    rcases List.mem_append.mp member with old | new
    · exact .inl ⟨req, reply, written, old, kind, address⟩
    · exact .inr ⟨req, reply, written, new, kind, address⟩
  · rintro (⟨req, reply, written, member, kind, address⟩ |
      ⟨req, reply, written, member, kind, address⟩)
    · exact ⟨req, reply, written, List.mem_append_left _ member, kind, address⟩
    · exact ⟨req, reply, written, List.mem_append_right _ member, kind, address⟩

theorem contexts_initial (conf : ResolveServerConf) : Contexts [] (State.initial conf) where
  initialized := by simp [Initialized, State.initial]
  registered := by simp [State.initial]
  fresh := by simp [Fresh, State.initial]

theorem Contexts.keep {history : List (EventMachine.Taken State Event Replied)}
    {before after : State} {event : Event} {outputs : List Replied} {conn : Nat}
    {connection : ServiceConnection} (moved : ServiceConnection)
    (contexts : Contexts history before) (fresh : Fresh after)
    (found : before.conns.find conn = some connection)
    (conns : after.conns = before.conns.assign conn moved)
    (context : moved.context = connection.context)
    (registered : ∀ nodeAddr other, after.server.connections.find nodeAddr = some other →
      before.server.connections.find nodeAddr = some other)
    (silent : ∀ other req reply written,
      (⟨other, req, true, some reply, written⟩ : Replied) ∈ outputs →
      req.type ≠ .kInitializeSelf) :
    Contexts (history ++ [⟨before, event, outputs, after⟩]) after := by
  have kept (other : Nat) (nodeAddr : UInt32) :
      (∃ connection, after.conns.find other = some connection ∧
        connection.context = .nodeAddr nodeAddr) ↔
      ∃ connection, before.conns.find other = some connection ∧
        connection.context = .nodeAddr nodeAddr := by
    rw [conns, FiniteMap.find_assign]
    by_cases same : other = conn
    · subst same
      simp [found, context]
    · rw [if_neg same]
  refine ⟨fun other nodeAddr => ?_, fun nodeAddr other entry => ?_, fresh⟩
  · rw [initialized_snoc, contexts.initialized, kept]
    refine ⟨fun either => either.resolve_right ?_, .inl⟩
    intro answered
    obtain ⟨req, reply, written, member, kind, _⟩ := answered
    exact silent _ _ _ _ member kind
  · exact (kept other nodeAddr).mpr (contexts.registered nodeAddr other
      (registered nodeAddr other entry))

theorem Contexts.preserved {history : List (EventMachine.Taken State Event Replied)}
    {before after : State} {event : Event} {outputs : List Replied}
    (contexts : Contexts history before)
    (stepped : step before event = some (after, outputs)) :
    Contexts (history ++ [⟨before, event, outputs, after⟩]) after := by
  have fresh := fresh_step contexts.fresh stepped
  cases step_transition stepped with
  | @opened peerAddr =>
      have unused : before.conns.find before.nextConn = none := by
        cases found : before.conns.find before.nextConn with
        | none => rfl
        | some connection => exact absurd (contexts.fresh _ _ found) (Nat.lt_irrefl _)
      refine ⟨fun conn nodeAddr => ?_, fun nodeAddr conn entry => ?_, fresh⟩
      · rw [initialized_snoc, contexts.initialized, FiniteMap.find_assign]
        by_cases same : conn = before.nextConn
        · simp [same, unused]
        · simp [same]
      · obtain ⟨connection, found, context⟩ := contexts.registered nodeAddr conn entry
        refine ⟨connection, ?_, context⟩
        rw [FiniteMap.find_assign, if_neg (Nat.ne_of_lt (contexts.fresh conn _ found))]
        exact found
  | @initialized conn timer connection req written node found kind listed held =>
      refine ⟨fun other nodeAddr => ?_, fun nodeAddr other entry => ?_, fresh⟩
      · rw [initialized_snoc, contexts.initialized, FiniteMap.find_assign]
        by_cases same : other = conn
        · subst same
          simp [found, held, kind]
        · simp [same]
      · rw [FiniteMap.find_emplace] at entry
        rw [FiniteMap.find_assign]
        have kept : before.server.connections.find nodeAddr = some other →
            ∃ connection', (if other = conn then
                some { connection with context := .nodeAddr node.nodeAddr }
              else before.conns.find other) = some connection' ∧
              connection'.context = .nodeAddr nodeAddr := by
          intro old
          obtain ⟨connection', there, context⟩ := contexts.registered nodeAddr other old
          have different : other ≠ conn := by
            intro equal
            subst equal
            rw [found] at there
            cases there
            rw [held] at context
            cases context
          rw [if_neg different]
          exact ⟨connection', there, context⟩
        split at entry
        · rename_i address
          cases taken : before.server.connections.find node.nodeAddr with
          | none =>
              rw [taken] at entry
              cases entry
              refine ⟨_, if_pos rfl, ?_⟩
              rw [address]
          | some holder =>
              rw [taken] at entry
              cases entry
              exact kept (address ▸ taken)
        · exact kept entry
  | @answered conn connection req written preserve closed reply found refused _ =>
      refine contexts.keep { connection with closed := closed } fresh found rfl rfl
        (fun _ _ entry => entry) ?_
      intro other req' reply' written' member kind
      cases List.mem_singleton.mp member
      exact absurd (refused kind).1 (by decide)
  | @shut _ conn connection timers _ found =>
      exact contexts.keep { connection with closed := true } fresh found rfl rfl
        (fun _ _ entry => entry) (by simp)
  | @closed conn connection found _ =>
      refine contexts.keep { connection with released := true } fresh found rfl rfl ?_ (by simp)
      intro nodeAddr other entry
      cases context : connection.context with
      | none | timerId timer => simpa only [ResolveServer.onClose, context] using entry
      | nodeAddr own =>
          simp only [ResolveServer.onClose, context, FiniteMap.find_remove] at entry
          split at entry
          · cases entry
          · exact entry

theorem Contexts.registeredAddr_eq {history : List (EventMachine.Taken State Event Replied)}
    {state : State} (contexts : Contexts history state) {nodeAddr : UInt32} {registered : Nat}
    (entry : state.server.connections.find nodeAddr = some registered) :
    ResolveServer.registeredAddr state.conns registered = some nodeAddr := by
  obtain ⟨holder, there, context⟩ := contexts.registered _ _ entry
  simp [ResolveServer.registeredAddr, there, context]

theorem Contexts.acceptsLookup_iff {history : List (EventMachine.Taken State Event Replied)}
    {state : State} (contexts : Contexts history state) (connection : ServiceConnection)
    (req : ResolveRequest) :
    AcceptsLookup state connection req ↔
      state.server.connections.find req.selfAddr ≠ none := by
  unfold AcceptsLookup ResolveServer.handleNodeLookup
  cases entry : state.server.connections.find req.selfAddr with
  | none => simp
  | some registered =>
      simp only [contexts.registeredAddr_eq entry]
      cases state.server.conf.getNodeInfoByNodeAddress req.peerAddr <;> simp

/-- A lookup is accepted only from the node it claims to be from, exactly if no
connection is registered under the address it claims, or its own context holds
that address. -/
theorem acceptsLookup_authentic_iff {conf : ResolveServerConf}
    {history : List (EventMachine.Taken State Event Replied)} {state : State}
    (run : machine.Run (fun _ _ => True) (State.initial conf) history state) {conn : Nat}
    {connection : ServiceConnection} (found : state.conns.find conn = some connection)
    (req : ResolveRequest) :
    (AcceptsLookup state connection req → Initialized history conn req.selfAddr) ↔
      (state.server.connections.find req.selfAddr = none ∨
        connection.context = .nodeAddr req.selfAddr) := by
  have contexts := run.invariant Contexts (contexts_initial conf)
    (fun _ _ _ _ _ holds _ stepped => holds.preserved stepped)
  have own : Initialized history conn req.selfAddr ↔
      connection.context = .nodeAddr req.selfAddr := by
    rw [contexts.initialized, found]
    simp
  rw [contexts.acceptsLookup_iff, own]
  by_cases free : state.server.connections.find req.selfAddr = none <;> simp [free]

def someLookup : ResolveRequest := ⟨.kLookupNode, someConfNode.nodeAddr, 0, someConfNode.nodeAddr⟩

/-- On a connection that was initialised, this lookup passes. -/
theorem acceptsLookup_authentic_iff_own :
    ∃ history state connection,
      machine.Run (fun _ _ => True) (State.initial someConf) history state ∧
      state.conns.find 0 = some connection ∧
      connection.context = .nodeAddr someLookup.selfAddr ∧
      (AcceptsLookup state connection someLookup →
        Initialized history 0 someLookup.selfAddr) := by
  obtain ⟨history, state, run, initialized⟩ := EventMachine.exists_run_of_any
    machine (fun _ _ => True) (State.initial someConf)
    [.newConnection somePeerAddr, .request 0 someInitialize true]
    (fun reached => decide (reached.2.conns.find 0 =
      some ⟨somePeerAddr, .nodeAddr someConfNode.nodeAddr, false, false⟩)) (by decide)
  have found := of_decide_eq_true initialized
  exact ⟨history, state, _, run, found, rfl,
    (acceptsLookup_authentic_iff run found someLookup).mpr (.inr rfl)⟩

/-- A second connection that never initialised itself gets the same answer. -/
theorem acceptsLookup_not_authentic :
    ∃ history state connection,
      machine.Run (fun _ _ => True) (State.initial someConf) history state ∧
      state.conns.find 1 = some connection ∧
      AcceptsLookup state connection someLookup ∧
      ∀ nodeAddr, ¬ Initialized history 1 nodeAddr := by
  obtain ⟨history, state, run, reached⟩ := EventMachine.exists_run_of_any
    machine (fun _ _ => True) (State.initial someConf)
    [.newConnection somePeerAddr, .request 0 someInitialize true, .newConnection somePeerAddr]
    (fun reached => decide
      (reached.2.server.connections.find someLookup.selfAddr = some 0 ∧
        reached.2.conns.find 1 = some ⟨somePeerAddr, .timerId 1, false, false⟩)) (by decide)
  obtain ⟨registered, second⟩ := of_decide_eq_true reached
  have contexts := run.invariant Contexts (contexts_initial someConf)
    (fun _ _ _ _ _ holds _ stepped => holds.preserved stepped)
  refine ⟨history, state, _, run, second, ?_, fun nodeAddr initialized => ?_⟩
  · rw [contexts.acceptsLookup_iff, registered]
    exact Option.some_ne_none 0
  · obtain ⟨connection, found, context⟩ := (contexts.initialized 1 nodeAddr).mp initialized
    rw [second] at found
    cases found
    cases context

end Cpmd.Service
