import Cpmd.LookupAuthentication
import Cpmd.ReplyMemory

/-! The assertions of the resolve server, and the null contexts it could meet, under
whatever its clients request. -/

set_option autoImplicit false

namespace Cpmd

open Library

namespace ResolveServer

/-- The assertions of `HandleNodeInit` and of the setters it calls. The last one is
about the timer id, which is dereferenced next. -/
def AssertsNodeInit (server : ResolveServer) (conn : Nat) (connection : ServiceConnection)
    (req : ResolveRequest) : Prop :=
  ∀ node ∈ server.conf.getNodeInfoByNetAddress ⟨connection.peerAddr.ip, req.cpmdPort⟩,
    ResolveResponse.Builder.AssertsNodeIp connection.peerAddr.ip ∧
      ResolveResponse.Builder.AssertsNodePath node.readableAddr ∧
      (server.connections.emplace node.nodeAddr conn).2 = true ∧
      ∃ timer, connection.context = .timerId timer

/-- The assertions of `HandleNodeLookup` and of the setters it calls. -/
def AssertsNodeLookup (server : ResolveServer) (conns : FiniteMap Nat ServiceConnection)
    (connection : ServiceConnection) (req : ResolveRequest) : Prop :=
  connection.context ≠ .none ∧
    ∀ registered ∈ server.connections.find req.selfAddr,
      ∃ nodeAddr, registeredAddr conns registered = some nodeAddr ∧
        (req.selfAddr = nodeAddr →
          ∀ node ∈ server.conf.getNodeInfoByNodeAddress req.peerAddr,
            node.nodeAddr = req.peerAddr ∧ node.FitsFields)

def AssertsMessage (server : ResolveServer) (conns : FiniteMap Nat ServiceConnection)
    (conn : Nat) (connection : ServiceConnection) (req : ResolveRequest) : Prop :=
  match req.type with
  | .kInitializeSelf => server.AssertsNodeInit conn connection req
  | .kLookupNode => server.AssertsNodeLookup conns connection req
  | .unknown _ => True

def AssertsClose (server : ResolveServer) (connection : ServiceConnection) : Prop :=
  ∀ nodeAddr, connection.context = .nodeAddr nodeAddr → server.connections.find nodeAddr ≠ none

/-- Where the assertions hold, no null context is dereferenced. -/
theorem AssertsMessage.returns {server : ResolveServer}
    {conns : FiniteMap Nat ServiceConnection} {conn : Nat} {connection : ServiceConnection}
    {req : ResolveRequest} (asserts : server.AssertsMessage conns conn connection req) :
    server.onMessage conns conn connection req ≠ none := by
  rw [Option.ne_none_iff_exists']
  unfold AssertsMessage at asserts
  cases kind : req.type with
  | kInitializeSelf =>
      rw [kind] at asserts
      cases listed : server.conf.getNodeInfoByNetAddress ⟨connection.peerAddr.ip, req.cpmdPort⟩ with
      | none => exact ⟨_, (Handles.initRefused kind listed).onMessage⟩
      | some node =>
          obtain ⟨_, _, _, timer, held⟩ := asserts node listed
          exact ⟨_, (Handles.initialized kind listed held).onMessage⟩
  | kLookupNode =>
      rw [kind] at asserts
      cases entry : server.connections.find req.selfAddr with
      | none => exact ⟨_, (Handles.unregistered kind entry).onMessage⟩
      | some registered =>
          obtain ⟨nodeAddr, held, _⟩ := asserts.2 registered entry
          by_cases same : req.selfAddr = nodeAddr
          · subst same
            cases listed : server.conf.getNodeInfoByNodeAddress req.peerAddr with
            | none => exact ⟨_, (Handles.lookupFailed kind entry held listed).onMessage⟩
            | some node => exact ⟨_, (Handles.found kind entry held listed).onMessage⟩
          · exact ⟨_, (Handles.foreign kind entry held same).onMessage⟩
  | unknown type => exact ⟨_, (Handles.unknown kind).onMessage⟩

end ResolveServer

namespace Service

/-- No assertion fails in the handler of the event, nor does it use a null context. -/
def Survives (state : State) : Event → Prop
  | .request conn req _ =>
      ∀ connection ∈ state.conns.find conn,
        state.server.AssertsMessage state.conns conn connection req ∧
          state.server.onMessage state.conns conn connection req ≠ none
  | .close conn =>
      ∀ connection ∈ state.conns.find conn,
        connection.closed = true → connection.released = false →
          state.server.AssertsClose connection
  | .newConnection _ | .kickOff _ | .foundClosed _ => True

/-- The connection that asks to be initialised, and the node it claims to be. -/
def claim (state : State) : Event → Option (Nat × UInt32)
  | .request conn req _ =>
      if req.type = .kInitializeSelf then
        match state.conns.find conn with
        | some connection =>
            (state.server.conf.getNodeInfoByNetAddress
              ⟨connection.peerAddr.ip, req.cpmdPort⟩).map fun node => (conn, node.nodeAddr)
        | none => none
      else none
  | _ => none

def claims (history : List (EventMachine.Taken State Event Replied)) : List (Nat × UInt32) :=
  history.filterMap fun taken => claim taken.before taken.event

/-- No two connections claim the same node. -/
def Unrivalled (claims : List (Nat × UInt32)) : Prop :=
  ∀ left ∈ claims, ∀ right ∈ claims, left.2 = right.2 → left.1 = right.1

/-- A connection that claims a node has not been given one before. -/
def InitializesOnce (state : State) : Event → Prop
  | .request conn req _ =>
      req.type = .kInitializeSelf → ∀ connection ∈ state.conns.find conn,
        ∀ node ∈ state.server.conf.getNodeInfoByNetAddress
          ⟨connection.peerAddr.ip, req.cpmdPort⟩,
          ∀ nodeAddr, connection.context ≠ .nodeAddr nodeAddr
  | _ => True

/-- A context is never empty again. One that holds a node address was claimed, and is
registered until `OnClose`. -/
structure Typestate (claims : List (Nat × UInt32)) (state : State) : Prop where
  occupied : ∀ conn connection, state.conns.find conn = some connection →
    connection.context ≠ .none
  claimed : ∀ conn connection nodeAddr, state.conns.find conn = some connection →
    connection.context = .nodeAddr nodeAddr → (conn, nodeAddr) ∈ claims
  registered : ∀ conn connection nodeAddr, state.conns.find conn = some connection →
    connection.released = false → connection.context = .nodeAddr nodeAddr →
    state.server.connections.find nodeAddr = some conn

theorem Unrivalled.earlier {old new : List (Nat × UInt32)}
    (unrivalled : Unrivalled (old ++ new)) : Unrivalled old := by
  intro left leftClaim right rightClaim same
  exact unrivalled left (List.mem_append_left _ leftClaim) right
    (List.mem_append_left _ rightClaim) same

theorem claims_snoc {history : List (EventMachine.Taken State Event Replied)}
    {taken : EventMachine.Taken State Event Replied} :
    claims (history ++ [taken]) =
      claims history ++ (claim taken.before taken.event).toList := by
  unfold claims
  rw [List.filterMap_append]
  cases noted : claim taken.before taken.event <;> simp [noted]

theorem claim_request {state : State} {conn : Nat} {connection : ServiceConnection}
    {req : ResolveRequest} {written : Bool} {node : ConfNode}
    (found : state.conns.find conn = some connection) (kind : req.type = .kInitializeSelf)
    (listed : state.server.conf.getNodeInfoByNetAddress ⟨connection.peerAddr.ip, req.cpmdPort⟩ =
      some node) :
    claim state (.request conn req written) = some (conn, node.nodeAddr) := by
  simp [claim, kind, found, listed]

theorem typestate_initial (conf : ResolveServerConf) : Typestate [] (State.initial conf) where
  occupied := by simp [State.initial]
  claimed := by simp [State.initial]
  registered := by simp [State.initial]

/-- Who claims a node that nobody else claims finds its address free. -/
theorem Typestate.free {history : List (EventMachine.Taken State Event Replied)} {state : State}
    {conn timer : Nat} {connection : ServiceConnection} {node : ConfNode}
    (typed : Typestate (claims history) state) (contexts : Contexts history state)
    (unrivalled : Unrivalled (claims history ++ [(conn, node.nodeAddr)]))
    (found : state.conns.find conn = some connection)
    (held : connection.context = .timerId timer) :
    state.server.connections.find node.nodeAddr = none := by
  cases entry : state.server.connections.find node.nodeAddr with
  | none => rfl
  | some other =>
      obtain ⟨holder, there, context⟩ := contexts.registered _ _ entry
      have earlier := typed.claimed other holder node.nodeAddr there context
      have same : other = conn := unrivalled _ (List.mem_append_left _ earlier) _
        (List.mem_append_right _ (List.mem_singleton.mpr rfl)) rfl
      subst same
      rw [found] at there
      cases there
      rw [held] at context
      cases context

theorem Typestate.preserved {history : List (EventMachine.Taken State Event Replied)}
    {before after : State} {event : Event} {outputs : List Replied}
    (typed : Typestate (claims history) before) (contexts : Contexts history before)
    (unrivalled : Unrivalled (claims history ++ (claim before event).toList))
    (stepped : step before event = some (after, outputs)) :
    Typestate (claims history ++ (claim before event).toList) after := by
  have transition := step_transition stepped
  refine ⟨transition.occupied typed.occupied, fun conn connection nodeAddr found context => ?_,
    fun conn connection nodeAddr found opened context => ?_⟩
  · rcases transition.context_origin found context with ⟨old, held, same⟩ |
      ⟨req, written, old, node, rfl, kind, held, listed, rfl⟩
    · exact List.mem_append_left _ (typed.claimed conn old nodeAddr held same)
    · rw [claim_request held kind listed]
      exact List.mem_append_right _ (List.mem_singleton.mpr rfl)
  · rcases transition.origin found with ⟨_, _, _, rfl⟩ | ⟨old, held, same, stays, _⟩ |
      ⟨req, written, old, node, timer, rfl, kind, held, listed, pending, rfl, connections, _⟩
    · cases context
    · rw [same] at context
      obtain ⟨unreleased, unclosed⟩ := stays opened
      refine transition.keepsRegistered
        (typed.registered conn old nodeAddr held unreleased context) ?_
      intro other holder there own equal
      subst equal
      have rival : other = conn := unrivalled.earlier _
        (typed.claimed other holder nodeAddr there own) _
        (typed.claimed conn old nodeAddr held context) rfl
      exact unclosed (by rw [rival])
    · cases context
      rw [claim_request held kind listed] at unrivalled
      rw [connections, FiniteMap.find_emplace, if_pos rfl,
        typed.free contexts unrivalled held pending]
      rfl

/-- The step lemma: a handler survives exactly if it does not initialise a connection
again. -/
theorem Typestate.survives_iff {history : List (EventMachine.Taken State Event Replied)}
    {state : State} {event : Event} (typed : Typestate (claims history) state)
    (contexts : Contexts history state) (indexed : state.server.conf.Indexed)
    (fits : state.server.conf.FitsFields)
    (unrivalled : Unrivalled (claims history ++ (claim state event).toList)) :
    Survives state event ↔ InitializesOnce state event := by
  cases event with
  | newConnection _ | kickOff _ | foundClosed _ => exact Iff.rfl
  | close conn =>
      refine iff_of_true (fun connection found _ opened nodeAddr context => ?_) trivial
      rw [typed.registered conn connection nodeAddr found opened context]
      exact Option.some_ne_none conn
  | request conn req written =>
      constructor
      · intro survives kind connection found node listed nodeAddr context
        have asserts := (survives connection found).1
        simp only [ResolveServer.AssertsMessage, kind] at asserts
        obtain ⟨_, _, _, timer, held⟩ := asserts node listed
        rw [context] at held
        cases held
      · intro once connection found
        have asserts : state.server.AssertsMessage state.conns conn connection req := by
          unfold ResolveServer.AssertsMessage
          cases kind : req.type with
          | unknown type => trivial
          | kLookupNode =>
              refine ⟨typed.occupied conn connection found, fun registered entry => ?_⟩
              refine ⟨_, contexts.registeredAddr_eq entry, fun _ node listed => ?_⟩
              exact ⟨state.server.conf.keyed listed, fits _ _ listed⟩
          | kInitializeSelf =>
              intro node listed
              rw [claim_request found kind listed] at unrivalled
              obtain ⟨ipFits, pathFits⟩ := fits _ _ (state.server.conf.pointed listed)
              rw [indexed _ _ listed] at ipFits
              cases context : connection.context with
              | none => exact absurd context (typed.occupied conn connection found)
              | nodeAddr nodeAddr => exact absurd context (once kind _ found node listed nodeAddr)
              | timerId timer =>
                  have free := typed.free contexts unrivalled found context
                  exact ⟨ipFits, pathFits, by rw [FiniteMap.emplace_snd, free]; rfl, timer, rfl⟩
        exact ⟨asserts, asserts.returns⟩

/-- While no two connections claim one node, and no connection claims one again after
it was given one, every assertion holds and no null context is used. The next event
is handled so exactly if it claims nothing again. -/
theorem survives_run {tree : Option PropertyTree} {interface : ResolveServerConf.Interface}
    {conf : ResolveServerConf}
    (accepted : ResolveServerConf.createFromFile tree = some (interface, conf))
    (fits : conf.FitsFields) {history : List (EventMachine.Taken State Event Replied)}
    {state : State} (run : machine.Run InitializesOnce (State.initial conf) history state)
    (unrivalled : Unrivalled (claims history)) :
    machine.Run Survives (State.initial conf) history state ∧
      ∀ event, Unrivalled (claims history ++ (claim state event).toList) →
        (Survives state event ↔ InitializesOnce state event) := by
  have indexed := ResolveServerConf.indexed_createFromFile accepted
  have invariant : Contexts history state ∧ state.server.conf = conf ∧
      (Unrivalled (claims history) → Typestate (claims history) state ∧
        machine.Run Survives (State.initial conf) history state) := by
    refine run.invariant (fun history state => Contexts history state ∧
      state.server.conf = conf ∧ (Unrivalled (claims history) →
        Typestate (claims history) state ∧
          machine.Run Survives (State.initial conf) history state))
      ⟨contexts_initial conf, rfl, fun _ => ⟨typestate_initial conf, .nil⟩⟩ ?_
    intro history before event outputs after holds once stepped
    obtain ⟨contexts, same, typed⟩ := holds
    refine ⟨contexts.preserved stepped, (step_transition stepped).conf.trans same,
      fun unrivalled => ?_⟩
    rw [claims_snoc] at unrivalled ⊢
    obtain ⟨typed, survived⟩ := typed unrivalled.earlier
    refine ⟨typed.preserved contexts unrivalled stepped, .snoc survived ?_ stepped⟩
    exact (typed.survives_iff contexts (same ▸ indexed) (same ▸ fits) unrivalled).mpr once
  obtain ⟨contexts, same, typed⟩ := invariant
  obtain ⟨typed, survived⟩ := typed unrivalled
  exact ⟨survived, fun event later =>
    typed.survives_iff contexts (same ▸ indexed) (same ▸ fits) later⟩

def someTextPeer : NetAddress := ⟨someTextNode.netAddr.ip, 50000⟩

/-- The daemon of that node has connected, and has been initialised. -/
def connectedState : State :=
  ⟨⟨someTextConf, ∅⟩, FiniteMap.assign ∅ 0 ⟨someTextPeer, .timerId 0, false, false⟩, 1,
    FiniteMap.assign ∅ 0 0, 1⟩

def initializedState : State :=
  ⟨⟨someTextConf, FiniteMap.assign ∅ someTextNode.nodeAddr 0⟩,
    FiniteMap.assign ∅ 0 ⟨someTextPeer, .nodeAddr someTextNode.nodeAddr, false, false⟩, 1, ∅, 1⟩

theorem step_connectedState :
    step (State.initial someTextConf) (.newConnection someTextPeer) =
      some (connectedState, []) := rfl

theorem step_initializedState :
    step connectedState (.request 0 someInitialize true) =
      some (initializedState, [⟨0, someInitialize, true, some someResponse, true⟩]) := rfl

theorem initializesOnce_connectedState :
    InitializesOnce connectedState (.request 0 someInitialize true) := by
  intro _ connection found _ _ nodeAddr
  cases found
  exact Context.noConfusion

def initializedHistory : List (EventMachine.Taken State Event Replied) :=
  [⟨State.initial someTextConf, .newConnection someTextPeer, [], connectedState⟩,
    ⟨connectedState, .request 0 someInitialize true,
      [⟨0, someInitialize, true, some someResponse, true⟩], initializedState⟩]

theorem initializedHistory_run : machine.Run InitializesOnce (State.initial someTextConf)
    initializedHistory initializedState :=
  .snoc (.snoc .nil trivial step_connectedState) initializesOnce_connectedState
    step_initializedState

theorem claims_initializedHistory :
    claims initializedHistory = [(0, someTextNode.nodeAddr)] := rfl

/-- That daemon may look itself up. -/
theorem survives_run_lookup :
    Survives initializedState
      (.request 0 ⟨.kLookupNode, someTextNode.nodeAddr, 0, someTextNode.nodeAddr⟩ true) := by
  have alone : Unrivalled (claims initializedHistory) := by
    rw [claims_initializedHistory]
    intro left leftClaim right rightClaim _
    rw [List.mem_singleton.mp leftClaim, List.mem_singleton.mp rightClaim]
  refine ((survives_run someTextTree_accepted someTextConf_fits initializedHistory_run alone).2
    _ ?_).mpr ?_
  · rw [show claim initializedState _ = none from rfl, Option.toList_none, List.append_nil]
    exact alone
  · intro kind
    cases kind

/-- If it asks to be initialised again, the address is taken, by itself, and its
context holds no timer id any more. -/
theorem not_survives_again :
    ∃ history state, machine.Run (fun _ _ => True) (State.initial someTextConf) history state ∧
      ResolveServerConf.createFromFile (some someTextTree) =
        some (⟨some ⟨[49, 48, 46, 48, 46, 48, 46, 49], 9999⟩, none⟩, someTextConf) ∧
      someTextConf.FitsFields ∧
      Unrivalled (claims history ++ (claim state (.request 0 someInitialize true)).toList) ∧
      ¬ Survives state (.request 0 someInitialize true) := by
  refine ⟨initializedHistory, initializedState,
    initializedHistory_run.weaken (fun _ _ _ => trivial), someTextTree_accepted,
    someTextConf_fits, ?_, fun survives => ?_⟩
  · rw [claims_initializedHistory,
      show claim initializedState (.request 0 someInitialize true) =
        some (0, someTextNode.nodeAddr) from rfl]
    intro left leftClaim right rightClaim _
    simp only [Option.toList_some, List.cons_append, List.nil_append, List.mem_cons,
      List.not_mem_nil, or_false, or_self] at leftClaim rightClaim
    rw [leftClaim, rightClaim]
  · exact (survives _ rfl).2 rfl

end Service

end Cpmd
