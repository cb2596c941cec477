import Cpmd.ResolveServer

/-! The steps of the resolve server, and what its registry and the contexts of
its connections have to do with each other. -/

set_option autoImplicit false

namespace Cpmd

open Library

namespace ResolveServer

/-- What `OnMessage` can do where it meets no null context. -/
inductive Handles (server : ResolveServer) (conns : FiniteMap Nat ServiceConnection) (conn : Nat)
    (connection : ServiceConnection) (req : ResolveRequest) : Handled → Prop where
  | initRefused : req.type = .kInitializeSelf →
      server.conf.getNodeInfoByNetAddress ⟨connection.peerAddr.ip, req.cpmdPort⟩ = none →
      Handles server conns conn connection req
        ⟨server, connection.context, none, false,
          some ⟨.kNodeNotFound, .unknown 0, 0, 0, [], []⟩⟩
  | initialized {node : ConfNode} {timer : Nat} : req.type = .kInitializeSelf →
      server.conf.getNodeInfoByNetAddress ⟨connection.peerAddr.ip, req.cpmdPort⟩ = some node →
      connection.context = .timerId timer →
      Handles server conns conn connection req
        ⟨{ server with connections := (server.connections.emplace node.nodeAddr conn).1 },
          .nodeAddr node.nodeAddr, some timer, true,
          some ⟨.kOk, .kUpdateSelf, node.nodeAddr, req.cpmdPort, connection.peerAddr.ip,
            node.readableAddr⟩⟩
  | unregistered : req.type = .kLookupNode → server.connections.find req.selfAddr = none →
      Handles server conns conn connection req ⟨server, connection.context, none, false, none⟩
  | foreign {registered : Nat} {nodeAddr : UInt32} : req.type = .kLookupNode →
      server.connections.find req.selfAddr = some registered →
      registeredAddr conns registered = some nodeAddr → req.selfAddr ≠ nodeAddr →
      Handles server conns conn connection req ⟨server, connection.context, none, false, none⟩
  | lookupFailed {registered : Nat} : req.type = .kLookupNode →
      server.connections.find req.selfAddr = some registered →
      registeredAddr conns registered = some req.selfAddr →
      server.conf.getNodeInfoByNodeAddress req.peerAddr = none →
      Handles server conns conn connection req
        ⟨server, connection.context, none, true,
          some ⟨.kNodeNotFound, .kUpdateCache, req.peerAddr, 0, [], []⟩⟩
  | found {registered : Nat} {node : ConfNode} : req.type = .kLookupNode →
      server.connections.find req.selfAddr = some registered →
      registeredAddr conns registered = some req.selfAddr →
      server.conf.getNodeInfoByNodeAddress req.peerAddr = some node →
      Handles server conns conn connection req
        ⟨server, connection.context, none, true,
          some ⟨.kOk, .kUpdateCache, node.nodeAddr, node.netAddr.port, node.netAddr.ip,
            node.readableAddr⟩⟩
  | unknown {type : Int16} : req.type = .unknown type →
      Handles server conns conn connection req ⟨server, connection.context, none, false, none⟩

variable {server : ResolveServer} {conns : FiniteMap Nat ServiceConnection} {conn : Nat}
  {connection : ServiceConnection} {req : ResolveRequest} {handled : Handled}

theorem handles_of_onMessage
    (returned : server.onMessage conns conn connection req = some handled) :
    server.Handles conns conn connection req handled := by
  cases kind : req.type with
  | kInitializeSelf =>
      simp only [onMessage, kind, handleNodeInit] at returned
      split at returned
      · rename_i missing
        cases returned
        exact .initRefused kind missing
      · rename_i node listed
        split at returned
        · rename_i timer held
          cases returned
          exact .initialized kind listed held
        · cases returned
        · cases returned
  | kLookupNode =>
      simp only [onMessage, kind, handleNodeLookup] at returned
      split at returned
      · rename_i missing
        cases returned
        exact .unregistered kind missing
      · rename_i registered entry
        split at returned
        · cases returned
        · rename_i nodeAddr held
          split at returned
          · rename_i other
            cases returned
            exact .foreign kind entry held other
          · rename_i same
            rw [← not_not.mp same] at held
            split at returned
            · rename_i missing
              cases returned
              exact .lookupFailed kind entry held missing
            · rename_i node listed
              cases returned
              exact .found kind entry held listed
  | unknown type =>
      simp only [onMessage, kind] at returned
      cases returned
      exact .unknown kind

theorem Handles.onMessage (handles : server.Handles conns conn connection req handled) :
    server.onMessage conns conn connection req = some handled := by
  cases handles with
  | initRefused kind missing =>
      simp only [ResolveServer.onMessage, kind, handleNodeInit, missing]
  | initialized kind listed held =>
      simp only [ResolveServer.onMessage, kind, handleNodeInit, listed, held]
  | unregistered kind missing =>
      simp only [ResolveServer.onMessage, kind, handleNodeLookup, missing]
  | foreign kind entry held other =>
      simp only [ResolveServer.onMessage, kind, handleNodeLookup, entry, held, if_pos other]
  | lookupFailed kind entry held missing =>
      simp only [ResolveServer.onMessage, kind, handleNodeLookup, entry, held, ne_eq,
        not_true_eq_false, if_false, missing]
  | found kind entry held listed =>
      simp only [ResolveServer.onMessage, kind, handleNodeLookup, entry, held, ne_eq,
        not_true_eq_false, if_false, listed]
  | unknown kind => simp only [ResolveServer.onMessage, kind]

/-- An accepted `kInitializeSelf` registers its connection. All else that
`OnMessage` does leaves the registry, the contexts and the timers alone, and
tells no node its own address. -/
theorem onMessage_cases
    (returned : server.onMessage conns conn connection req = some handled) :
    (∃ node timer, req.type = .kInitializeSelf ∧
      server.conf.getNodeInfoByNetAddress ⟨connection.peerAddr.ip, req.cpmdPort⟩ = some node ∧
      connection.context = .timerId timer ∧
      handled = ⟨{ server with
          connections := (server.connections.emplace node.nodeAddr conn).1 },
        .nodeAddr node.nodeAddr, some timer, true,
        some ⟨.kOk, .kUpdateSelf, node.nodeAddr, req.cpmdPort, connection.peerAddr.ip,
          node.readableAddr⟩⟩) ∨
    (handled.server = server ∧ handled.context = connection.context ∧
      handled.removedTimer = none ∧
      (req.type = .kInitializeSelf → handled.preserve = false ∧
        server.conf.getNodeInfoByNetAddress ⟨connection.peerAddr.ip, req.cpmdPort⟩ = none) ∧
      ∀ reply ∈ handled.reply, reply.type ≠ .kUpdateSelf) := by
  cases handles_of_onMessage returned with
  | initRefused kind missing => exact .inr ⟨rfl, rfl, rfl, fun _ => ⟨rfl, missing⟩, by simp⟩
  | initialized kind listed held => exact .inl ⟨_, _, kind, listed, held, rfl⟩
  | unregistered kind _ | foreign kind _ _ _ | lookupFailed kind _ _ _ | found kind _ _ _
  | unknown kind =>
      exact .inr ⟨rfl, rfl, rfl, by simp [kind], by simp⟩

end ResolveServer

namespace Service

/-- What a step can do. -/
inductive Transition (state : State) : Event → State → List Replied → Prop where
  | opened {peerAddr : NetAddress} :
      Transition state (.newConnection peerAddr)
        ⟨state.server,
          state.conns.assign state.nextConn ⟨peerAddr, .timerId state.nextTimer, false, false⟩,
          state.nextConn + 1, state.timers.assign state.nextTimer state.nextConn,
          state.nextTimer + 1⟩ []
  | initialized {conn timer : Nat} {connection : ServiceConnection} {req : ResolveRequest}
      {written : Bool} {node : ConfNode} :
      state.conns.find conn = some connection → req.type = .kInitializeSelf →
      state.server.conf.getNodeInfoByNetAddress ⟨connection.peerAddr.ip, req.cpmdPort⟩ =
        some node →
      connection.context = .timerId timer →
      Transition state (.request conn req written)
        ⟨{ state.server with
            connections := (state.server.connections.emplace node.nodeAddr conn).1 },
          state.conns.assign conn { connection with context := .nodeAddr node.nodeAddr },
          state.nextConn, state.timers.remove timer, state.nextTimer⟩
        [⟨conn, req, true, some ⟨.kOk, .kUpdateSelf, node.nodeAddr, req.cpmdPort,
          connection.peerAddr.ip, node.readableAddr⟩, written⟩]
  | answered {conn : Nat} {connection : ServiceConnection} {req : ResolveRequest}
      {written preserve closed : Bool} {reply : Option ResolveResponse} :
      state.conns.find conn = some connection →
      (req.type = .kInitializeSelf → preserve = false ∧
        state.server.conf.getNodeInfoByNetAddress ⟨connection.peerAddr.ip, req.cpmdPort⟩ =
          none) →
      (∀ response ∈ reply, response.type ≠ .kUpdateSelf) →
      Transition state (.request conn req written)
        { state with conns := state.conns.assign conn { connection with closed := closed } }
        [⟨conn, req, preserve, reply, written⟩]
  | shut {event : Event} {conn : Nat} {connection : ServiceConnection}
      {timers : FiniteMap Nat Nat} :
      (event = .foundClosed conn ∨ ∃ timer, event = .kickOff timer) →
      state.conns.find conn = some connection →
      Transition state event { state.shut conn connection with timers := timers } []
  | closed {conn : Nat} {connection : ServiceConnection} :
      state.conns.find conn = some connection → connection.released = false →
      Transition state (.close conn)
        { state with
          server := state.server.onClose connection
          conns := state.conns.assign conn { connection with released := true } } []

theorem step_transition {state after : State} {event : Event} {outputs : List Replied}
    (stepped : step state event = some (after, outputs)) :
    Transition state event after outputs := by
  cases event with
  | newConnection peerAddr =>
      cases stepped
      exact .opened
  | request conn req written =>
      simp only [step] at stepped
      split at stepped
      · cases stepped
      · rename_i connection found
        split at stepped
        · cases stepped
        · rename_i handled returned
          cases stepped
          rcases ResolveServer.onMessage_cases returned with
            ⟨node, timer, kind, listed, held, rfl⟩ | ⟨server, context, timer, refused, replies⟩
          · simp only [Bool.not_true, Bool.or_false]
            exact .initialized found kind listed held
          · obtain ⟨_, _, _, preserve, reply⟩ := handled
            dsimp only at server context timer
            subst server context timer
            exact .answered found refused replies
  | kickOff timer =>
      simp only [step] at stepped
      split at stepped
      · cases stepped
      · split at stepped
        · cases stepped
        · cases stepped
          exact .shut (.inr ⟨timer, rfl⟩) ‹_›
  | foundClosed conn =>
      simp only [step] at stepped
      split at stepped
      · cases stepped
      · cases stepped
        exact .shut (.inl rfl) ‹_›
  | close conn =>
      simp only [step] at stepped
      split at stepped
      · cases stepped
      · rename_i connection found
        split at stepped
        · rename_i ready
          cases stepped
          simp only [Bool.and_eq_true, Bool.not_eq_true'] at ready
          exact .closed found ready.2
        · cases stepped

theorem step_request {state : State} {conn : Nat} {connection : ServiceConnection}
    {req : ResolveRequest} {handled : ResolveServer.Handled}
    (found : state.conns.find conn = some connection)
    (returned : state.server.onMessage state.conns conn connection req = some handled)
    (written : Bool) :
    ∃ after, step state (.request conn req written) =
        some (after, [⟨conn, req, handled.preserve, handled.reply, written⟩]) ∧
      after.conns.find conn = some { connection with
        context := handled.context
        closed := connection.closed || !handled.preserve } := by
  simp only [step, found, returned]
  exact ⟨_, rfl, by rw [FiniteMap.find_assign, if_pos rfl]⟩

/-- Connections are numbered in the order in which they come. -/
def Fresh (state : State) : Prop :=
  ∀ conn connection, state.conns.find conn = some connection → conn < state.nextConn

theorem fresh_step {before after : State} {event : Event} {outputs : List Replied}
    (fresh : Fresh before) (stepped : step before event = some (after, outputs)) :
    Fresh after := by
  intro conn connection found
  have known (moved : ServiceConnection) (other : Nat) (old : ServiceConnection)
      (held : before.conns.find other = some old)
      (member : (before.conns.assign other moved).find conn = some connection) :
      conn < before.nextConn := by
    rw [FiniteMap.find_assign] at member
    split at member
    · rename_i same
      rw [same]
      exact fresh other old held
    · exact fresh conn connection member
  cases step_transition stepped with
  | opened =>
      rw [FiniteMap.find_assign] at found
      split at found
      · rename_i same
        rw [same]
        exact Nat.lt_succ_self _
      · exact Nat.lt_succ_of_lt (fresh conn connection found)
  | initialized held _ _ _ => exact known _ _ _ held found
  | answered held _ _ => exact known _ _ _ held found
  | shut _ held => exact known _ _ _ held found
  | closed held _ => exact known _ _ _ held found

theorem Transition.conf {state after : State} {event : Event} {outputs : List Replied}
    (transition : Transition state event after outputs) :
    after.server.conf = state.server.conf := by
  cases transition with
  | @closed _ connection _ _ =>
      cases context : connection.context <;> simp [ResolveServer.onClose, context]
  | _ => rfl

theorem Transition.keeps {state after : State} {event : Event} {outputs : List Replied}
    (transition : Transition state event after outputs) {conn : Nat}
    {connection : ServiceConnection} (found : state.conns.find conn = some connection)
    (old : conn < state.nextConn) (quiet : ∀ req written, event ≠ .request conn req written) :
    ∃ moved, after.conns.find conn = some moved ∧ moved.peerAddr = connection.peerAddr ∧
      moved.context = connection.context ∧
      (moved.released = false → connection.released = false ∧ event ≠ .close conn) := by
  cases transition with
  | opened =>
      rw [FiniteMap.find_assign, if_neg (Nat.ne_of_lt old)]
      exact ⟨connection, found, rfl, rfl, fun opened => ⟨opened, by simp⟩⟩
  | initialized _ _ _ _ | answered _ _ _ =>
      rw [FiniteMap.find_assign, if_neg (fun own => quiet _ _ (by rw [own]))]
      exact ⟨connection, found, rfl, rfl, fun opened => ⟨opened, by simp⟩⟩
  | @shut _ other known _ which held =>
      have unclosed : event ≠ .close conn := by
        rcases which with rfl | ⟨_, rfl⟩ <;> simp
      simp only [State.shut, FiniteMap.find_assign]
      split
      · rename_i own
        rw [own, held] at found
        cases found
        exact ⟨_, rfl, rfl, rfl, fun opened => ⟨opened, unclosed⟩⟩
      · exact ⟨connection, found, rfl, rfl, fun opened => ⟨opened, unclosed⟩⟩
  | @closed other known held _ =>
      simp only [FiniteMap.find_assign]
      split
      · rename_i own
        rw [own, held] at found
        cases found
        exact ⟨_, rfl, rfl, rfl, by simp⟩
      · rename_i different
        refine ⟨connection, found, rfl, rfl, fun opened => ⟨opened, ?_⟩⟩
        rintro ⟨⟩
        exact different rfl

/-- Where a connection comes from: it is new, it was there with the same context, or
it was just initialised. -/
theorem Transition.origin {state after : State} {event : Event} {outputs : List Replied}
    (transition : Transition state event after outputs) {conn : Nat}
    {connection : ServiceConnection} (found : after.conns.find conn = some connection) :
    (∃ peerAddr, event = .newConnection peerAddr ∧ conn = state.nextConn ∧
      connection = ⟨peerAddr, .timerId state.nextTimer, false, false⟩) ∨
    (∃ old, state.conns.find conn = some old ∧ connection.context = old.context ∧
      (connection.released = false → old.released = false ∧ event ≠ .close conn) ∧
      (connection.closed = false → old.closed = false ∨
        ∃ req written, event = .request conn req written)) ∨
    ∃ req written old node timer, event = .request conn req written ∧
      req.type = .kInitializeSelf ∧ state.conns.find conn = some old ∧
      state.server.conf.getNodeInfoByNetAddress ⟨old.peerAddr.ip, req.cpmdPort⟩ = some node ∧
      old.context = .timerId timer ∧
      connection = { old with context := .nodeAddr node.nodeAddr } ∧
      after.server.connections = (state.server.connections.emplace node.nodeAddr conn).1 ∧
      after.timers = state.timers.remove timer := by
  cases transition with
  | @opened peerAddr =>
      rw [FiniteMap.find_assign] at found
      split at found
      · cases found
        exact .inl ⟨peerAddr, rfl, ‹_›, rfl⟩
      · exact .inr (.inl ⟨connection, found, rfl, fun opened => ⟨opened, by simp⟩, .inl⟩)
  | @initialized other timer known req written node held kind listed context =>
      rw [FiniteMap.find_assign] at found
      split at found
      · rename_i own
        subst own
        cases found
        exact .inr (.inr ⟨req, written, known, node, timer, rfl, kind, held, listed, context, rfl,
          rfl, rfl⟩)
      · exact .inr (.inl ⟨connection, found, rfl, fun opened => ⟨opened, by simp⟩, .inl⟩)
  | @answered other known req written preserve closed reply held _ _ =>
      rw [FiniteMap.find_assign] at found
      split at found
      · rename_i own
        subst own
        cases found
        exact .inr (.inl ⟨known, held, rfl, fun opened => ⟨opened, by simp⟩,
          fun _ => .inr ⟨req, written, rfl⟩⟩)
      · exact .inr (.inl ⟨connection, found, rfl, fun opened => ⟨opened, by simp⟩, .inl⟩)
  | @shut _ other known _ which held =>
      have unclosed : event ≠ .close conn := by
        rcases which with rfl | ⟨_, rfl⟩ <;> simp
      simp only [State.shut, FiniteMap.find_assign] at found
      split at found
      · rename_i own
        subst own
        cases found
        exact .inr (.inl ⟨known, held, rfl, fun opened => ⟨opened, unclosed⟩, by simp⟩)
      · exact .inr (.inl ⟨connection, found, rfl, fun opened => ⟨opened, unclosed⟩, .inl⟩)
  | @closed other known held _ =>
      rw [FiniteMap.find_assign] at found
      split at found
      · rename_i own
        subst own
        cases found
        exact .inr (.inl ⟨known, held, rfl, by simp, .inl⟩)
      · rename_i different
        refine .inr (.inl ⟨connection, found, rfl, fun opened => ⟨opened, ?_⟩, .inl⟩)
        intro same
        cases same
        exact different rfl

/-- A context is never empty again. -/
theorem Transition.occupied {state after : State} {event : Event} {outputs : List Replied}
    (transition : Transition state event after outputs)
    (occupied : ∀ conn connection, state.conns.find conn = some connection →
      connection.context ≠ .none) (conn : Nat) (connection : ServiceConnection)
    (found : after.conns.find conn = some connection) : connection.context ≠ .none := by
  rcases transition.origin found with ⟨_, _, _, new⟩ | ⟨old, held, same, _, _⟩ |
    ⟨_, _, _, _, _, _, _, _, _, _, new, _, _⟩
  · simp [new]
  · rw [same]
    exact occupied conn old held
  · simp [new]

/-- A context that holds a node address held it before, or was just given it by
an initialisation. -/
theorem Transition.context_origin {state after : State} {event : Event} {outputs : List Replied}
    (transition : Transition state event after outputs) {conn : Nat} {nodeAddr : UInt32}
    {connection : ServiceConnection} (found : after.conns.find conn = some connection)
    (context : connection.context = .nodeAddr nodeAddr) :
    (∃ old, state.conns.find conn = some old ∧ old.context = .nodeAddr nodeAddr) ∨
      ∃ req written old node, event = .request conn req written ∧
        req.type = .kInitializeSelf ∧ state.conns.find conn = some old ∧
        state.server.conf.getNodeInfoByNetAddress ⟨old.peerAddr.ip, req.cpmdPort⟩ = some node ∧
        node.nodeAddr = nodeAddr := by
  rcases transition.origin found with ⟨_, _, _, rfl⟩ | ⟨old, held, same, _, _⟩ |
    ⟨req, written, old, node, _, rfl, kind, held, listed, _, rfl, _⟩
  · cases context
  · exact .inl ⟨old, held, same ▸ context⟩
  · cases context
    exact .inr ⟨req, written, old, node, rfl, kind, held, listed, rfl⟩

theorem Transition.keepsRegistered {state after : State} {event : Event}
    {outputs : List Replied} (transition : Transition state event after outputs) {conn : Nat}
    {nodeAddr : UInt32} (entry : state.server.connections.find nodeAddr = some conn)
    (stays : ∀ other connection, state.conns.find other = some connection →
      connection.context = .nodeAddr nodeAddr → event ≠ .close other) :
    after.server.connections.find nodeAddr = some conn := by
  cases transition with
  | @initialized other _ _ _ _ node _ _ _ _ =>
      rw [FiniteMap.find_emplace]
      split
      · rename_i own
        rw [← own, entry]
        rfl
      · exact entry
  | @closed other connection held _ =>
      cases context : connection.context with
      | none | timerId timer => simpa only [ResolveServer.onClose, context] using entry
      | nodeAddr own =>
          have elsewhere : nodeAddr ≠ own := by
            intro equal
            subst equal
            exact stays other connection held context rfl
          simpa [ResolveServer.onClose, context, elsewhere] using entry
  | _ => exact entry

end Service

end Cpmd
