import Cpmd.ResolveSession
import Cpmd.DaemonProperties
import Cpmd.LookupAuthentication

/-! What a daemon may ask the resolve server before it knows its own address. -/

set_option autoImplicit false

namespace Cpmd.ResolveSession

open Library

/-- No other client initialises itself as the node at an address. -/
def NoOther (assigned : UInt32) (state : State) : Event → Prop
  | .service (.request conn req _) =>
      req.type = .kInitializeSelf → ∀ connection ∈ state.service.conns.find conn,
        ∀ node ∈ state.service.server.conf.getNodeInfoByNetAddress
          ⟨connection.peerAddr.ip, req.cpmdPort⟩, node.nodeAddr ≠ assigned
  | _ => True

/-- No message makes the daemon ask for a node while its own address is zero,
unless that is the address it is assigned. -/
def AsksAsItself (assigned : UInt32) (state : State) : Event → Prop
  | .daemon (.busMessage _ m writes) =>
      state.daemon.server.Asks state.daemon.network writes m →
        state.daemon.server.selfAddress = Address.kLocalNodeAddress →
        assigned = Address.kLocalNodeAddress
  | _ => True

/-- The next request that reaches the resolve server is accepted, and leaves the
connection as open as it was. -/
def Accepting (state : State) : Prop :=
  ∀ link ∈ state.link, ∀ connection ∈ state.service.conns.find link.served,
    connection.released = false → ∀ req rest written, state.toServer = req :: rest →
      ∃ service reply moved,
        Service.step state.service (.request link.served req written) =
          some (service, [⟨link.served, req, true, reply, written⟩]) ∧
        service.conns.find link.served = some moved ∧ moved.closed = connection.closed

theorem Accepting.answers {ip : List UInt8} {before after : State} {event : Event}
    {outputs : List Service.Replied} {replied : Service.Replied} (accepting : Accepting before)
    (stepped : step ip before event = some (after, outputs)) (output : replied ∈ outputs) :
    replied.preserve = true := by
  cases step_transition stepped with
  | daemon _ _ | service _ _ | connected _ _ _ | response _ _ _ _ => cases output
  | @request written link req rest service _ linked queue unreleased served =>
      cases found : before.service.conns.find link.served with
      | none => simp [Service.step, found] at served
      | some connection =>
          obtain ⟨_, _, _, accepted, _⟩ := accepting link linked connection found
            (by simpa [found] using unreleased) req rest written queue
          rw [served] at accepted
          cases accepted
          cases List.mem_singleton.mp output
          rfl

def Lookups (assigned : UInt32) (requests : List ResolveRequest) : Prop :=
  ∀ req ∈ requests, req.type = .kLookupNode ∧ req.selfAddr = assigned

inductive Phase (ip : List UInt8) (port : Int32) (assigned : UInt32) (state : State) : Prop where
  | unlinked : state.link = none → state.toServer = [] → Phase ip port assigned state
  | greeting {link : Link} {connection : ServiceConnection} {timer : Nat}
      {lookups : List ResolveRequest} :
      state.link = some link → state.service.conns.find link.served = some connection →
      connection.peerAddr.ip = ip → connection.context = .timerId timer →
      state.toServer = ⟨.kInitializeSelf, 0, port, 0⟩ :: lookups → Lookups assigned lookups →
      Phase ip port assigned state
  | known {link : Link} {connection : ServiceConnection} :
      state.link = some link → state.service.conns.find link.served = some connection →
      connection.context = .nodeAddr assigned →
      (connection.released = false →
        state.service.server.connections.find assigned = some link.served) →
      Lookups assigned state.toServer → Phase ip port assigned state

/-- What holds of a daemon and the resolve server in every state they reach. -/
structure Session (ip : List UInt8) (port : Int32) (assigned : UInt32)
    (conf : ResolveServerConf) (state : State) : Prop where
  contexts : ∃ history, Service.Contexts history state.service
  conf : state.service.server.conf = conf
  alone : ∀ conn connection, state.service.conns.find conn = some connection →
    connection.context = .nodeAddr assigned → ∃ link ∈ state.link, link.served = conn
  listens : state.daemon.server.messageServerPort = port
  own : state.daemon.server.selfAddress = Address.kLocalNodeAddress ∨
    state.daemon.server.selfAddress = assigned
  responses : ∀ resp ∈ state.toDaemon, resp.type = .kUpdateSelf → resp.nodeAddr = assigned
  phase : Phase ip port assigned state

variable {ip : List UInt8} {port : Int32} {assigned : UInt32} {conf : ResolveServerConf}

theorem session_initial (resolveServerAddress : NetAddress) :
    Session ip port assigned conf (State.initial port resolveServerAddress conf) where
  contexts := ⟨[], Service.contexts_initial conf⟩
  conf := rfl
  alone := by simp [State.initial, Service.State.initial]
  listens := rfl
  own := .inl rfl
  responses := by simp [State.initial]
  phase := .unlinked rfl rfl

theorem handle_eq_some {state after : State} {event : Daemon.Event}
    (handled : state.handle event = some after) :
    ∃ daemon effects, Daemon.step state.daemon event = some (daemon, effects) ∧
      after = { state with
        daemon := daemon
        toServer := state.toServer ++ match state.link with
          | some link => effects.filterMap (Effect.requestOn link.conn)
          | none => [] } := by
  unfold State.handle at handled
  split at handled
  · rename_i daemon effects stepped
    exact ⟨daemon, effects, stepped, (Option.some.inj handled).symm⟩
  · cases handled

theorem Phase.ask {state : State} (phase : Phase ip port assigned state) (daemon : Daemon.State)
    {lookups : List ResolveRequest} (unlinked : state.link = none → lookups = [])
    (asked : Lookups assigned lookups) :
    Phase ip port assigned
      { state with daemon := daemon, toServer := state.toServer ++ lookups } := by
  have joined {requests : List ResolveRequest} (before : Lookups assigned requests) :
      Lookups assigned (requests ++ lookups) := by
    intro req member
    exact (List.mem_append.mp member).elim (before req) (asked req)
  cases phase with
  | unlinked none empty =>
      refine .unlinked none ?_
      rw [unlinked none, empty, List.append_nil]
  | greeting linked found address context queue before =>
      refine .greeting linked found address context ?_ (joined before)
      rw [queue, List.cons_append]
  | known linked found context registered before =>
      exact .known linked found context registered (joined before)

theorem Session.handle {state after : State} {event : Daemon.Event}
    (session : Session ip port assigned conf state)
    (handled : state.handle event = some after)
    (quiet : ∀ writes, event ≠ .connected state.daemon.server.resolveServerAddress writes)
    (asks : AsksAsItself assigned state (.daemon event))
    (told : ∀ conn resp, event = .resolveServerMessage conn (.kResolveResponse resp) →
      resp.type = .kUpdateSelf → resp.nodeAddr = assigned) :
    Session ip port assigned conf after := by
  obtain ⟨daemon, effects, stepped, rfl⟩ := handle_eq_some handled
  have transition := Daemon.step_transition stepped
  have asked (link : Link) :
      Lookups assigned (effects.filterMap (Effect.requestOn link.conn)) := by
    intro req member
    obtain ⟨effect, output, isRequest⟩ := List.mem_filterMap.mp member
    cases effect with
    | requested conn request =>
        simp only [Effect.requestOn, Option.ite_none_right_eq_some, Option.some.injEq]
          at isRequest
        obtain ⟨rfl, rfl⟩ := isRequest
        rcases transition.requested output with ⟨_, m, writes, rfl, wants, rfl⟩ |
          ⟨writes, greets, _⟩
        · refine ⟨rfl, ?_⟩
          rcases session.own with zero | same
          · exact zero.trans (asks wants zero).symm
          · exact same
        · exact absurd greets (quiet writes)
    | connectTo | registered | wrote | close | connectLater => cases isRequest
  refine ⟨session.contexts, session.conf, session.alone, ?_, ?_, session.responses, ?_⟩
  · exact transition.messageServerPort.trans session.listens
  · rcases transition.selfAddress with same | ⟨conn, resp, brought, kind, set⟩
    · exact same ▸ session.own
    · exact .inr (set.trans (told conn resp brought kind))
  · refine session.phase.ask daemon ?_ ?_
    · intro none
      rw [none]
    · cases state.link with
      | none => simp [Lookups]
      | some link => exact asked link

theorem Session.serve {state : State} {service : Service.State} {event : Service.Event}
    {outputs : List Service.Replied} (session : Session ip port assigned conf state)
    (stepped : Service.step state.service event = some (service, outputs))
    (quiet : ∀ link ∈ state.link, ∀ req written, event ≠ .request link.served req written)
    (noOther : NoOther assigned state (.service event)) :
    Session ip port assigned conf { state with service := service } := by
  have transition := Service.step_transition stepped
  obtain ⟨history, contexts⟩ := session.contexts
  refine ⟨⟨_, contexts.preserved stepped⟩, transition.conf.trans session.conf, ?_,
    session.listens, session.own, session.responses, ?_⟩
  · intro conn connection found context
    rcases transition.context_origin found context with ⟨old, held, same⟩ |
      ⟨req, written, old, node, rfl, kind, held, listed, own⟩
    · exact session.alone conn old held same
    · exact absurd own (noOther kind old held node listed)
  · cases session.phase with
    | unlinked none empty => exact .unlinked none empty
    | greeting linked found address context queue lookups =>
        obtain ⟨moved, there, peer, same, _⟩ :=
          transition.keeps found (contexts.fresh _ _ found) (quiet _ linked)
        exact .greeting linked there (by rw [peer, address]) (by rw [same, context]) queue
          lookups
    | @known link connection linked found context registered lookups =>
        obtain ⟨moved, there, _, same, opened⟩ :=
          transition.keeps found (contexts.fresh _ _ found) (quiet _ linked)
        refine .known linked there (by rw [same, context]) (fun unreleased => ?_) lookups
        obtain ⟨before, stays⟩ := opened unreleased
        refine transition.keepsRegistered (registered before) ?_
        intro other holder held own equal
        subst equal
        obtain ⟨link', linked', rfl⟩ := session.alone other holder held own
        rw [linked] at linked'
        cases linked'
        exact stays rfl

/-- The daemon's address as the resolve server sees it is that of a node with the
assigned address. -/
def Listed (ip : List UInt8) (port : Int32) (assigned : UInt32) (conf : ResolveServerConf) :
    Prop :=
  ∃ node, conf.getNodeInfoByNetAddress ⟨ip, port⟩ = some node ∧ node.nodeAddr = assigned

theorem Session.next {state : State} {link : Link} {connection : ServiceConnection}
    {req : ResolveRequest} {rest : List ResolveRequest}
    (session : Session ip port assigned conf state) (linked : state.link = some link)
    (found : state.service.conns.find link.served = some connection)
    (queue : state.toServer = req :: rest) :
    Lookups assigned rest ∧
      ((∃ timer, req = ⟨.kInitializeSelf, 0, port, 0⟩ ∧ connection.peerAddr.ip = ip ∧
        connection.context = .timerId timer) ∨
      (req.type = .kLookupNode ∧ req.selfAddr = assigned ∧
        connection.context = .nodeAddr assigned ∧ (connection.released = false →
          state.service.server.connections.find assigned = some link.served))) := by
  cases session.phase with
  | unlinked _ empty =>
      rw [empty] at queue
      cases queue
  | greeting linked' found' address context queue' lookups =>
      rw [linked'] at linked
      cases linked
      rw [found'] at found
      cases found
      rw [queue'] at queue
      cases queue
      exact ⟨lookups, .inl ⟨_, rfl, address, context⟩⟩
  | known linked' found' context registered lookups =>
      rw [linked'] at linked
      cases linked
      rw [found'] at found
      cases found
      rw [queue] at lookups
      obtain ⟨kind, own⟩ := lookups req List.mem_cons_self
      exact ⟨fun other member => lookups other (List.mem_cons_of_mem _ member),
        .inr ⟨kind, own, context, registered⟩⟩

theorem Session.accepted {state : State} {link : Link} {connection : ServiceConnection}
    {req : ResolveRequest} {rest : List ResolveRequest}
    (session : Session ip port assigned conf state) (listed : Listed ip port assigned conf)
    (linked : state.link = some link)
    (found : state.service.conns.find link.served = some connection)
    (unreleased : connection.released = false) (queue : state.toServer = req :: rest) :
    ∃ handled, state.service.server.onMessage state.service.conns link.served connection req =
      some handled ∧ handled.preserve = true := by
  obtain ⟨history, contexts⟩ := session.contexts
  obtain ⟨_, ⟨timer, rfl, address, context⟩ | ⟨kind, own, _, registered⟩⟩ :=
    session.next linked found queue
  · obtain ⟨node, there, _⟩ := listed
    rw [← session.conf, ← address] at there
    simp [ResolveServer.onMessage, ResolveServer.handleNodeInit, there, context]
  · have accepts := (contexts.acceptsLookup_iff connection req).mpr
      (by rw [own, registered unreleased]; exact Option.some_ne_none _)
    simpa only [ResolveServer.onMessage, kind, Service.AcceptsLookup] using accepts

theorem Session.accepting {state : State} (session : Session ip port assigned conf state)
    (listed : Listed ip port assigned conf) : Accepting state := by
  intro link linked connection found unreleased req rest written queue
  obtain ⟨handled, returned, preserve⟩ :=
    session.accepted listed linked found unreleased queue
  obtain ⟨service, stepped, moved⟩ := Service.step_request found returned written
  rw [preserve] at stepped moved
  exact ⟨service, handled.reply, _, stepped, moved, Bool.or_false _⟩

theorem Session.answer {state : State} {service : Service.State} {link : Link}
    {req : ResolveRequest} {rest : List ResolveRequest} {written : Bool}
    {outputs : List Service.Replied} (session : Session ip port assigned conf state)
    (listed : Listed ip port assigned conf) (linked : state.link = some link)
    (queue : state.toServer = req :: rest)
    (stepped : Service.step state.service (.request link.served req written) =
      some (service, outputs)) :
    Session ip port assigned conf
      { state with
        service := service
        toServer := rest
        toDaemon := state.toDaemon ++ outputs.filterMap Service.Replied.sent } := by
  have transition := Service.step_transition stepped
  obtain ⟨history, contexts⟩ := session.contexts
  have alone : ∀ conn connection, service.conns.find conn = some connection →
      connection.context = .nodeAddr assigned → ∃ other ∈ state.link, other.served = conn := by
    intro conn connection found context
    rcases transition.context_origin found context with ⟨old, held, same⟩ |
      ⟨_, _, _, _, brought, _⟩
    · exact session.alone conn old held same
    · cases brought
      exact ⟨link, linked, rfl⟩
  have responses (replied : Service.Replied) (only : outputs = [replied])
      (told : ∀ resp ∈ replied.reply, resp.type = .kUpdateSelf → resp.nodeAddr = assigned) :
      ∀ resp ∈ state.toDaemon ++ outputs.filterMap Service.Replied.sent,
        resp.type = .kUpdateSelf → resp.nodeAddr = assigned := by
    intro resp member
    rcases List.mem_append.mp member with old | new
    · exact session.responses resp old
    · obtain ⟨output, among, sent⟩ := List.mem_filterMap.mp new
      rw [only] at among
      cases List.mem_singleton.mp among
      simp only [Service.Replied.sent, Option.ite_none_right_eq_some] at sent
      exact told resp sent.2
  have kept := transition.conf.trans session.conf
  cases transition with
  | @initialized _ _ connection _ _ node found kind recorded context =>
      obtain ⟨lookups, ⟨timer, rfl, address, _⟩ | ⟨other, _⟩⟩ := session.next linked found queue
      · obtain ⟨listedNode, there, own⟩ := listed
        rw [session.conf, address, there] at recorded
        cases recorded
        refine ⟨⟨_, contexts.preserved stepped⟩, kept, alone, session.listens, session.own,
          responses _ rfl (by rintro _ ⟨⟩ _; exact own), ?_⟩
        refine .known linked (by rw [FiniteMap.find_assign, if_pos rfl]) (by rw [own])
          (fun _ => ?_) lookups
        rw [FiniteMap.find_emplace, if_pos own.symm, own]
        cases entry : state.service.server.connections.find assigned with
        | none => rfl
        | some holder =>
            -- what is registered there can only be this connection
            obtain ⟨holding, held, same⟩ := contexts.registered _ _ entry
            obtain ⟨other, linked', rfl⟩ := session.alone holder holding held same
            rw [linked] at linked'
            cases linked'
            rfl
      · rw [kind] at other
        cases other
  | @answered _ connection _ _ preserve closed reply found refused replies =>
      obtain ⟨lookups, ⟨timer, rfl, address, _⟩ | ⟨_, _, context, registered⟩⟩ :=
        session.next linked found queue
      · obtain ⟨node, there, _⟩ := listed
        rw [← session.conf, ← address, (refused rfl).2] at there
        cases there
      · refine ⟨⟨_, contexts.preserved stepped⟩, kept, alone, session.listens, session.own,
          responses _ rfl (fun resp given kind => absurd kind (replies resp given)), ?_⟩
        have moved : (state.service.conns.assign link.served
            { connection with closed := closed }).find link.served =
            some { connection with closed := closed } := by
          rw [FiniteMap.find_assign, if_pos rfl]
        exact .known linked moved context registered lookups
  | shut which _ => rcases which with impossible | ⟨_, impossible⟩ <;> cases impossible

theorem Session.connect {state after : State} {service : Service.State} {peerPort : Int32}
    {outputs : List Service.Replied} (session : Session ip port assigned conf state)
    (unlinked : state.link = none)
    (stepped : Service.step state.service (.newConnection ⟨ip, peerPort⟩) =
      some (service, outputs))
    (handled : State.handle
      { state with
        service := service
        link := some ⟨state.daemon.network.nextId, state.service.nextConn⟩ }
      (.connected state.daemon.server.resolveServerAddress fun _ => true) = some after) :
    Session ip port assigned conf after := by
  obtain ⟨daemon, effects, connected, rfl⟩ := handle_eq_some handled
  obtain ⟨history, contexts⟩ := session.contexts
  have transition := Daemon.step_transition connected
  have greets : effects = [.requested state.daemon.network.nextId
      ⟨.kInitializeSelf, 0, state.daemon.server.messageServerPort, 0⟩] :=
    Daemon.step_connected_resolveServer connected
  have empty : state.toServer = [] := by
    cases session.phase with
    | unlinked _ empty => exact empty
    | greeting linked _ _ _ _ _ | known linked _ _ _ _ =>
        rw [unlinked] at linked
        cases linked
  refine ⟨⟨_, contexts.preserved stepped⟩,
    (Service.step_transition stepped).conf.trans session.conf, ?_,
    transition.messageServerPort.trans session.listens, ?_, session.responses, ?_⟩
  · intro conn connection found context
    rcases (Service.step_transition stepped).context_origin found context with
      ⟨old, held, same⟩ | ⟨_, _, _, _, impossible, _⟩
    · obtain ⟨link, linked, _⟩ := session.alone conn old held same
      rw [unlinked] at linked
      cases linked
    · cases impossible
  · rcases transition.selfAddress with same | ⟨_, _, impossible, _⟩
    · exact same ▸ session.own
    · cases impossible
  · cases stepped
    have none : Lookups assigned [] := by simp [Lookups]
    refine .greeting rfl (by rw [FiniteMap.find_assign, if_pos rfl]) rfl rfl ?_ none
    rw [greets, empty, session.listens]
    simp [Effect.requestOn]

theorem Session.preserved {before after : State} {event : Event}
    {outputs : List Service.Replied} (session : Session ip port assigned conf before)
    (listed : Listed ip port assigned conf) (noOther : NoOther assigned before event)
    (asks : AsksAsItself assigned before event)
    (stepped : step ip before event = some (after, outputs)) :
    Session ip port assigned conf after := by
  cases step_transition stepped with
  | daemon others handled =>
      refine session.handle handled ?_ asks ?_
      · intro writes equal
        subst equal
        simp [fromResolveServer, Server.isResolveServerAddress] at others
      · intro conn resp equal
        subst equal
        simp [fromResolveServer] at others
  | service others served =>
      refine session.serve served ?_ noOther
      intro link linked req written equal
      subst equal
      simp [fromDaemon, Option.mem_def.mp linked] at others
  | connected unlinked opened handled => exact session.connect unlinked opened handled
  | request linked queue _ served => exact session.answer listed linked queue served
  | @response seen sent link rest _ linked queue reads handled =>
      have shorter : Session ip port assigned conf { before with toDaemon := rest } := by
        refine { session with responses := fun resp member => ?_, phase := ?_ }
        · exact session.responses resp (queue ▸ List.mem_cons_of_mem _ member)
        · cases session.phase with
          | unlinked none empty => exact .unlinked none empty
          | greeting linked found address context queue lookups =>
              exact .greeting linked found address context queue lookups
          | known linked found context registered lookups =>
              exact .known linked found context registered lookups
      refine shorter.handle handled (by simp) trivial ?_
      rintro conn resp ⟨⟩ kind
      obtain ⟨_, type, own, _⟩ := reads
      rw [own]
      exact session.responses sent (queue ▸ List.mem_cons_self) (type ▸ kind)

/-- In a run in which the daemon asks for no node before it knows its own
address, every request it makes is accepted. -/
theorem accepting_run {resolveServerAddress : NetAddress}
    {history : List (EventMachine.Taken State Event Service.Replied)} {state : State}
    (listed : Listed ip port assigned conf)
    (run : (machine ip).Run
      (fun state event => NoOther assigned state event ∧ AsksAsItself assigned state event)
      (State.initial port resolveServerAddress conf) history state) :
    Accepting state ∧ ∀ replied ∈ EventMachine.outputs history, replied.preserve = true := by
  have every {history : List (EventMachine.Taken State Event Service.Replied)} {state : State}
      (run : (machine ip).Run
        (fun state event => NoOther assigned state event ∧ AsksAsItself assigned state event)
        (State.initial port resolveServerAddress conf) history state) : Accepting state :=
    (run.state_invariant (Session ip port assigned conf) (session_initial resolveServerAddress)
      (fun _ _ _ _ session guard stepped =>
        session.preserved listed guard.1 guard.2 stepped)).accepting listed
  refine ⟨every run, fun replied member => ?_⟩
  obtain ⟨taken, among, output⟩ := List.mem_flatMap.mp member
  obtain ⟨earlier, previous, _, stepped⟩ := run.of_mem among
  exact (every previous).answers stepped output

instance (assigned : UInt32) (state : State) : ∀ event, Decidable (NoOther assigned state event)
  | .service (.request conn req _) => inferInstanceAs (Decidable (_ →
      ∀ connection ∈ state.service.conns.find conn,
        ∀ node ∈ state.service.server.conf.getNodeInfoByNetAddress
          ⟨connection.peerAddr.ip, req.cpmdPort⟩, _ ≠ _))
  | .service (.newConnection _) | .service (.kickOff _) | .service (.foundClosed _)
  | .service (.close _) | .daemon _ | .connected _ | .request _ | .response _ =>
      inferInstanceAs (Decidable True)

instance (assigned : UInt32) (state : State) :
    ∀ event, Decidable (AsksAsItself assigned state event)
  | .daemon (.busMessage _ m writes) => inferInstanceAs (Decidable
      (state.daemon.server.Asks state.daemon.network writes m → _ = _ → _ = _))
  | .daemon (.resolveServerMessage _ _) | .daemon (.connected _ _) | .daemon (.connectError _)
  | .daemon (.foundClosed _) | .daemon (.disconnected _) | .daemon (.retry _) | .service _
  | .connected _ | .request _ | .response _ => inferInstanceAs (Decidable True)

theorem listed_someConf :
    Listed [10, 0, 0, 7] 8123 Service.someConfNode.nodeAddr Service.someConf :=
  ⟨Service.someConfNode, FiniteMap.find_assign _ _ _ _, rfl⟩

/-- The daemon is told its address, and asks for a node after that. -/
theorem accepting_run_lookup :
    ∃ history state,
      (machine [10, 0, 0, 7]).Run (fun _ _ => True)
        (State.initial 8123 Daemon.someResolveServer Service.someConf) history state ∧
      (EventMachine.outputs history).map (·.req.type) = [.kInitializeSelf, .kLookupNode] ∧
      Accepting state ∧ ∀ replied ∈ EventMachine.outputs history, replied.preserve = true := by
  obtain ⟨history, state, run, asked⟩ := EventMachine.exists_run_of_any (machine [10, 0, 0, 7])
    (fun state event => NoOther Service.someConfNode.nodeAddr state event ∧
      AsksAsItself Service.someConfNode.nodeAddr state event)
    (State.initial 8123 Daemon.someResolveServer Service.someConf)
    [.connected 50000, .request true, .response Daemon.someSelfResponse,
      .daemon (.busMessage 1 Daemon.someMessage fun _ => true), .request true]
    (fun reached => decide ((EventMachine.outputs reached.1).map (·.req.type) =
      [.kInitializeSelf, .kLookupNode])) (by decide)
  exact ⟨history, state, run.weaken (fun _ _ _ => trivial), of_decide_eq_true asked,
    accepting_run listed_someConf run⟩

/-- It asks before the response has arrived: the lookup is refused, and its only
connection closed. -/
theorem not_accepting_early_lookup :
    Listed [10, 0, 0, 7] 8123 Service.someConfNode.nodeAddr Service.someConf ∧
    ∃ history state,
      (machine [10, 0, 0, 7]).Run
        (fun state event => NoOther Service.someConfNode.nodeAddr state event)
        (State.initial 8123 Daemon.someResolveServer Service.someConf) history state ∧
      (∃ replied ∈ EventMachine.outputs history, replied.preserve = false) ∧
      ∃ connection, state.service.conns.find 0 = some connection ∧ connection.closed = true := by
  obtain ⟨history, state, run, refused⟩ := EventMachine.exists_run_of_any
    (machine [10, 0, 0, 7])
    (fun state event => NoOther Service.someConfNode.nodeAddr state event)
    (State.initial 8123 Daemon.someResolveServer Service.someConf)
    [.connected 50000, .daemon (.busMessage 1 Daemon.someMessage fun _ => true),
      .request true, .request true]
    (fun reached => decide ((∃ replied ∈ EventMachine.outputs reached.1,
      replied.preserve = false) ∧ reached.2.service.conns.find 0 =
        some ⟨⟨[10, 0, 0, 7], 50000⟩, .nodeAddr Service.someConfNode.nodeAddr, true, false⟩))
    (by decide)
  obtain ⟨refusal, closed⟩ := of_decide_eq_true refused
  exact ⟨listed_someConf, history, state, run, refusal, _, closed, rfl⟩

end Cpmd.ResolveSession
