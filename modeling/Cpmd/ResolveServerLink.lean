import Cpmd.ConnectAttempts
import Cpmd.DaemonConnections
import Cpmd.ResolvedAddresses
import Cpmd.ResolvingStates

/-! A daemon's way to the resolve server: that it never has two, and never stops trying
to have one, and the order of the requests that go out on it. -/

set_option autoImplicit false

namespace Cpmd

open Library

theorem Node.resolvedAddress_of_resolved (node : Node) (known : node.resolved = true) :
    node.resolvedAddress = some (node.addressOf known) := by
  rw [resolvedAddress, if_pos known, addressOf, Option.some_get]

/-- No node but the message's own is connected to, and that where it is resolved to. -/
theorem Server.HandlesToRemote.network {server after : Server} {network : Network}
    {writes : Nat → Bool} {m : Message} {droped : Option Message} {effects : List Effect}
    (handles : server.HandlesToRemote network writes m (after, droped, effects)) :
    network.carryOutAll effects = network ∨
      ∃ addr, server.resolvedAt m.remoteAddress.nodeAddr = some addr ∧
        network.carryOutAll effects = network.carryOut (.connectTo addr) := by
  cases handles with
  | wrote _ _ _ _ _ | cached _ => exact .inl rfl
  | requested _ _ requested =>
      rcases requested with rfl | ⟨_, _, _, _, rfl⟩
      · exact .inl rfl
      · exact .inl rfl
  | @connects node known found _ _ =>
      refine .inr ⟨node.addressOf known, ?_, rfl⟩
      rw [Server.resolvedAt_of_find found, node.resolvedAddress_of_resolved known]

/-- A request that is written on a connection to the resolve server. -/
def Effect.request : Effect → Option (ConnId × ResolveRequest)
  | .requested conn req => some (conn, req)
  | .connectTo _ | .registered _ _ | .wrote _ _ _ | .close _ | .connectLater _ => none

theorem Server.HandlesToRemote.request {server after : Server} {network : Network}
    {writes : Nat → Bool} {m : Message} {droped : Option Message} {effects : List Effect}
    (handles : server.HandlesToRemote network writes m (after, droped, effects)) :
    effects.filterMap Effect.request = [] ∨
      ∃ conn, server.resolveServerConn = some conn ∧ network.isOpen conn = true ∧
        network.carryOutAll effects = network ∧ effects.filterMap Effect.request =
          [(conn, ⟨.kLookupNode, server.selfAddress, 0, m.remoteAddress.nodeAddr⟩)] := by
  cases handles with
  | wrote _ _ _ _ _ | cached _ | connects _ _ _ _ => exact .inl rfl
  | requested _ _ requested =>
      rcases requested with rfl | ⟨conn, current, opened, _, rfl⟩
      · exact .inl rfl
      · exact .inr ⟨conn, current, opened, rfl, rfl⟩

namespace Daemon

/-- Where a daemon is with the resolve server: one attempt is outstanding, or one is put
off, or there is one connection to it and the daemon holds that. -/
inductive ServerLink (state : State) : Prop where
  | attempting :
      state.server.resolveServerConn = none →
      state.network.attempts.count state.server.resolveServerAddress = 1 →
      state.network.retries = [] →
      (∀ conn, ¬ state.network.Reaches conn state.server.resolveServerAddress) →
      ServerLink state
  | postponed :
      state.server.resolveServerConn = none →
      state.network.attempts.count state.server.resolveServerAddress = 0 →
      state.network.retries = [state.server.resolveServerAddress] →
      (∀ conn, ¬ state.network.Reaches conn state.server.resolveServerAddress) →
      ServerLink state
  | held {conn : ConnId} :
      state.server.resolveServerConn = some conn →
      state.network.attempts.count state.server.resolveServerAddress = 0 →
      state.network.retries = [] →
      (∀ other, state.network.Reaches other state.server.resolveServerAddress ↔ other = conn) →
      ServerLink state

/-- No response gives a node the address of the resolve server. -/
def Apart (state : State) : Event → Prop
  | .resolveServerMessage _ (.kResolveResponse resp) =>
      GivesAddress state resp →
        (⟨resp.nodeIp, resp.nodePort⟩ : NetAddress) ≠ state.server.resolveServerAddress
  | .resolveServerMessage _ (.other _) | .busMessage _ _ _ | .connected _ _ | .connectError _
  | .foundClosed _ | .disconnected _ | .retry _ => True

instance (state : State) : ∀ event, Decidable (Apart state event)
  | .resolveServerMessage _ (.kResolveResponse _) =>
      inferInstanceAs (Decidable ((_ ∧ (_ ∨ _)) → _))
  | .resolveServerMessage _ (.other _) | .busMessage _ _ _ | .connected _ _ | .connectError _
  | .foundClosed _ | .disconnected _ | .retry _ => inferInstanceAs (Decidable True)

theorem ServerLink.transfer {state after : State} (link : ServerLink state)
    (address : after.server.resolveServerAddress = state.server.resolveServerAddress)
    (conn : after.server.resolveServerConn = state.server.resolveServerConn)
    (attempts : after.network.attempts.count state.server.resolveServerAddress =
      state.network.attempts.count state.server.resolveServerAddress)
    (retries : after.network.retries = state.network.retries)
    (reaches : ∀ conn, after.network.Reaches conn state.server.resolveServerAddress ↔
      state.network.Reaches conn state.server.resolveServerAddress) : ServerLink after := by
  rw [← address] at attempts reaches
  cases link with
  | attempting none one nothing unreached =>
      rw [← address] at one unreached
      exact .attempting (conn.trans none) (attempts.trans one) (retries.trans nothing)
        (fun other => (reaches other).not.mpr (unreached other))
  | postponed none zero waiting unreached =>
      rw [← address] at zero waiting unreached
      exact .postponed (conn.trans none) (attempts.trans zero) (retries.trans waiting)
        (fun other => (reaches other).not.mpr (unreached other))
  | held current zero nothing reached =>
      rw [← address] at zero reached
      exact .held (conn.trans current) (attempts.trans zero) (retries.trans nothing)
        (fun other => (reaches other).trans (reached other))

theorem ServerLink.attempted {state : State} (link : ServerLink state)
    (waits : state.server.resolveServerAddress ∈ state.network.attempts) :
    state.network.attempts.count state.server.resolveServerAddress = 1 ∧
      state.server.resolveServerConn = none ∧ state.network.retries = [] ∧
      ∀ conn, ¬ state.network.Reaches conn state.server.resolveServerAddress := by
  have some := List.count_pos_iff.mpr waits
  cases link with
  | attempting none one nothing unreached => exact ⟨one, none, nothing, unreached⟩
  | postponed _ zero _ _ | held _ zero _ _ => exact absurd zero (Nat.ne_of_gt some)

/-- Another connection, or an attempt to reach another address, does not concern it. -/
theorem ServerLink.connectTo {state : State} {server : Server} (link : ServerLink state)
    {addr : NetAddress} (elsewhere : addr ≠ state.server.resolveServerAddress)
    (address : server.resolveServerAddress = state.server.resolveServerAddress)
    (conn : server.resolveServerConn = state.server.resolveServerConn) :
    ServerLink ⟨server, state.network.carryOut (.connectTo addr)⟩ := by
  refine link.transfer address conn ?_ rfl fun _ => Iff.rfl
  rw [Network.carryOut, List.count_append, List.count_singleton, if_neg, Nat.add_zero]
  simpa using elsewhere

theorem ServerLink.closed {state : State} (link : ServerLink state) (conn : ConnId) :
    ServerLink ⟨state.server, state.network.close conn⟩ :=
  link.transfer rfl rfl (by rw [Network.attempts_close]) (Network.retries_close _ _)
    (fun other => Network.reaches_close _ _ other _)

theorem ServerLink.connected {state : State} (link : ServerLink state)
    (fresh : state.network.Fresh)
    (waits : state.server.resolveServerAddress ∈ state.network.attempts) :
    ServerLink ⟨{ state.server with resolveServerConn := some state.network.nextId },
      state.network.accept state.server.resolveServerAddress⟩ := by
  obtain ⟨one, _, nothing, unreached⟩ := link.attempted waits
  refine .held rfl ?_ nothing fun other => ?_
  · change (state.network.attempts.erase _).count _ = 0
    rw [List.count_erase_self, one]
  · rw [Network.reaches_accept fresh]
    simp [unreached other]

theorem ServerLink.failed {state : State} (link : ServerLink state)
    (waits : state.server.resolveServerAddress ∈ state.network.attempts) :
    ServerLink ⟨state.server, (state.network.refuse state.server.resolveServerAddress).carryOut
      (.connectLater state.server.resolveServerAddress)⟩ := by
  obtain ⟨one, none, nothing, unreached⟩ := link.attempted waits
  refine .postponed none ?_ ?_ unreached
  · change (state.network.attempts.erase _).count _ = 0
    rw [List.count_erase_self, one]
  · change state.network.retries ++ [_] = _
    rw [nothing, List.nil_append]

theorem ServerLink.lost {state : State} (link : ServerLink state) {conn : ConnId}
    (reached : state.network.Reaches conn state.server.resolveServerAddress) :
    ServerLink ⟨{ state.server with resolveServerConn := none },
      (state.network.release conn).carryOut
        (.connectLater state.server.resolveServerAddress)⟩ := by
  cases link with
  | attempting _ _ _ unreached | postponed _ _ _ unreached => exact absurd reached (unreached conn)
  | @held current _ zero nothing only =>
      have same := (only conn).mp reached
      subst same
      refine .postponed rfl zero ?_ fun other => ?_
      · change state.network.retries ++ [_] = _
        rw [nothing, List.nil_append]
      · change ¬ (state.network.release conn).Reaches other _
        rw [Network.reaches_release, only]
        exact fun still => still.1 still.2

theorem ServerLink.retried {state : State} (link : ServerLink state) {addr : NetAddress}
    (waiting : addr ∈ state.network.retries) :
    ServerLink ⟨state.server, { state.network with
      retries := state.network.retries.erase addr
      attempts := state.network.attempts ++ [addr] }⟩ := by
  cases link with
  | attempting _ _ nothing _ | held _ _ nothing _ =>
      rw [nothing] at waiting
      cases waiting
  | postponed none zero one unreached =>
      rw [one] at waiting
      cases List.mem_singleton.mp waiting
      refine .attempting none ?_ ?_ unreached
      · change (state.network.attempts ++ [_]).count _ = 1
        rw [List.count_append, zero, List.count_singleton_self]
      · change state.network.retries.erase _ = []
        rw [one, List.erase_cons_head]

/-- The daemon's way to the resolve server, while no node is taken to be there. -/
structure SoleLink (state : State) : Prop where
  link : ServerLink state
  elsewhere : ∀ nodeAddress, state.server.resolvedAt nodeAddress ≠
    some state.server.resolveServerAddress
  fresh : state.network.Fresh

theorem Apart.elsewhere {state after : State} {event : Event} {outputs : List Effect}
    (apart : Apart state event) (transition : Transition state event after outputs)
    (elsewhere : ∀ nodeAddress, state.server.resolvedAt nodeAddress ≠
      some state.server.resolveServerAddress) (nodeAddress : UInt32) :
    after.server.resolvedAt nodeAddress ≠ some after.server.resolveServerAddress := by
  intro there
  rw [transition.resolveServerAddress] at there
  rcases transition.resolvedAt there with old | ⟨conn, resp, rfl, kind, _, same, given⟩
  · exact elsewhere nodeAddress old
  · refine apart ⟨kind, given.imp id fun unknown => ?_⟩ same.symm
    simpa [Server.known, Server.has] using unknown

theorem resolveServerConn_givesUp {server after : Server} {addr : NetAddress}
    {change : Node → Node} (given : server.GivesUp addr change after) :
    after.resolveServerConn = server.resolveServerConn := by
  obtain ⟨_, _, _, _, _, rfl⟩ := given
  rfl

theorem SoleLink.preserved {state after : State} {event : Event} {outputs : List Effect}
    (sole : SoleLink state) (apart : Apart state event)
    (stepped : step state event = some (after, outputs)) : SoleLink after := by
  have transition := step_transition stepped
  have elsewhere := apart.elsewhere transition sole.elsewhere
  refine ⟨?_, elsewhere, (fresh_step sole.fresh stepped).1⟩
  have link := sole.link
  cases transition with
  | toLocal _ | ignored _ | selfUpdated _ _ | cacheUpdated _ _ =>
      exact link.transfer rfl rfl rfl rfl fun _ => Iff.rfl
  | @toRemote client m writes server droped effects _ handles =>
      rcases handles.network with nothing | ⟨addr, resolved, connects⟩
      · rw [nothing]
        exact link.transfer handles.addresses.2.1 handles.resolveServerConn rfl rfl
          fun _ => Iff.rfl
      · rw [connects]
        refine link.connectTo (fun same => ?_) handles.addresses.2.1 handles.resolveServerConn
        exact sole.elsewhere _ (resolved.trans (congrArg some same))
  | refused => exact link.closed _
  | @cacheUpdatedConnecting conn resp known _ _ _ =>
      refine link.connectTo (fun same => elsewhere resp.nodeAddr ?_) rfl rfl
      change (state.server.putNode (state.server.updatedNode resp)).resolvedAt resp.nodeAddr = _
      rw [Server.resolvedAt_putNode, Server.nodeAddress_updatedNode, if_pos rfl,
        Node.resolvedAddress_of_resolved _ known]
      exact congrArg some same
  | resolveServerConnected waits _ => exact link.connected sole.fresh waits
  | nodeConnected _ different _ _ =>
      refine link.transfer rfl rfl ?_ rfl fun other => ?_
      · exact List.count_erase_of_ne (Ne.symm different)
      · exact Network.reaches_accept_of_ne sole.fresh (Ne.symm different) other
  | resolveServerFailed waits => exact link.failed waits
  | nodeFailed _ different given =>
      refine link.transfer ?_ (resolveServerConn_givesUp given) ?_ rfl fun _ => Iff.rfl
      · obtain ⟨_, _, _, _, _, rfl⟩ := given
        rfl
      · exact List.count_erase_of_ne (Ne.symm different)
  | foundClosed _ => exact link.closed _
  | resolveServerLost found _ there => exact link.lost ⟨_, found, there⟩
  | nodeLost found _ different given =>
      refine link.transfer ?_ (resolveServerConn_givesUp given) rfl rfl fun other => ?_
      · obtain ⟨_, _, _, _, _, rfl⟩ := given
        rfl
      · exact Network.reaches_release_of_ne found (Ne.symm different) other
  | retried waiting => exact link.retried waiting

theorem soleLink_initial (messageServerPort : Int32) (resolveServerAddress : NetAddress) :
    SoleLink (State.initial messageServerPort resolveServerAddress) where
  link := by
    refine .attempting rfl (List.count_singleton_self ..) rfl fun conn reached => ?_
    obtain ⟨connection, found, _⟩ := reached
    simp [State.initial] at found
  elsewhere := by simp [State.initial, Server.create, Server.resolvedAt]
  fresh := fresh_initial messageServerPort resolveServerAddress

/-- There is always exactly one way to the resolve server under way or in use. -/
theorem serverLink_run {messageServerPort : Int32} {resolveServerAddress : NetAddress}
    {history : List (EventMachine.Taken State Event Effect)} {state : State}
    (run : machine.Run Apart (State.initial messageServerPort resolveServerAddress) history
      state) : ServerLink state :=
  (run.state_invariant SoleLink (soleLink_initial _ _)
    fun _ _ _ _ sole apart stepped => sole.preserved apart stepped).link

theorem serverLink_run_reconnect :
    ∃ history state, machine.Run Apart (State.initial 8123 someResolveServer) history state ∧
      state.server.resolveServerConn = some 1 ∧ ServerLink state := by
  obtain ⟨history, state, run, current⟩ := EventMachine.exists_run_of_any
    machine Apart (State.initial 8123 someResolveServer)
    [.connectError someResolveServer, .retry someResolveServer,
      .connected someResolveServer (fun _ => true), .busMessage 1 someMessage (fun _ => true),
      .resolveServerMessage 0 someAnswer, .foundClosed 0, .disconnected 0,
      .retry someResolveServer, .connected someResolveServer (fun _ => true)]
    (fun reached => reached.2.server.resolveServerConn == some 1) (by decide)
  exact ⟨history, state, run, eq_of_beq current, serverLink_run run⟩

/-- A response that gives a node the resolve server's own address, and a second connection
to it. -/
example : ∃ history state, machine.Run (fun _ _ => True) (State.initial 8123 someResolveServer)
    history state ∧ state.network.isOpen 0 = true ∧ state.server.resolveServerConn = some 1 := by
  obtain ⟨history, state, run, current⟩ := EventMachine.exists_run_of_any
    machine (fun _ _ => True) (State.initial 8123 someResolveServer)
    [.connected someResolveServer (fun _ => true), .busMessage 1 someMessage (fun _ => true),
      .resolveServerMessage 0
        (.kResolveResponse ⟨.kOk, .kUpdateCache, 9, 9999, [10, 0, 0, 1], [47, 97, 47]⟩),
      .connected someResolveServer (fun _ => true)]
    (fun reached => reached.2.network.isOpen 0 && reached.2.server.resolveServerConn == some 1)
    (by decide)
  have both := (Bool.and_eq_true _ _).mp current
  exact ⟨history, state, run, both.1, eq_of_beq both.2⟩

/-- Of two requests the later one is on a later connection, or on the same, and then it
is not the first there and asks for a node. -/
def Precedes (first second : ConnId × ResolveRequest) : Prop :=
  first.1 < second.1 ∨ (first.1 = second.1 ∧ second.2.type = .kLookupNode)

/-- A connection to the resolve server on which a request can be written. -/
def Carries (state : State) (conn : ConnId) : Prop :=
  state.network.isOpen conn = true ∧
    state.network.Reaches conn state.server.resolveServerAddress

/-- The requests of a run so far, and the connection that the next one can go out on. -/
structure Requested (requests : List (ConnId × ResolveRequest)) (state : State) : Prop where
  ordered : requests.Pairwise Precedes
  below : ∀ entry ∈ requests, entry.1 < state.network.nextId
  current : ∀ conn ∈ state.server.resolveServerConn,
    state.network.Reaches conn state.server.resolveServerAddress ∧
      ∀ entry ∈ requests, entry.1 ≤ conn

/-- What a step does with the connection to the resolve server: it leaves it alone, asks
on it for a node, forgets it, or takes a new one and introduces itself there. -/
inductive Sends (state after : State) : List (ConnId × ResolveRequest) → Prop where
  | nothing :
      after.server.resolveServerConn = state.server.resolveServerConn →
      (∀ conn, state.network.Reaches conn state.server.resolveServerAddress →
        after.network.Reaches conn state.server.resolveServerAddress) → Sends state after []
  | lookup {conn : ConnId} {req : ResolveRequest} :
      state.server.resolveServerConn = some conn → after.server.resolveServerConn = some conn →
      state.network.isOpen conn = true → after.network = state.network →
      req.type = .kLookupNode → Sends state after [(conn, req)]
  | forgot : after.server.resolveServerConn = none → Sends state after []
  | introduced {requests : List (ConnId × ResolveRequest)} :
      after.server.resolveServerConn = some state.network.nextId →
      after.network = state.network.accept state.server.resolveServerAddress →
      (requests = [] ∨ ∃ req, requests = [(state.network.nextId, req)]) →
      Sends state after requests

theorem Transition.sends {state after : State} {event : Event} {outputs : List Effect}
    (transition : Transition state event after outputs) (fresh : state.network.Fresh) :
    Sends state after (outputs.filterMap Effect.request) := by
  cases transition with
  | toLocal _ | ignored _ | selfUpdated _ _ | cacheUpdated _ _ | resolveServerFailed _
  | retried _ | cacheUpdatedConnecting _ _ _ _ => exact .nothing rfl fun _ => id
  | refused | foundClosed _ =>
      exact .nothing rfl fun conn => (Network.reaches_close _ _ conn _).mpr
  | @toRemote client m writes server droped effects _ handles =>
      rcases handles.request with none | ⟨conn, current, opened, same, asks⟩
      · rw [none]
        refine .nothing handles.resolveServerConn fun conn reached => ?_
        exact (Network.reaches_carryOutAll _ _ conn _).mpr reached
      · rw [asks]
        exact .lookup current (handles.resolveServerConn.trans current) opened same rfl
  | @resolveServerConnected writes requests _ requested =>
      refine .introduced rfl rfl ?_
      rcases requested with rfl | rfl
      · exact .inl rfl
      · exact .inr ⟨_, rfl⟩
  | @nodeConnected addr writes node _ different _ _ =>
      obtain ⟨sent, effects, _⟩ := node.setConnection_spec state.network.nextId writes
      rw [effects, List.filterMap_map]
      have none : sent.filterMap (Effect.request ∘ Effect.wrote node.nodeAddress
          state.network.nextId) = [] := List.filterMap_eq_nil_iff.mpr fun _ _ => rfl
      rw [none]
      exact .nothing rfl fun conn =>
        (Network.reaches_accept_of_ne fresh (Ne.symm different) conn).mpr
  | nodeFailed _ _ given => exact .nothing (resolveServerConn_givesUp given) fun _ => id
  | resolveServerLost _ _ _ => exact .forgot rfl
  | nodeLost found _ different given =>
      exact .nothing (resolveServerConn_givesUp given) fun conn =>
        (Network.reaches_release_of_ne found (Ne.symm different) conn).mpr

theorem Requested.preserved {requests : List (ConnId × ResolveRequest)} {state after : State}
    {event : Event} {outputs : List Effect} (requested : Requested requests state)
    (fresh : state.network.Fresh) (stepped : step state event = some (after, outputs)) :
    Requested (requests ++ outputs.filterMap Effect.request) after ∧
      ∀ entry ∈ outputs.filterMap Effect.request, Carries after entry.1 := by
  have transition := step_transition stepped
  have address := transition.resolveServerAddress
  have later := (fresh_step fresh stepped).2.1
  have below : ∀ entry ∈ requests, entry.1 < after.network.nextId := fun entry member =>
    Nat.lt_of_lt_of_le (requested.below entry member) later
  have sends := transition.sends fresh
  generalize outputs.filterMap Effect.request = sent at sends ⊢
  cases sends with
  | nothing same kept =>
      rw [List.append_nil]
      refine ⟨⟨requested.ordered, below, fun conn current => ?_⟩, by simp⟩
      rw [same] at current
      obtain ⟨reached, before⟩ := requested.current conn current
      exact ⟨address ▸ kept conn reached, before⟩
  | @lookup conn req current same opened network kind =>
      obtain ⟨reached, before⟩ := requested.current conn current
      have there : after.network.Reaches conn after.server.resolveServerAddress := by
        rw [network, address]
        exact reached
      have last : conn < after.network.nextId := by
        rw [network]
        exact fresh.lt_of_isOpen opened
      refine ⟨⟨List.pairwise_append.mpr ⟨requested.ordered, List.pairwise_singleton _ _, ?_⟩,
        ?_, fun other held => ?_⟩, ?_⟩
      · intro entry member asked inLast
        cases List.mem_singleton.mp inLast
        rcases Nat.lt_or_eq_of_le (before entry member) with earlier | equal
        · exact .inl earlier
        · exact .inr ⟨equal, kind⟩
      · intro entry member
        rcases List.mem_append.mp member with old | new
        · exact below entry old
        · cases List.mem_singleton.mp new
          exact last
      · rw [same] at held
        cases held
        refine ⟨there, fun entry member => ?_⟩
        rcases List.mem_append.mp member with old | new
        · exact before entry old
        · cases List.mem_singleton.mp new
          exact Nat.le_refl _
      · intro entry member
        cases List.mem_singleton.mp member
        exact ⟨network ▸ opened, there⟩
  | forgot none =>
      rw [List.append_nil]
      refine ⟨⟨requested.ordered, below, fun conn current => ?_⟩, by simp⟩
      rw [none] at current
      cases current
  | introduced same network some =>
      have there : after.network.Reaches state.network.nextId
          after.server.resolveServerAddress := by
        rw [network, address, Network.reaches_accept fresh]
        exact .inl ⟨rfl, rfl⟩
      have opened : after.network.isOpen state.network.nextId = true := by
        rw [network]
        simp [Network.accept, Network.isOpen]
      have on : ∀ entry ∈ sent, entry.1 = state.network.nextId := by
        rcases some with rfl | ⟨_, rfl⟩ <;> simp
      have single : sent.Pairwise Precedes := by
        rcases some with rfl | ⟨_, rfl⟩ <;> simp
      refine ⟨⟨List.pairwise_append.mpr ⟨requested.ordered, single, ?_⟩, ?_, fun conn held => ?_⟩,
        fun entry member => (on entry member) ▸ ⟨opened, there⟩⟩
      · intro entry member asked inLast
        exact .inl (on asked inLast ▸ requested.below entry member)
      · intro entry member
        rcases List.mem_append.mp member with old | new
        · exact below entry old
        · rw [on entry new, network]
          exact Nat.lt_succ_self _
      · rw [same] at held
        cases held
        refine ⟨there, fun entry member => ?_⟩
        rcases List.mem_append.mp member with old | new
        · exact Nat.le_of_lt (requested.below entry old)
        · exact Nat.le_of_eq (on entry new)

theorem requested_initial (messageServerPort : Int32) (resolveServerAddress : NetAddress) :
    Requested [] (State.initial messageServerPort resolveServerAddress) where
  ordered := .nil
  below := by simp
  current := by simp [State.initial, Server.create]

section Runs

variable {guard : State → Event → Prop} {messageServerPort : Int32}
  {resolveServerAddress : NetAddress}
  {history : List (EventMachine.Taken State Event Effect)} {state : State}

theorem requested_run (run : machine.Run guard
    (State.initial messageServerPort resolveServerAddress) history state) :
    Requested ((EventMachine.outputs history).filterMap Effect.request) state := by
  induction run with
  | nil => exact requested_initial _ _
  | snoc run _ stepped ih =>
      have fresh := (fresh_run run (fresh_initial _ _)).1
      rw [EventMachine.outputs_snoc, List.filterMap_append]
      exact (ih.preserved fresh stepped).1

/-- In every run: no request goes out on a connection after one on a later connection,
the introduction is the first on its connection and the only one there, and each request
is written on an open connection to the resolve server. -/
theorem requests_run (run : machine.Run guard
    (State.initial messageServerPort resolveServerAddress) history state) :
    ((EventMachine.outputs history).filterMap Effect.request).Pairwise Precedes ∧
      ∀ taken ∈ history, ∀ entry ∈ taken.outputs.filterMap Effect.request,
        Carries taken.after entry.1 := by
  refine ⟨(requested_run run).ordered, fun taken member => ?_⟩
  obtain ⟨earlier, before, _, stepped⟩ := run.of_mem member
  exact ((requested_run before).preserved (fresh_run before (fresh_initial _ _)).1 stepped).2

theorem requests_run_reconnect :
    ∃ history : List (EventMachine.Taken State Event Effect),
      ((EventMachine.outputs history).filterMap Effect.request).map Prod.fst = [0, 0, 1] ∧
      ((EventMachine.outputs history).filterMap Effect.request).Pairwise Precedes ∧
      ∀ taken ∈ history, ∀ entry ∈ taken.outputs.filterMap Effect.request,
        Carries taken.after entry.1 := by
  obtain ⟨history, _, run, three⟩ := EventMachine.exists_run_of_any
    machine (fun _ _ => True) (State.initial 8123 someResolveServer)
    [.connected someResolveServer (fun _ => true), .busMessage 1 someMessage (fun _ => true),
      .foundClosed 0, .disconnected 0, .retry someResolveServer,
      .connected someResolveServer (fun _ => true)]
    (fun reached => ((EventMachine.outputs reached.1).filterMap Effect.request).map Prod.fst ==
      [0, 0, 1]) (by decide)
  exact ⟨history, eq_of_beq three, requests_run run⟩

end Runs

end Daemon

end Cpmd
