import Cpmd.Links

/-! One connect attempt at a time for each remote node. -/

set_option autoImplicit false

namespace Cpmd.Daemon

open Library

/-- The step registers no node that is registered already, and attempts no
connection to a node while an attempt is outstanding or a connection is open. -/
structure SingleAttempt (taken : EventMachine.Taken State Event Effect) : Prop where
  registers : ∀ node inserted, .registered node inserted ∈ taken.outputs →
    inserted = true ∧ ∀ addr, taken.before.server.nodesIndex.find addr ≠ some node
  connects : ∀ addr, .connectTo addr ∈ taken.outputs →
    addr ≠ taken.before.server.resolveServerAddress →
    addr ∉ taken.before.network.attempts ∧
      ∀ conn connection, taken.before.network.conns.find conn = some connection →
        connection.peerAddr = addr → connection.closed = true

def GivesAddress (state : State) (resp : ResolveResponse) : Prop :=
  resp.type = .kUpdateCache ∧
    (resp.code = .kOk ∨ (state.server.nodes.find resp.nodeAddr).isSome = false)

/-- All responses about a node give it the address of the book. -/
def Follows (book : UInt32 → NetAddress) (state : State) : Event → Prop
  | .resolveServerMessage _ (.kResolveResponse resp) =>
      GivesAddress state resp → ⟨resp.nodeIp, resp.nodePort⟩ = book resp.nodeAddr
  | _ => True

/-- No attempt to an address is outstanding, and no connection to it has been
found closed without its close callback having run. -/
def Quiet (network : Network) (addr : NetAddress) : Prop :=
  addr ∉ network.attempts ∧
    ∀ connection ∈ network.conns.values, connection.peerAddr = addr → connection.closed = false

/-- Where a step comes to connect to a node, be it for a message or for a response, nothing
about the node's last connection is pending; and a response does not make the daemon connect
to a node at the address of the resolve server. -/
def Settled (state : State) : Event → Prop
  | .busMessage _ m _ =>
      state.server.isLocal m.remoteAddress = false →
        ∀ node ∈ state.server.nodes.find m.remoteAddress.nodeAddr, node.resolved = true →
          node.connected state.network = false → node.connecting = false →
          ∀ addr ∈ node.netAddress, addr ≠ state.server.resolveServerAddress →
            Quiet state.network addr
  | .resolveServerMessage _ (.kResolveResponse resp) =>
      resp.type = .kUpdateCache → resp.code = .kOk →
        ∀ node ∈ state.server.nodes.find resp.nodeAddr, node.hasCachedMessage = true →
          node.connected state.network = false →
          (⟨resp.nodeIp, resp.nodePort⟩ : NetAddress) ≠ state.server.resolveServerAddress ∧
            Quiet state.network ⟨resp.nodeIp, resp.nodePort⟩
  | _ => True

theorem SingleAttempt.of_silent {taken : EventMachine.Taken State Event Effect}
    (unregistered : ∀ node inserted, .registered node inserted ∉ taken.outputs)
    (unattempted : ∀ addr, .connectTo addr ∉ taken.outputs) : SingleAttempt taken :=
  ⟨fun _ _ member => absurd member (unregistered _ _),
    fun _ member _ => absurd member (unattempted _)⟩

variable {book : UInt32 → NetAddress}

theorem Linked.idle_of_quiet {state : State} (linked : Linked book state)
    (injective : Function.Injective book) {nodeAddress : UInt32} {node : Node}
    {addr : NetAddress} (found : state.server.nodes.find nodeAddress = some node)
    (own : node.netAddress = some addr) (disconnected : node.connected state.network = false)
    (different : addr ≠ state.server.resolveServerAddress) (quiet : Quiet state.network addr) :
    Represents state addr .idle := by
  have inBook := linked.addressed nodeAddress node addr found own
  obtain ⟨link, represents⟩ := linked.links addr different
  cases represents with
  | idle unindexed none unreached => exact .idle unindexed none unreached
  | attempting _ one _ =>
      exact absurd (List.count_pos_iff.mp (by omega)) quiet.1
  | @held other holder conn indexed held bound _ reached =>
      have same : other = nodeAddress :=
        injective ((linked.book_indexed indexed).symm.trans inBook)
      subst same
      rw [found] at held
      cases held
      obtain ⟨connection, there, peer⟩ := (reached conn).mpr rfl
      have opened := quiet.2 connection (FiniteMap.mem_values.mpr ⟨conn, there⟩) peer
      have connected : node.connected state.network = true :=
        Node.connected_iff.mpr ⟨conn, bound, by simp [Network.isOpen, there, opened]⟩
      rw [connected] at disconnected
      cases disconnected

theorem free_of_idle {state : State} {addr : NetAddress}
    (idle : Represents state addr .idle) : Free state addr := by
  cases idle with
  | idle unindexed none unreached => exact ⟨unindexed, fun _ => .idle unindexed none unreached⟩

/-- Who is registered under the resolve server's address is marked. -/
theorem Linked.free {state : State} (linked : Linked book state)
    (injective : Function.Injective book) {nodeAddress : UInt32} {node : Node}
    {addr : NetAddress} (found : state.server.nodes.find nodeAddress = some node)
    (own : node.netAddress = some addr) (disconnected : node.connected state.network = false)
    (unmarked : node.connecting = false)
    (quiet : addr ≠ state.server.resolveServerAddress → Quiet state.network addr) :
    Free state addr := by
  by_cases resolver : addr = state.server.resolveServerAddress
  · refine ⟨?_, fun different => absurd resolver different⟩
    cases indexed : state.server.nodesIndex.find addr with
    | none => rfl
    | some other =>
        have same : other = nodeAddress := injective
          ((linked.book_indexed indexed).symm.trans (linked.addressed _ _ _ found own))
        rw [same, resolver] at indexed
        rw [linked.marked nodeAddress node indexed found] at unmarked
        cases unmarked
  · exact free_of_idle
      (linked.idle_of_quiet injective found own disconnected resolver (quiet resolver))

theorem quiet_of_idle {state : State} {addr : NetAddress}
    (idle : Represents state addr .idle) : Quiet state.network addr := by
  cases idle with
  | idle _ none unreached =>
      refine ⟨List.count_eq_zero.mp none, fun connection member peer => ?_⟩
      obtain ⟨conn, found⟩ := FiniteMap.mem_values.mp member
      exact absurd ⟨connection, found, peer⟩ (unreached conn)

theorem Linked.singleAttempt {state after : State} {event : Event} {outputs : List Effect}
    (linked : Linked book state) {nodeAddress : UInt32} {addr : NetAddress}
    (inBook : addr = book nodeAddress) (free : Free state addr)
    (registers : ∀ node inserted, .registered node inserted ∈ outputs →
      node = nodeAddress ∧ inserted = (state.server.nodesIndex.find addr).isNone)
    (connects : ∀ target, .connectTo target ∈ outputs → target = addr) :
    SingleAttempt ⟨state, event, outputs, after⟩ := by
  refine ⟨fun node inserted member => ?_, fun target member different => ?_⟩
  · obtain ⟨rfl, rfl⟩ := registers node inserted member
    refine ⟨by rw [free.unindexed]; rfl, fun other entry => ?_⟩
    have same : other = addr := (linked.book_indexed entry).trans inBook.symm
    rw [same, free.unindexed] at entry
    cases entry
  · have same := connects target member
    subst same
    cases free.idle different with
    | idle _ none unreached =>
        refine ⟨List.count_eq_zero.mp none, fun conn connection found peer => ?_⟩
        exact absurd ⟨connection, found, peer⟩ (unreached conn)

/-- Where the network changes only towards the resolve server, nothing changes
for the links. -/
theorem Linked.aside {state after : State} (linked : Linked book state)
    (nodes : after.server.nodes = state.server.nodes)
    (nodesIndex : after.server.nodesIndex = state.server.nodesIndex)
    (resolver : after.server.resolveServerAddress = state.server.resolveServerAddress)
    (fresh : ∀ conn addr, after.network.Reaches conn addr → conn < after.network.nextId)
    (postponed : ∀ addr ∈ after.network.retries, addr = state.server.resolveServerAddress)
    (others : ∀ addr, addr ≠ state.server.resolveServerAddress →
      after.network.attempts.count addr = state.network.attempts.count addr ∧
        ∀ conn, after.network.Reaches conn addr ↔ state.network.Reaches conn addr) :
    Linked book after where
  addressed := by
    rw [nodes]
    exact linked.addressed
  indexed := by
    rw [nodes, nodesIndex]
    exact linked.indexed
  fresh := fresh
  postponed := by
    rw [resolver]
    exact postponed
  links := by
    intro addr different
    rw [resolver] at different
    obtain ⟨link, represents⟩ := linked.links addr different
    obtain ⟨count, reaches⟩ := others addr different
    refine ⟨link, represents.transfer (by rw [nodesIndex]) count reaches ?_⟩
    intro nodeAddress node _ found
    exact ⟨node, by rw [nodes]; exact found, rfl⟩
  marked := by
    rw [nodes, nodesIndex, resolver]
    exact linked.marked

theorem Linked.close {state : State} (linked : Linked book state) (conn : ConnId) :
    Linked book ⟨state.server, state.network.close conn⟩ := by
  refine linked.aside rfl rfl rfl ?_ ?_ ?_
  · simpa [Network.nextId_close] using linked.fresh
  · simpa [Network.retries_close] using linked.postponed
  · intro addr _
    simp [Network.attempts_close]

theorem Linked.postpone {state : State} (linked : Linked book state) :
    ∀ addr ∈ state.network.retries ++ [state.server.resolveServerAddress],
      addr = state.server.resolveServerAddress := by
  intro addr member
  rcases List.mem_append.mp member with old | new
  · exact linked.postponed addr old
  · exact List.mem_singleton.mp new

theorem Linked.cacheMessage {state : State} (linked : Linked book state) (m : Message)
    {nodeAddress : UInt32} (node : Node) (keyed : node.nodeAddress = nodeAddress)
    (sameAddress : node.netAddress = (state.server.nodeOrNew nodeAddress).netAddress)
    (sameConn : node.weakConn = (state.server.nodeOrNew nodeAddress).weakConn)
    (sameMark : node.connecting = (state.server.nodeOrNew nodeAddress).connecting) :
    Linked book ⟨state.server.putNode (node.cacheMessage m).1, state.network⟩ := by
  have keyed' : (node.cacheMessage m).1.nodeAddress = nodeAddress := keyed
  refine linked.putNode ?_ ?_
  · intro addr own
    rw [keyed']
    have owns : (state.server.nodeOrNew nodeAddress).netAddress = some addr :=
      sameAddress.symm.trans own
    cases found : state.server.nodes.find nodeAddress with
    | none =>
        simp [Server.nodeOrNew, found, Node.create] at owns
    | some old =>
        rw [Server.nodeOrNew_of_find found] at owns
        exact linked.addressed nodeAddress old addr found owns
  · intro old found
    rw [keyed'] at found
    rw [Server.nodeOrNew_of_find found] at sameAddress sameConn sameMark
    exact ⟨.inr sameAddress, sameConn, fun mark => sameMark.trans mark⟩

theorem Linked.toRemote {state : State} (linked : Linked book state)
    (injective : Function.Injective book) {client : UInt32} {raw : Message}
    {writes : Nat → Bool} {server : Server} {droped : Option Message} {effects : List Effect}
    (remote : state.server.isLocal raw.remoteAddress = false)
    (settled : Settled state (.busMessage client raw writes))
    (handles : state.server.HandlesToRemote state.network writes (state.server.stamp client raw)
      (server, droped, effects)) :
    Linked book ⟨server, state.network.carryOutAll effects⟩ ∧
      SingleAttempt ⟨state, .busMessage client raw writes, effects,
        ⟨server, state.network.carryOutAll effects⟩⟩ := by
  cases handles with
  | @wrote node conn found _ _ _ _ =>
      refine ⟨linked.putNode (fun addr own => ?_) (fun old held => ?_),
        .of_silent (by simp) (by simp)⟩
      · rw [state.server.keyed found]
        exact linked.addressed _ node addr found own
      · rw [state.server.keyed found, found] at held
        cases held
        exact ⟨.inr rfl, rfl, id⟩
  | @cached node found =>
      subst found
      exact ⟨linked.cacheMessage _ _ (Server.nodeAddress_nodeOrNew _ _) rfl rfl rfl,
        .of_silent (by simp) (by simp)⟩
  | @requested node requests found _ requested =>
      subst found
      have left := linked.cacheMessage (state.server.stamp client raw)
        ((state.server.nodeOrNew
          (state.server.stamp client raw).remoteAddress.nodeAddr).setResolveState .kResolving
          (by simp))
        (Server.nodeAddress_nodeOrNew _ _) rfl rfl rfl
      rcases requested with rfl | ⟨conn, _, _, _, rfl⟩
      · exact ⟨left, .of_silent (by simp) (by simp)⟩
      · exact ⟨left, .of_silent (by simp) (by simp)⟩
  | @connects node known found disconnected unmarked =>
      have keyed := state.server.keyed found
      have own : node.netAddress = some (node.addressOf known) := (Option.some_get _).symm
      have inBook := linked.addressed _ node _ found own
      have free := linked.free injective found own disconnected unmarked
        (settled remote node found known disconnected unmarked _ own)
      have marked : Linked book ⟨state.server.putNode (node.setConnecting true),
          state.network⟩ := by
        refine linked.putNode (fun addr owns => ?_) (fun old held => ?_)
        · rw [Node.nodeAddress_setConnecting, keyed]
          exact linked.addressed _ node addr found owns
        · rw [Node.nodeAddress_setConnecting, keyed, found] at held
          cases held
          exact ⟨.inr rfl, rfl, fun _ => rfl⟩
      refine ⟨?_, linked.singleAttempt inBook free (fun other inserted member => ?_)
        (fun target member => ?_)⟩
      · have still : Free ⟨state.server.putNode (node.setConnecting true), state.network⟩
            (node.addressOf known) := by
          refine ⟨free.unindexed, fun different => ?_⟩
          cases free.idle different with
          | idle unindexed none unreached => exact .idle unindexed none unreached
        exact marked.connect (node.setConnecting true)
          (by rw [Server.find_putNode, if_pos rfl]) own still fun _ => rfl
      · simp only [Server.registerNode, List.mem_cons, Effect.registered.injEq, reduceCtorEq,
          List.not_mem_nil, or_false, FiniteMap.emplace_snd] at member
        exact ⟨member.1.trans keyed, member.2⟩
      · simpa [Server.registerNode] using member

theorem Linked.updateNode {state : State} (linked : Linked book state) {conn : ConnId}
    {resp : ResolveResponse} (kind : resp.type = .kUpdateCache)
    (follows : Follows book state (.resolveServerMessage conn (.kResolveResponse resp))) :
    Linked book ⟨state.server.putNode (state.server.updatedNode resp), state.network⟩ := by
  have keyed := state.server.nodeAddress_updatedNode resp
  refine linked.putNode ?_ ?_
  · intro addr own
    rw [keyed]
    rcases state.server.updatedNode_cases resp with ⟨old, found, good, same⟩ |
        ⟨old, found, _, _, same | same⟩ | ⟨missing, same⟩
    · rw [same] at own
      cases own
      exact follows ⟨kind, .inl good⟩
    · rw [same] at own
      exact linked.addressed _ old addr found own
    · rw [same] at own
      exact linked.addressed _ old addr found own
    · rw [same] at own
      cases own
      exact follows ⟨kind, .inr (by rw [missing]; rfl)⟩
  · intro old held
    rw [keyed] at held
    rcases state.server.updatedNode_cases resp with ⟨old', found, good, same⟩ |
        ⟨old', found, _, _, same | same⟩ | ⟨missing, same⟩
    · rw [held] at found
      cases found
      rw [same]
      refine ⟨?_, rfl, id⟩
      cases own : old.netAddress with
      | none => exact .inl rfl
      | some addr =>
          have inBook := linked.addressed _ old addr held own
          rw [inBook, ← follows ⟨kind, .inl good⟩]
          exact .inr rfl
    · rw [held] at found
      cases found
      rw [same]
      exact ⟨.inr rfl, rfl, id⟩
    · rw [held] at found
      cases found
      rw [same]
      exact ⟨.inr rfl, rfl, id⟩
    · rw [held] at missing
      cases missing

theorem Linked.updateNodeConnecting {state after : State} (linked : Linked book state)
    (injective : Function.Injective book) {conn : ConnId} {resp : ResolveResponse}
    (known : (state.server.updatedNode resp).resolved = true)
    (kind : resp.type = .kUpdateCache)
    (waits : (state.server.updatedNode resp).hasCachedMessage = true)
    (disconnected : (state.server.updatedNode resp).connected state.network = false)
    (follows : Follows book state (.resolveServerMessage conn (.kResolveResponse resp)))
    (settled : Settled state (.resolveServerMessage conn (.kResolveResponse resp))) :
    Linked book ⟨((state.server.putNode (state.server.updatedNode resp)).registerNode _ known).1,
        state.network.carryOut (.connectTo ((state.server.updatedNode resp).addressOf known))⟩ ∧
      SingleAttempt ⟨state, .resolveServerMessage conn (.kResolveResponse resp),
        [.connectTo ((state.server.updatedNode resp).addressOf known),
          ((state.server.putNode (state.server.updatedNode resp)).registerNode _ known).2],
        after⟩ := by
  have keyed := state.server.nodeAddress_updatedNode resp
  have updated := linked.updateNode kind follows
  have own : (state.server.updatedNode resp).netAddress =
      some ((state.server.updatedNode resp).addressOf known) := (Option.some_get _).symm
  have found : (state.server.putNode (state.server.updatedNode resp)).nodes.find
      (state.server.updatedNode resp).nodeAddress = some (state.server.updatedNode resp) := by
    rw [Server.find_putNode, if_pos rfl]
  have inBook := updated.addressed _ _ _ found own
  -- only a good answer about a known node can lead here
  have quiet : (state.server.updatedNode resp).addressOf known ≠
      state.server.resolveServerAddress ∧
      Quiet state.network ((state.server.updatedNode resp).addressOf known) := by
    rcases state.server.updatedNode_cases resp with ⟨old, held, good, same⟩ |
        ⟨_, _, _, unresolved, _⟩ | ⟨_, same⟩
    · rw [same] at waits disconnected
      have given : (state.server.updatedNode resp).netAddress =
          some ⟨resp.nodeIp, resp.nodePort⟩ := by
        rw [same]
        rfl
      rw [Option.some.inj (own.symm.trans given)]
      exact settled kind good old held waits disconnected
    · rw [known] at unresolved
      cases unresolved
    · rw [same] at waits
      cases waits
  have idle := updated.idle_of_quiet injective found own disconnected quiet.1 quiet.2
  have before : Represents state ((state.server.updatedNode resp).addressOf known) .idle := by
    cases idle with
    | idle unindexed none unreached => exact .idle unindexed none unreached
  refine ⟨updated.connect _ found own (free_of_idle idle) fun same => absurd same quiet.1,
    linked.singleAttempt inBook (free_of_idle before) (fun node inserted member => ?_)
      (fun target member => ?_)⟩
  · simp only [Server.registerNode, List.mem_cons, Effect.registered.injEq, reduceCtorEq,
      List.not_mem_nil, or_false, false_or, FiniteMap.emplace_snd] at member
    exact member
  · simpa [Server.registerNode] using member

/-- The step lemma: under the conditions a step keeps the links, and makes no
second attempt. -/
theorem Linked.preserved {state after : State} {event : Event} {outputs : List Effect}
    (linked : Linked book state) (injective : Function.Injective book)
    (follows : Follows book state event) (settled : Settled state event)
    (stepped : step state event = some (after, outputs)) :
    Linked book after ∧ SingleAttempt ⟨state, event, outputs, after⟩ := by
  cases step_transition stepped with
  | toLocal _ | ignored _ | selfUpdated _ _ =>
      exact ⟨⟨linked.addressed, linked.indexed, linked.fresh, linked.postponed,
        fun addr different => by
          obtain ⟨link, represents⟩ := linked.links addr different
          exact ⟨link, represents.transfer rfl rfl (fun _ => Iff.rfl)
            (fun _ node _ found => ⟨node, found, rfl⟩)⟩, linked.marked⟩,
        .of_silent (by simp) (by simp)⟩
  | toRemote remote handles => exact linked.toRemote injective remote settled handles
  | refused => exact ⟨linked.close _, .of_silent (by simp) (by simp)⟩
  | cacheUpdated kind _ =>
      exact ⟨linked.updateNode kind follows, .of_silent (by simp) (by simp)⟩
  | cacheUpdatedConnecting known kind waits disconnected =>
      exact linked.updateNodeConnecting injective known kind waits disconnected follows settled
  | @resolveServerConnected writes requests _ requested =>
      refine ⟨linked.aside rfl rfl rfl (Network.fresh_accept linked.fresh _) linked.postponed ?_,
        ?_⟩
      · intro addr different
        exact ⟨List.count_erase_of_ne different,
          Network.reaches_accept_of_ne linked.fresh different⟩
      · rcases requested with rfl | rfl <;> exact .of_silent (by simp) (by simp)
  | @nodeConnected addr writes node waiting different indexed found =>
      refine ⟨linked.nodeConnected writes waiting different indexed found, ?_⟩
      obtain ⟨sent, effects, _⟩ := node.setConnection_spec state.network.nextId writes
      rw [effects]
      exact .of_silent (by simp) (by simp)
  | resolveServerFailed _ =>
      refine ⟨linked.aside rfl rfl rfl linked.fresh linked.postpone ?_,
        .of_silent (by simp) (by simp)⟩
      intro addr different
      exact ⟨List.count_erase_of_ne different, fun _ => Iff.rfl⟩
  | @nodeFailed addr server waiting different given =>
      refine ⟨linked.givesUp (Node.setConnecting · false) (fun _ => rfl) (fun _ => rfl) given
        different rfl rfl ?_ ?_, .of_silent (by simp) (by simp)⟩
      · cases linked.attempting waiting different with
        | attempting _ one unreached =>
            refine ⟨?_, unreached⟩
            simp only [Network.refuse, List.count_erase_self]
            omega
      · intro other foreign
        exact ⟨List.count_erase_of_ne foreign, fun _ => Iff.rfl⟩
  | foundClosed _ => exact ⟨linked.close _, .of_silent (by simp) (by simp)⟩
  | @resolveServerLost conn connection found _ peer =>
      refine ⟨linked.aside rfl rfl rfl ?_ linked.postpone ?_, .of_silent (by simp) (by simp)⟩
      · intro other addr reached
        exact linked.fresh other addr ((Network.reaches_release _ _ _ _).mp reached).2
      · intro addr different
        exact ⟨rfl, Network.reaches_release_of_ne found (peer ▸ different)⟩
  | @nodeLost conn connection server found _ different given =>
      refine ⟨linked.givesUp Node.clearConnection (fun _ => rfl) (fun _ => rfl) given
        different rfl rfl ?_ ?_, .of_silent (by simp) (by simp)⟩
      · obtain ⟨link, represents⟩ := linked.links connection.peerAddr different
        have reached : state.network.Reaches conn connection.peerAddr := ⟨connection, found, rfl⟩
        cases represents with
        | idle _ _ unreached | attempting _ _ unreached => exact absurd reached (unreached conn)
        | held _ _ _ none only =>
            refine ⟨none, fun other => ?_⟩
            rw [Network.reaches_release, only other, ← (only conn).mp reached]
            exact fun both => both.1 both.2
      · intro other foreign
        exact ⟨rfl, Network.reaches_release_of_ne found foreign⟩
  | @retried addr postponed =>
      have own := linked.postponed addr postponed
      refine ⟨linked.aside rfl rfl rfl linked.fresh ?_ ?_, ?_⟩
      · intro target member
        exact linked.postponed target (List.mem_of_mem_erase member)
      · intro target different
        refine ⟨?_, fun _ => Iff.rfl⟩
        have foreign : addr ≠ target := by
          intro equal
          subst equal
          exact different own
        simp [foreign]
      · refine ⟨by simp, fun target member different => ?_⟩
        have same : target = addr := by simpa using member
        exact absurd (same.trans own) different

/-- Registering a node over a link that is not idle is what `SingleAttempt`
forbids. -/
theorem Linked.quiet_of_registers {state : State} {taken : EventMachine.Taken State Event Effect}
    (linked : Linked book state) (single : SingleAttempt taken) {addr : NetAddress}
    (different : addr ≠ state.server.resolveServerAddress) {node : UInt32}
    (registers : .registered node (state.server.nodesIndex.find addr).isNone ∈ taken.outputs) :
    Quiet state.network addr := by
  have unindexed := Option.isNone_iff_eq_none.mp (single.registers _ _ registers).1
  obtain ⟨link, represents⟩ := linked.links addr different
  cases represents with
  | idle _ none unreached => exact quiet_of_idle (.idle unindexed none unreached)
  | attempting indexed _ _ | held indexed _ _ _ _ =>
      rw [unindexed] at indexed
      cases indexed

/-- The condition is exact: a step that meets the property is settled, unless a response makes
it connect to a node at the resolve server's address. -/
theorem Linked.settled_of_singleAttempt {state after : State} {event : Event}
    {outputs : List Effect} (linked : Linked book state)
    (elsewhere : ∀ conn resp, event = .resolveServerMessage conn (.kResolveResponse resp) →
      .connectTo state.server.resolveServerAddress ∉ outputs)
    (stepped : step state event = some (after, outputs))
    (single : SingleAttempt ⟨state, event, outputs, after⟩) : Settled state event := by
  cases event with
  | busMessage client raw writes =>
      intro remote node found known disconnected unmarked addr own different
      have forwarded : outputs = [(state.server.registerNode node known).2,
          .connectTo (node.addressOf known)] := by
        have handled := @Server.handleToRemoteMessage_of_idle state.server state.network
          (state.server.stamp client raw) node writes found known disconnected unmarked
        cases stepped
        simp [Server.handleBusMessage, remote, handled]
      have same : node.addressOf known = addr :=
        Option.some.inj ((Option.some_get _).trans own)
      have registers : .registered node.nodeAddress
          (state.server.nodesIndex.find addr).isNone ∈ outputs := by
        simp [forwarded, Server.registerNode, same]
      exact linked.quiet_of_registers single different registers
  | resolveServerMessage conn m =>
      cases m with
      | other type => trivial
      | kResolveResponse resp =>
          intro kind good node found waits disconnected
          have target := elsewhere conn resp rfl
          have same : state.server.updatedNode resp =
              node.setNetAddress ⟨resp.nodeIp, resp.nodePort⟩ := by
            rcases state.server.updatedNode_cases resp with ⟨old, held, _, same⟩ |
                ⟨_, _, bad, _⟩ | ⟨missing, _⟩
            · rw [Option.mem_def.mp found] at held
              cases held
              exact same
            · exact absurd good bad
            · rw [Option.mem_def.mp found] at missing
              cases missing
          cases step_transition stepped with
          | ignored other => exact absurd kind (other resp rfl)
          | selfUpdated other _ => rw [kind] at other; cases other
          | cacheUpdated _ settled =>
              rw [same] at settled
              rcases settled with unresolved | empty | connected
              · cases unresolved
              · exact absurd (waits.symm.trans empty) (by decide)
              · exact absurd (disconnected.symm.trans connected) (by decide)
          | cacheUpdatedConnecting known _ _ _ =>
              have address : (state.server.updatedNode resp).addressOf known =
                  ⟨resp.nodeIp, resp.nodePort⟩ := by
                have given : (state.server.updatedNode resp).netAddress =
                    some ⟨resp.nodeIp, resp.nodePort⟩ := by
                  rw [same]
                  rfl
                exact Option.some.inj ((Option.some_get _).trans given)
              have registers :
                  ((state.server.putNode (state.server.updatedNode resp)).registerNode _ known).2 =
                    .registered (state.server.updatedNode resp).nodeAddress
                      (state.server.nodesIndex.find ⟨resp.nodeIp, resp.nodePort⟩).isNone := by
                rw [Server.registerNode, address, FiniteMap.emplace_snd]
                rfl
              have different : (⟨resp.nodeIp, resp.nodePort⟩ : NetAddress) ≠
                  state.server.resolveServerAddress := fun resolver => by
                rw [address, resolver] at target
                exact target List.mem_cons_self
              exact ⟨different, linked.quiet_of_registers single different
                (List.mem_cons_of_mem _ (List.mem_singleton.mpr registers.symm))⟩
  | connected | connectError | foundClosed | disconnected | retry => trivial

theorem linked_run (injective : Function.Injective book) {messageServerPort : Int32}
    {resolveServerAddress : NetAddress}
    {history : List (EventMachine.Taken State Event Effect)} {state : State}
    (run : machine.Run (fun state event => Follows book state event ∧ Settled state event)
      (State.initial messageServerPort resolveServerAddress) history state) :
    Linked book state :=
  run.state_invariant (Linked book) (linked_initial book messageServerPort resolveServerAddress)
    (fun _ _ _ _ linked admitted stepped =>
      (linked.preserved injective admitted.1 admitted.2 stepped).1)

/-- In a run in which the daemon comes to connect to a node only when nothing
about its last connection is pending, no node is registered twice and no
connection attempted twice. -/
theorem singleAttempt_run (injective : Function.Injective book) {messageServerPort : Int32}
    {resolveServerAddress : NetAddress}
    {history : List (EventMachine.Taken State Event Effect)} {state : State}
    (run : machine.Run (fun state event => Follows book state event ∧ Settled state event)
      (State.initial messageServerPort resolveServerAddress) history state) :
    ∀ taken ∈ history, SingleAttempt taken := by
  intro taken member
  obtain ⟨earlier, previous, admitted, stepped⟩ := run.of_mem member
  exact ((linked_run injective previous).preserved injective admitted.1 admitted.2 stepped).2

instance (state : State) (resp : ResolveResponse) : Decidable (GivesAddress state resp) :=
  inferInstanceAs (Decidable (_ ∧ (_ ∨ _)))

instance (network : Network) (addr : NetAddress) : Decidable (Quiet network addr) :=
  inferInstanceAs (Decidable (_ ∧ ∀ connection ∈ network.conns.values, _ → _))

instance (state : State) : ∀ event, Decidable (Follows book state event)
  | .resolveServerMessage _ (.kResolveResponse _) => inferInstanceAs (Decidable (_ → _))
  | .resolveServerMessage _ (.other _) | .busMessage _ _ _ | .connected _ _ | .connectError _
  | .foundClosed _ | .disconnected _ | .retry _ => inferInstanceAs (Decidable True)

instance (state : State) : ∀ event, Decidable (Settled state event)
  | .busMessage _ m _ => inferInstanceAs (Decidable (_ →
      ∀ node ∈ state.server.nodes.find m.remoteAddress.nodeAddr, _ → _ → _ →
        ∀ addr ∈ node.netAddress, _ → _))
  | .resolveServerMessage _ (.kResolveResponse resp) => inferInstanceAs (Decidable (_ → _ →
      ∀ node ∈ state.server.nodes.find resp.nodeAddr, _ → _ → (_ ∧ _)))
  | .resolveServerMessage _ (.other _) | .connected _ _ | .connectError _
  | .foundClosed _ | .disconnected _ | .retry _ => inferInstanceAs (Decidable True)

theorem someBook_injective : Function.Injective someBook := by
  intro left right same
  have bytes : LittleEndian.bytes left = LittleEndian.bytes right := congrArg NetAddress.ip same
  have words := congrArg LittleEndian.word bytes
  rwa [LittleEndian.word_bytes, LittleEndian.word_bytes] at words

/-- A node is looked up, connected to, lost, and connected to again. -/
theorem singleAttempt_run_reconnect :
    ∃ history, (EventMachine.outputs history).count (.registered 9 true) = 2 ∧
      ∀ taken ∈ history, SingleAttempt taken := by
  obtain ⟨history, state, run, both⟩ := EventMachine.exists_run_of_any
    machine (fun state event => Follows someBook state event ∧ Settled state event)
    (State.initial 8123 someResolveServer)
    [.connected someResolveServer (fun _ => true), .busMessage 1 someMessage (fun _ => true),
      .resolveServerMessage 0 someAnswer, .connected someNodeAddr (fun _ => true),
      .foundClosed 1, .disconnected 1, .busMessage 2 someMessage (fun _ => true)]
    (fun reached => (EventMachine.outputs reached.1).count (.registered 9 true) == 2)
    (by decide)
  exact ⟨history, eq_of_beq both, singleAttempt_run someBook_injective run⟩

/-- The response makes the daemon connect without marking the node, and the next
message makes it connect again. -/
theorem not_singleAttempt_unanswered :
    ∃ history state,
      machine.Run (Follows someBook) (State.initial 8123 someResolveServer) history state ∧
      ¬ ∀ taken ∈ history, SingleAttempt taken := by
  obtain ⟨history, state, run, again⟩ := EventMachine.exists_run_of_any
    machine (Follows someBook) (State.initial 8123 someResolveServer)
    [.connected someResolveServer (fun _ => true), .busMessage 1 someMessage (fun _ => true),
      .resolveServerMessage 0 someAnswer, .busMessage 2 someMessage (fun _ => true)]
    (fun reached => decide (.registered 9 false ∈ EventMachine.outputs reached.1)) (by decide)
  refine ⟨history, state, run, fun single => ?_⟩
  obtain ⟨taken, member, output⟩ := List.mem_flatMap.mp (of_decide_eq_true again)
  cases ((single taken member).registers 9 false output).1

end Cpmd.Daemon
