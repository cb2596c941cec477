import Cpmd.Daemon
import Cpmd.ServerProperties
import Cpmd.Library.Outbox

/-! The steps of a daemon, one rule for each thing that can happen, and the
accounts of the messages for remote nodes: what a step takes in, what it writes,
and what it leaves in the caches. -/

set_option autoImplicit false

namespace Cpmd.Daemon

open Library

/-- What a step can do. -/
inductive Transition (state : State) : Event → State → List Effect → Prop where
  | toLocal {client : UInt32} {m : Message} {writes : Nat → Bool} :
      state.server.isLocal m.remoteAddress = true →
      Transition state (.busMessage client m writes) state []
  | toRemote {client : UInt32} {m : Message} {writes : Nat → Bool} {server : Server}
      {droped : Option Message} {effects : List Effect} :
      state.server.isLocal m.remoteAddress = false →
      state.server.HandlesToRemote state.network writes (state.server.stamp client m)
        (server, droped, effects) →
      Transition state (.busMessage client m writes)
        ⟨server, state.network.carryOutAll effects⟩ effects
  | refused {conn : ConnId} {type : Int16} :
      Transition state (.resolveServerMessage conn (.other type))
        ⟨state.server, state.network.close conn⟩ [.close conn]
  | ignored {conn : ConnId} {m : ResolveServerMessage} :
      (∀ resp, m = .kResolveResponse resp → resp.type ≠ .kUpdateCache) →
      Transition state (.resolveServerMessage conn m) state []
  | selfUpdated {conn : ConnId} {resp : ResolveResponse} :
      resp.type = .kUpdateSelf → (Address.create resp.nodePath).nodeAddr = resp.nodeAddr →
      Transition state (.resolveServerMessage conn (.kResolveResponse resp))
        ⟨{ state.server with selfAddress := resp.nodeAddr }, state.network⟩ []
  | cacheUpdated {conn : ConnId} {resp : ResolveResponse} :
      resp.type = .kUpdateCache →
      ((state.server.updatedNode resp).resolved = false ∨
        (state.server.updatedNode resp).hasCachedMessage = false ∨
        (state.server.updatedNode resp).connected state.network = true) →
      Transition state (.resolveServerMessage conn (.kResolveResponse resp))
        ⟨state.server.putNode (state.server.updatedNode resp), state.network⟩ []
  | cacheUpdatedConnecting {conn : ConnId} {resp : ResolveResponse}
      (known : (state.server.updatedNode resp).resolved = true) :
      resp.type = .kUpdateCache →
      (state.server.updatedNode resp).hasCachedMessage = true →
      (state.server.updatedNode resp).connected state.network = false →
      Transition state (.resolveServerMessage conn (.kResolveResponse resp))
        ⟨((state.server.putNode (state.server.updatedNode resp)).registerNode _ known).1,
          state.network.carryOut (.connectTo ((state.server.updatedNode resp).addressOf known))⟩
        [.connectTo ((state.server.updatedNode resp).addressOf known),
          ((state.server.putNode (state.server.updatedNode resp)).registerNode _ known).2]
  | resolveServerConnected {writes : Nat → Bool} {requests : List Effect} :
      state.server.resolveServerAddress ∈ state.network.attempts →
      (requests = [] ∨ requests = [.requested state.network.nextId
        ⟨.kInitializeSelf, 0, state.server.messageServerPort, 0⟩]) →
      Transition state (.connected state.server.resolveServerAddress writes)
        ⟨{ state.server with resolveServerConn := some state.network.nextId },
          state.network.accept state.server.resolveServerAddress⟩ requests
  | nodeConnected {addr : NetAddress} {writes : Nat → Bool} {node : Node} :
      addr ∈ state.network.attempts → addr ≠ state.server.resolveServerAddress →
      state.server.nodesIndex.find addr = some node.nodeAddress →
      state.server.nodes.find node.nodeAddress = some node →
      Transition state (.connected addr writes)
        ⟨state.server.putNode (node.setConnection state.network.nextId writes).1,
          state.network.accept addr⟩ (node.setConnection state.network.nextId writes).2
  | resolveServerFailed :
      state.server.resolveServerAddress ∈ state.network.attempts →
      Transition state (.connectError state.server.resolveServerAddress)
        ⟨state.server, (state.network.refuse state.server.resolveServerAddress).carryOut
          (.connectLater state.server.resolveServerAddress)⟩
        [.connectLater state.server.resolveServerAddress]
  | nodeFailed {addr : NetAddress} {server : Server} :
      addr ∈ state.network.attempts → addr ≠ state.server.resolveServerAddress →
      state.server.GivesUp addr (Node.setConnecting · false) server →
      Transition state (.connectError addr) ⟨server, state.network.refuse addr⟩ []
  | foundClosed {conn : ConnId} :
      state.network.isOpen conn = true →
      Transition state (.foundClosed conn) ⟨state.server, state.network.close conn⟩ []
  | resolveServerLost {conn : ConnId} {connection : TcpConnection} :
      state.network.conns.find conn = some connection → connection.closed = true →
      connection.peerAddr = state.server.resolveServerAddress →
      Transition state (.disconnected conn)
        ⟨{ state.server with resolveServerConn := none },
          (state.network.release conn).carryOut
            (.connectLater state.server.resolveServerAddress)⟩
        [.connectLater state.server.resolveServerAddress]
  | nodeLost {conn : ConnId} {connection : TcpConnection} {server : Server} :
      state.network.conns.find conn = some connection → connection.closed = true →
      connection.peerAddr ≠ state.server.resolveServerAddress →
      state.server.GivesUp connection.peerAddr Node.clearConnection server →
      Transition state (.disconnected conn) ⟨server, state.network.release conn⟩ []
  | retried {addr : NetAddress} :
      addr ∈ state.network.retries →
      Transition state (.retry addr)
        ⟨state.server, { state.network with
          retries := state.network.retries.erase addr
          attempts := state.network.attempts ++ [addr] }⟩ [.connectTo addr]

theorem carryOutAll_map_wrote (network : Network) (node : UInt32) (conn : ConnId)
    (sent : List Message) :
    network.carryOutAll (sent.map (Effect.wrote node conn)) = network := by
  induction sent with
  | nil => rfl
  | cons message sent ih => exact ih

theorem transition_busMessage (state : State) (client : UInt32) (m : Message)
    (writes : Nat → Bool) {after : State} {outputs : List Effect}
    (stepped : step state (.busMessage client m writes) = some (after, outputs)) :
    Transition state (.busMessage client m writes) after outputs := by
  simp only [step, Server.handleBusMessage, Option.some.injEq] at stepped
  split at stepped
  · rename_i here
    cases stepped
    exact .toLocal here
  · rename_i remote
    cases stepped
    exact .toRemote (Bool.eq_false_iff.mpr remote)
      (state.server.handleToRemoteMessage_handles state.network writes _)

theorem transition_resolveServerMessage (state : State) (conn : ConnId)
    (m : ResolveServerMessage) {after : State} {outputs : List Effect}
    (stepped : step state (.resolveServerMessage conn m) = some (after, outputs)) :
    Transition state (.resolveServerMessage conn m) after outputs := by
  have handled : settle state.network
      (state.server.handleResolveServerMessage state.network conn m) = (after, outputs) := by
    simp only [step] at stepped
    split at stepped
    · split at stepped
      · exact Option.some.inj stepped
      · cases stepped
    · cases stepped
  cases m with
  | other type =>
      cases handled
      exact .refused
  | kResolveResponse resp =>
      cases kind : resp.type with
      | kUpdateSelf =>
          simp only [Server.handleResolveServerMessage, kind, Server.updateSelfAddress] at handled
          split at handled
          · cases handled
            exact .ignored (by rintro _ ⟨⟩; simp [kind])
          · rename_i matching
            cases handled
            exact .selfUpdated kind (not_not.mp matching)
      | kUpdateCache =>
          simp only [Server.handleResolveServerMessage, kind] at handled
          rcases state.server.updateNodeAddressCache_cases state.network resp with
            ⟨known, waits, disconnected, updated⟩ | ⟨settled, updated⟩
          · rw [updated] at handled
            cases handled
            exact .cacheUpdatedConnecting known kind waits disconnected
          · rw [updated] at handled
            cases handled
            exact .cacheUpdated kind settled
      | unknown type =>
          simp only [Server.handleResolveServerMessage, kind] at handled
          cases handled
          exact .ignored (by rintro _ ⟨⟩; simp [kind])

theorem transition_connected (state : State) (addr : NetAddress) (writes : Nat → Bool)
    {after : State} {outputs : List Effect}
    (stepped : step state (.connected addr writes) = some (after, outputs)) :
    Transition state (.connected addr writes) after outputs := by
  simp only [step] at stepped
  split at stepped
  · rename_i waiting
    obtain ⟨⟨server, effects⟩, handled, settled⟩ := Option.map_eq_some_iff.mp stepped
    unfold Server.onConnectedToRemote at handled
    split at handled
    · rename_i own
      have same : addr = state.server.resolveServerAddress := eq_of_beq own
      subst same
      cases handled
      cases settled
      cases writes 0 with
      | false => exact .resolveServerConnected waiting (.inl rfl)
      | true => exact .resolveServerConnected waiting (.inr rfl)
    · rename_i other
      obtain ⟨node, indexed, found, rfl, rfl⟩ := Server.onConnectedToRemoteNode_eq_some handled
      obtain ⟨sent, effects, _⟩ := node.setConnection_spec state.network.nextId writes
      rw [settle, effects, carryOutAll_map_wrote, ← effects] at settled
      cases settled
      exact .nodeConnected waiting (fun same => other (beq_iff_eq.mpr same)) indexed found
  · cases stepped

theorem transition_connectError (state : State) (addr : NetAddress) {after : State}
    {outputs : List Effect} (stepped : step state (.connectError addr) = some (after, outputs)) :
    Transition state (.connectError addr) after outputs := by
  simp only [step] at stepped
  split at stepped
  · rename_i waiting
    obtain ⟨⟨server, effects⟩, handled, settled⟩ := Option.map_eq_some_iff.mp stepped
    unfold Server.onConnectToRemoteError at handled
    split at handled
    · rename_i own
      have same : addr = state.server.resolveServerAddress := eq_of_beq own
      subst same
      cases handled
      cases settled
      exact .resolveServerFailed waiting
    · rename_i other
      split at handled
      · cases handled
        cases settled
        exact .nodeFailed waiting (fun same => other (beq_iff_eq.mpr same))
          (Server.onConnectToRemoteNodeError_eq_some ‹_›)
      · cases handled
  · cases stepped

theorem transition_disconnected (state : State) (conn : ConnId) {after : State}
    {outputs : List Effect} (stepped : step state (.disconnected conn) = some (after, outputs)) :
    Transition state (.disconnected conn) after outputs := by
  simp only [step] at stepped
  split at stepped
  · rename_i connection found
    split at stepped
    · rename_i closed
      obtain ⟨⟨server, effects⟩, handled, settled⟩ := Option.map_eq_some_iff.mp stepped
      unfold Server.onConnectToRemoteClose at handled
      split at handled
      · rename_i own
        have same := eq_of_beq own
        simp only [same, Server.onResolveServerDisconnected, Option.some.injEq] at handled
        cases handled
        cases settled
        exact .resolveServerLost found closed same
      · rename_i other
        split at handled
        · cases handled
          cases settled
          exact .nodeLost found closed (fun same => other (beq_iff_eq.mpr same))
            (Server.onRemoteNodeDisconnected_eq_some ‹_›)
        · cases handled
    · cases stepped
  · cases stepped

theorem step_transition {state after : State} {event : Event} {outputs : List Effect}
    (stepped : step state event = some (after, outputs)) :
    Transition state event after outputs := by
  cases event with
  | busMessage client m writes => exact transition_busMessage state client m writes stepped
  | resolveServerMessage conn m => exact transition_resolveServerMessage state conn m stepped
  | connected addr writes => exact transition_connected state addr writes stepped
  | connectError addr => exact transition_connectError state addr stepped
  | foundClosed conn =>
      simp only [step] at stepped
      split at stepped
      · cases stepped
        exact .foundClosed ‹_›
      · cases stepped
  | disconnected conn => exact transition_disconnected state conn stepped
  | retry addr =>
      simp only [step] at stepped
      split at stepped
      · cases stepped
        exact .retried ‹_›
      · cases stepped

/-- What the network has of an event before the handlers' effects are carried out. -/
def receive (network : Network) : Event → Network
  | .connected addr _ => network.accept addr
  | .connectError addr => network.refuse addr
  | .foundClosed conn => network.close conn
  | .disconnected conn => network.release conn
  | .retry addr => { network with retries := network.retries.erase addr }
  | .busMessage _ _ _ | .resolveServerMessage _ _ => network

theorem step_network {state after : State} {event : Event} {outputs : List Effect}
    (stepped : step state event = some (after, outputs)) :
    after.network = (receive state.network event).carryOutAll outputs := by
  cases event with
  | busMessage client m writes =>
      cases stepped
      rfl
  | resolveServerMessage conn m =>
      simp only [step] at stepped
      split at stepped
      · split at stepped <;> cases stepped
        rfl
      · cases stepped
  | connected addr writes | connectError addr =>
      simp only [step] at stepped
      split at stepped
      · obtain ⟨handled, _, settled⟩ := Option.map_eq_some_iff.mp stepped
        cases settled
        rfl
      · cases stepped
  | foundClosed conn | retry addr =>
      simp only [step] at stepped
      split at stepped <;> cases stepped
      rfl
  | disconnected conn =>
      simp only [step] at stepped
      split at stepped
      · split at stepped
        · obtain ⟨handled, _, settled⟩ := Option.map_eq_some_iff.mp stepped
          cases settled
          rfl
        · cases stepped
      · cases stepped

theorem step_connected_resolveServer {state after : State} {outputs : List Effect}
    (stepped : step state (.connected state.server.resolveServerAddress fun _ => true) =
      some (after, outputs)) :
    outputs = [.requested state.network.nextId
      ⟨.kInitializeSelf, 0, state.server.messageServerPort, 0⟩] := by
  simp only [step, Server.onConnectedToRemote, Server.isResolveServerAddress, beq_self_eq_true,
    if_true, Server.onConnectedToResolveServer, Option.map_some] at stepped
  split at stepped
  · cases stepped
    rfl
  · cases stepped

/-- A step leaves the daemon's own address alone, or sets it to one that the
resolve server sent. -/
theorem Transition.selfAddress {state after : State} {event : Event} {outputs : List Effect}
    (transition : Transition state event after outputs) :
    after.server.selfAddress = state.server.selfAddress ∨
      ∃ conn resp, event = .resolveServerMessage conn (.kResolveResponse resp) ∧
        resp.type = .kUpdateSelf ∧ after.server.selfAddress = resp.nodeAddr := by
  cases transition with
  | selfUpdated kind _ => exact .inr ⟨_, _, rfl, kind, rfl⟩
  | toRemote _ handles => exact .inl handles.addresses.1
  | nodeFailed _ _ given | nodeLost _ _ _ given =>
      obtain ⟨_, _, _, _, _, rfl⟩ := given
      exact .inl rfl
  | _ => exact .inl rfl

theorem Transition.resolveServerAddress {state after : State} {event : Event}
    {outputs : List Effect} (transition : Transition state event after outputs) :
    after.server.resolveServerAddress = state.server.resolveServerAddress := by
  cases transition with
  | toRemote _ handles => exact handles.addresses.2.1
  | nodeFailed _ _ given | nodeLost _ _ _ given =>
      obtain ⟨_, _, _, _, _, rfl⟩ := given
      rfl
  | _ => rfl

theorem Transition.messageServerPort {state after : State} {event : Event}
    {outputs : List Effect} (transition : Transition state event after outputs) :
    after.server.messageServerPort = state.server.messageServerPort := by
  cases transition with
  | toRemote _ handles => exact handles.addresses.2.2
  | nodeFailed _ _ given | nodeLost _ _ _ given =>
      obtain ⟨_, _, _, _, _, rfl⟩ := given
      rfl
  | _ => rfl

/-- Requests are made for a message whose node is to be resolved, and once the
resolve server is connected. -/
theorem Transition.requested {state after : State} {event : Event} {outputs : List Effect}
    (transition : Transition state event after outputs) {conn : ConnId} {req : ResolveRequest}
    (member : .requested conn req ∈ outputs) :
    (∃ client m writes, event = .busMessage client m writes ∧
      state.server.Asks state.network writes m ∧
      req = ⟨.kLookupNode, state.server.selfAddress, 0, m.remoteAddress.nodeAddr⟩) ∨
    (∃ writes, event = .connected state.server.resolveServerAddress writes ∧
      req = ⟨.kInitializeSelf, 0, state.server.messageServerPort, 0⟩) := by
  cases transition with
  | @toRemote client m writes _ _ _ remote handles =>
      cases handles with
      | @requested node requests found unresolved requested =>
          rcases requested with rfl | ⟨own, bound, opened, written, rfl⟩
          · cases member
          · cases List.mem_singleton.mp member
            subst found
            exact .inl ⟨client, m, writes, rfl, ⟨remote, unresolved, written, conn, bound, opened⟩,
              rfl⟩
      | wrote | cached | connects => simp [Server.registerNode] at member
  | @resolveServerConnected writes requests _ requested =>
      rcases requested with rfl | rfl
      · cases member
      · cases List.mem_singleton.mp member
        exact .inr ⟨writes, rfl, rfl⟩
  | @nodeConnected _ writes node _ _ _ _ =>
      obtain ⟨sent, effects, _⟩ := node.setConnection_spec state.network.nextId writes
      rw [effects] at member
      simp at member
  | _ => simp [Server.registerNode] at member

def submission (nodeAddress : UInt32) (state : State) : Event → Option Message
  | .busMessage client m _ =>
      if !state.server.isLocal m.remoteAddress && m.remoteAddress.nodeAddr == nodeAddress then
        some (state.server.stamp client m)
      else none
  | _ => none

/-- What local clients submit for a node, what waits in its cache, and what is
written on its connections. -/
def outbox (nodeAddress : UInt32) : Outbox State Event Effect Message where
  taken := submission nodeAddress
  held := fun state => state.server.cachedFor nodeAddress
  sent := Effect.messageTo nodeAddress

theorem Transition.accounts {state after : State} {event : Event} {outputs : List Effect}
    {nodeAddress : UInt32} (transition : Transition state event after outputs)
    (nothing : submission nodeAddress state event = none) :
    writtenTo nodeAddress outputs ++ after.server.cachedFor nodeAddress =
      state.server.cachedFor nodeAddress := by
  cases transition with
  | @toRemote client m _ _ _ _ remote handles =>
      have different : nodeAddress ≠ m.remoteAddress.nodeAddr := by
        intro equal
        subst equal
        simp [submission, remote] at nothing
      obtain ⟨unwritten, kept⟩ := handles.others different
      rw [unwritten, kept, List.nil_append]
  | @cacheUpdated conn resp _ _ =>
      rw [writtenTo_nil, List.nil_append, Server.cachedFor_putNode, Server.cached_updatedNode,
        Server.nodeAddress_updatedNode]
      exact ite_eq_right_iff.mpr (fun own => by rw [own])
  | @cacheUpdatedConnecting conn resp known _ _ _ =>
      change (state.server.putNode (state.server.updatedNode resp)).cachedFor nodeAddress = _
      rw [Server.cachedFor_putNode, Server.cached_updatedNode, Server.nodeAddress_updatedNode]
      exact ite_eq_right_iff.mpr (fun own => by rw [own])
  | @resolveServerConnected _ requests _ requested =>
      rcases requested with rfl | rfl <;> rfl
  | @nodeConnected addr writes node _ _ _ found =>
      obtain ⟨sent, effects, split⟩ := node.setConnection_spec state.network.nextId writes
      obtain ⟨keyed, _, _⟩ := node.setConnection_frame state.network.nextId writes
      rw [effects, writtenTo_map_wrote, Server.cachedFor_putNode, keyed]
      by_cases own : nodeAddress = node.nodeAddress
      · rw [if_pos own.symm, if_pos own, own, Server.cachedFor_of_find found, split]
      · rw [if_neg (Ne.symm own), if_neg own, List.nil_append]
  | nodeFailed _ _ given =>
      exact given.cachedFor (fun _ => rfl) (fun _ => rfl) nodeAddress
  | nodeLost _ _ _ given =>
      exact given.cachedFor (fun _ => rfl) (fun _ => rfl) nodeAddress
  | _ => rfl

/-- What a step does with the messages for one node. The message it is given is
written past the cache, joins the cache, or is in neither place afterwards; given
none, it can only move messages from the front of the cache to a connection. -/
theorem Transition.outbox {state after : State} {event : Event} {outputs : List Effect}
    (nodeAddress : UInt32) (transition : Transition state event after outputs) :
    (∃ client raw writes node, event = .busMessage client raw writes ∧
      state.server.isLocal raw.remoteAddress = false ∧
      state.server.nodes.find raw.remoteAddress.nodeAddr = some node ∧
      node.notResolved = false ∧ node.connected state.network = true ∧ writes 0 = true ∧
      submission nodeAddress state event = some (state.server.stamp client raw) ∧
      writtenTo nodeAddress outputs = [state.server.stamp client raw] ∧
      after.server.cachedFor nodeAddress = node.cached ∧
      state.server.cachedFor nodeAddress = node.cached) ∨
    (∃ m given kept, submission nodeAddress state event = some m ∧
      writtenTo nodeAddress outputs = [] ∧
      state.server.cachedFor nodeAddress = given ++ kept ∧
      (after.server.cachedFor nodeAddress = kept ++ [m] ∨
        after.server.cachedFor nodeAddress = given ++ kept)) ∨
    (submission nodeAddress state event = none ∧
      writtenTo nodeAddress outputs ++ after.server.cachedFor nodeAddress =
        state.server.cachedFor nodeAddress) := by
  cases brought : submission nodeAddress state event with
  | none => exact .inr (.inr ⟨rfl, transition.accounts brought⟩)
  | some submitted =>
      cases transition with
      | toLocal here => simp [submission, here] at brought
      | @toRemote client raw writes _ _ _ remote handles =>
          simp only [submission, remote, Bool.not_false, Bool.true_and, beq_iff_eq,
            Option.ite_none_right_eq_some, Option.some.injEq] at brought
          obtain ⟨rfl, rfl⟩ := brought
          have outcome := handles.own
          simp only [Server.remoteAddress_stamp] at outcome
          rcases outcome with
            ⟨node, conn, found, resolvedOnce, bound, opened, written, _, rfl, kept⟩ |
            ⟨kept, unwritten, split, joined⟩ | ⟨_, unwritten, kept⟩
          · have connected : node.connected state.network = true :=
              Node.connected_iff.mpr ⟨conn, bound, opened⟩
            rw [Server.cachedFor_of_find found] at kept
            exact .inl ⟨client, raw, writes, node, rfl, remote, found, resolvedOnce, connected,
              written, rfl, by rw [writtenTo_wrote, if_pos rfl], kept,
              Server.cachedFor_of_find found⟩
          · exact .inr (.inl ⟨_, _, kept, rfl, unwritten _, split, .inl joined⟩)
          · exact .inr (.inl ⟨_, [], _, rfl, unwritten _, (List.nil_append _).symm,
              .inr (by rw [kept, List.nil_append])⟩)
      | _ => cases brought

end Cpmd.Daemon
