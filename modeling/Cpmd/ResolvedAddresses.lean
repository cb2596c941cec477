import Cpmd.Cluster
import Cpmd.DaemonProperties

/-! The nodes that a daemon knows, the net addresses they are resolved to, and what it
writes to the resolve server about them. -/

set_option autoImplicit false

namespace Cpmd

open Library

theorem Effect.written_requested {conn other : ConnId} {req : ResolveRequest}
    {message : ProtocolMessage} {good : ProtocolMessage → Prop} (built : req.built = some message)
    (holds : good message) : Framing.Written ProtocolMessage.serialize good
      ((Effect.requested other req).requestBytes conn) := by
  simp only [Effect.requestBytes, built]
  split
  · exact .single holds
  · exact .nil

/-- `NetAddress()` of a node that is in state `kResolved`. -/
def Node.resolvedAddress (node : Node) : Option NetAddress :=
  if node.resolved then node.netAddress else none

namespace Server

/-- Whether there is a node for an address. -/
def known (server : Server) (nodeAddress : UInt32) : Bool :=
  server.has (fun _ => true) nodeAddress

def resolvedAt (server : Server) (nodeAddress : UInt32) : Option NetAddress :=
  (server.nodes.find nodeAddress).bind Node.resolvedAddress

theorem known_putNode (server : Server) (node : Node) (nodeAddress : UInt32) :
    (server.putNode node).known nodeAddress = true ↔
      nodeAddress = node.nodeAddress ∨ server.known nodeAddress = true := by
  rw [known, has_putNode]
  by_cases own : nodeAddress = node.nodeAddress <;> simp [own, known]

theorem resolvedAt_putNode (server : Server) (node : Node) (nodeAddress : UInt32) :
    (server.putNode node).resolvedAt nodeAddress =
      if nodeAddress = node.nodeAddress then node.resolvedAddress
      else server.resolvedAt nodeAddress := by
  rw [resolvedAt, find_putNode]
  by_cases own : nodeAddress = node.nodeAddress <;> simp [own, resolvedAt]

theorem resolvedAt_of_find {server : Server} {nodeAddress : UInt32} {node : Node}
    (found : server.nodes.find nodeAddress = some node) :
    server.resolvedAt nodeAddress = node.resolvedAddress := by
  simp [resolvedAt, found]

theorem resolvedAddress_nodeOrNew (server : Server) (nodeAddress : UInt32) :
    (server.nodeOrNew nodeAddress).resolvedAddress = server.resolvedAt nodeAddress := by
  unfold nodeOrNew resolvedAt
  cases server.nodes.find nodeAddress with
  | some node => rfl
  | none => rfl

theorem resolvedAt_of_putNode {server : Server} {node : Node} {nodeAddress : UInt32}
    {addr : NetAddress}
    (kept : node.resolvedAddress = none ∨
      node.resolvedAddress = server.resolvedAt node.nodeAddress)
    (resolved : (server.putNode node).resolvedAt nodeAddress = some addr) :
    server.resolvedAt nodeAddress = some addr := by
  rw [resolvedAt_putNode] at resolved
  split at resolved
  · rename_i own
    rw [own]
    rcases kept with none | same
    · rw [none] at resolved
      cases resolved
    · rwa [same] at resolved
  · exact resolved

/-- What a daemon may write to the resolve server: a lookup is for a node it has. -/
inductive Requests (server : Server) : ProtocolMessage → Prop where
  | initSelf (port : Int32) : Requests server (ResolveRequest.initRequest port)
  | lookup (selfAddress : UInt32) {nodeAddress : UInt32} :
      server.known nodeAddress = true →
      Requests server (ResolveRequest.lookupRequest selfAddress nodeAddress)

theorem Requests.mono {server after : Server} {message : ProtocolMessage}
    (requests : server.Requests message)
    (grows : ∀ nodeAddress, server.known nodeAddress = true → after.known nodeAddress = true) :
    after.Requests message := by
  cases requests with
  | initSelf port => exact .initSelf port
  | lookup selfAddress known => exact .lookup selfAddress (grows _ known)

theorem HandlesToRemote.resolvedAt {server after : Server} {network : Network}
    {writes : Nat → Bool} {m : Message} {droped : Option Message} {effects : List Effect}
    (handles : server.HandlesToRemote network writes m (after, droped, effects))
    {nodeAddress : UInt32} {addr : NetAddress}
    (resolved : after.resolvedAt nodeAddress = some addr) :
    server.resolvedAt nodeAddress = some addr := by
  have fresh := server.resolvedAddress_nodeOrNew m.remoteAddress.nodeAddr
  have keyed := server.nodeAddress_nodeOrNew m.remoteAddress.nodeAddr
  cases handles with
  | wrote found _ _ _ _ =>
      refine resolvedAt_of_putNode (.inr ?_) resolved
      rw [server.keyed found, resolvedAt_of_find found]
  | cached found =>
      subst found
      refine resolvedAt_of_putNode (.inr ?_) resolved
      rw [Node.nodeAddress_cacheMessage, keyed]
      exact fresh
  | requested found _ _ =>
      subst found
      exact resolvedAt_of_putNode (.inl rfl) resolved
  | connects known found _ _ =>
      change (server.putNode _).resolvedAt nodeAddress = some addr at resolved
      refine resolvedAt_of_putNode (.inr ?_) resolved
      rw [Node.nodeAddress_setConnecting, server.keyed found, resolvedAt_of_find found]
      rfl

theorem HandlesToRemote.known {server after : Server} {network : Network}
    {writes : Nat → Bool} {m : Message} {droped : Option Message} {effects : List Effect}
    (handles : server.HandlesToRemote network writes m (after, droped, effects)) :
    (∀ nodeAddress, server.known nodeAddress = true → after.known nodeAddress = true) ∧
      after.known m.remoteAddress.nodeAddr = true := by
  have put (node : Node) (own : node.nodeAddress = m.remoteAddress.nodeAddr) :
      (∀ nodeAddress, server.known nodeAddress = true →
        (server.putNode node).known nodeAddress = true) ∧
      (server.putNode node).known m.remoteAddress.nodeAddr = true :=
    ⟨fun nodeAddress old => (known_putNode _ _ _).mpr (.inr old),
      (known_putNode _ _ _).mpr (.inl own.symm)⟩
  have keyed := server.nodeAddress_nodeOrNew m.remoteAddress.nodeAddr
  cases handles with
  | wrote found _ _ _ _ => exact put _ (server.keyed found)
  | cached found =>
      subst found
      exact put _ keyed
  | requested found _ _ =>
      subst found
      exact put _ keyed
  | @connects node _ found _ _ =>
      have own : node.nodeAddress = m.remoteAddress.nodeAddr := server.keyed found
      exact put (node.setConnecting true) own

theorem HandlesToRemote.requests {server after : Server} {network : Network}
    {writes : Nat → Bool} {m : Message} {droped : Option Message} {effects : List Effect}
    (handles : server.HandlesToRemote network writes m (after, droped, effects))
    {effect : Effect} (member : effect ∈ effects) (conn : ConnId) :
    Framing.Written ProtocolMessage.serialize after.Requests (effect.requestBytes conn) := by
  have asked := handles.known.2
  cases handles with
  | wrote _ _ _ _ _ =>
      cases List.mem_singleton.mp member
      exact .nil
  | cached _ => cases member
  | requested _ _ requests =>
      rcases requests with rfl | ⟨other, _, _, _, rfl⟩
      · cases member
      · cases List.mem_singleton.mp member
        exact Effect.written_requested rfl (.lookup _ asked)
  | connects known _ _ _ =>
      simp only [registerNode, List.mem_cons, List.not_mem_nil, or_false] at member
      rcases member with rfl | rfl
      · exact .nil
      · exact .nil

theorem GivesUp.resolvedAt {server after : Server} {addr : NetAddress} {change : Node → Node}
    (given : server.GivesUp addr change after)
    (keyed : ∀ node, (change node).nodeAddress = node.nodeAddress)
    (same : ∀ node, (change node).resolvedAddress = node.resolvedAddress)
    {nodeAddress : UInt32} {held : NetAddress}
    (resolved : after.resolvedAt nodeAddress = some held) :
    server.resolvedAt nodeAddress = some held := by
  obtain ⟨node, _, _, found, _, rfl⟩ := given
  change (server.putNode (change node)).resolvedAt nodeAddress = some held at resolved
  refine resolvedAt_of_putNode (.inr ?_) resolved
  rw [same, keyed, resolvedAt_of_find found]

theorem resolvedAt_updatedNode {server : Server} {resp : ResolveResponse}
    {nodeAddress : UInt32} {addr : NetAddress}
    (resolved : (server.putNode (server.updatedNode resp)).resolvedAt nodeAddress = some addr) :
    server.resolvedAt nodeAddress = some addr ∨
      (nodeAddress = resp.nodeAddr ∧ addr = ⟨resp.nodeIp, resp.nodePort⟩ ∧
        (resp.code = .kOk ∨ server.known resp.nodeAddr = false)) := by
  rw [resolvedAt_putNode, nodeAddress_updatedNode] at resolved
  split at resolved
  · rename_i own
    rcases server.updatedNode_cases resp with ⟨old, _, good, same⟩ | ⟨old, _, _, unresolved, _⟩ |
        ⟨missing, same⟩
    · rw [same] at resolved
      cases resolved
      exact .inr ⟨own, rfl, .inl good⟩
    · simp [Node.resolvedAddress, unresolved] at resolved
    · rw [same] at resolved
      cases resolved
      exact .inr ⟨own, rfl, .inr (by simp [known, has, missing])⟩
  · exact .inl resolved

end Server

namespace Daemon

theorem Transition.known {state after : State} {event : Event} {outputs : List Effect}
    (transition : Transition state event after outputs) {nodeAddress : UInt32}
    (known : state.server.known nodeAddress = true) :
    after.server.known nodeAddress = true := by
  have put (server : Server) (node : Node) (old : server.known nodeAddress = true) :
      (server.putNode node).known nodeAddress = true :=
    (Server.known_putNode _ _ _).mpr (.inr old)
  cases transition with
  | toRemote _ handles => exact handles.known.1 _ known
  | cacheUpdated _ _ => exact put _ _ known
  | cacheUpdatedConnecting _ _ _ _ => exact put _ _ known
  | nodeConnected _ _ _ _ => exact put _ _ known
  | nodeFailed _ _ given => exact (given.has (fun _ => rfl) (fun _ => rfl) _).trans known
  | nodeLost _ _ _ given => exact (given.has (fun _ => rfl) (fun _ => rfl) _).trans known
  | _ => exact known

/-- A node is resolved to an address as before, or the step has handled a response
that brings the address. -/
theorem Transition.resolvedAt {state after : State} {event : Event} {outputs : List Effect}
    (transition : Transition state event after outputs) {nodeAddress : UInt32}
    {addr : NetAddress} (resolved : after.server.resolvedAt nodeAddress = some addr) :
    state.server.resolvedAt nodeAddress = some addr ∨
      ∃ conn resp, event = .resolveServerMessage conn (.kResolveResponse resp) ∧
        resp.type = .kUpdateCache ∧ nodeAddress = resp.nodeAddr ∧
        addr = ⟨resp.nodeIp, resp.nodePort⟩ ∧
        (resp.code = .kOk ∨ state.server.known resp.nodeAddr = false) := by
  cases transition with
  | toRemote _ handles => exact .inl (handles.resolvedAt resolved)
  | @cacheUpdated conn resp kind _ | @cacheUpdatedConnecting conn resp _ kind _ _ =>
      rcases Server.resolvedAt_updatedNode resolved with old | brought
      · exact .inl old
      · exact .inr ⟨conn, resp, rfl, kind, brought⟩
  | @nodeConnected addr writes node _ _ _ found =>
      obtain ⟨keyed, sameAddress, _⟩ := node.setConnection_frame state.network.nextId writes
      obtain ⟨_, sameState⟩ := node.setConnection_flags state.network.nextId writes
      refine .inl (Server.resolvedAt_of_putNode (.inr ?_) resolved)
      rw [keyed, Server.resolvedAt_of_find found]
      rw [Node.resolvedAddress, Node.resolved, sameAddress, sameState]
      rfl
  | nodeFailed _ _ given => exact .inl (given.resolvedAt (fun _ => rfl) (fun _ => rfl) resolved)
  | nodeLost _ _ _ given => exact .inl (given.resolvedAt (fun _ => rfl) (fun _ => rfl) resolved)
  | _ => exact .inl resolved

theorem Transition.requests {state after : State} {event : Event} {outputs : List Effect}
    (transition : Transition state event after outputs) (conn : ConnId) :
    Framing.Written ProtocolMessage.serialize after.server.Requests
      (outputs.flatMap (Effect.requestBytes conn)) := by
  apply Framing.Written.flatMap
  intro effect member
  cases transition with
  | toRemote _ handles => exact handles.requests member conn
  | cacheUpdatedConnecting known _ _ _ =>
      simp only [Server.registerNode, List.mem_cons, List.not_mem_nil, or_false] at member
      rcases member with rfl | rfl
      · exact .nil
      · exact .nil
  | resolveServerConnected _ requests =>
      rcases requests with rfl | rfl
      · cases member
      · cases List.mem_singleton.mp member
        exact Effect.written_requested rfl (.initSelf _)
  | @nodeConnected addr writes node _ _ _ _ =>
      obtain ⟨sent, effects, _⟩ := node.setConnection_spec state.network.nextId writes
      rw [effects] at member
      obtain ⟨_, _, rfl⟩ := List.mem_map.mp member
      exact .nil
  | refused | resolveServerFailed | resolveServerLost | retried =>
      cases List.mem_singleton.mp member
      exact .nil
  | toLocal | ignored | selfUpdated | cacheUpdated | nodeFailed | foundClosed | nodeLost =>
      cases member

end Daemon

end Cpmd
