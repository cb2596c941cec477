import Cpmd.DaemonProperties
import Cpmd.ProtocolBuilder

/-! What a daemon makes of answers that it cannot use: negative ones, and messages
that it rejects. -/

set_option autoImplicit false

namespace Cpmd

open Library

theorem Node.addressed_of_kNotResolved (node : Node)
    (resolved : ResolveState.kNotResolved = .kResolved) : node.netAddress.isSome = true := by
  cases resolved

/-- `SetResolveState(kNotResolved)`. -/
def Node.unresolve (node : Node) : Node :=
  node.setResolveState .kNotResolved node.addressed_of_kNotResolved

namespace Server

/-- Nothing is different but that the node, if it is known, is not resolved. -/
structure OnlyUnresolves (before after : Server) (nodeAddress : UInt32) : Prop where
  selfAddress : after.selfAddress = before.selfAddress
  resolveServerConn : after.resolveServerConn = before.resolveServerConn
  nodesIndex : after.nodesIndex = before.nodesIndex
  findNode : ∀ other, after.findNode other =
    if other = nodeAddress then (before.findNode other).map Node.unresolve
    else before.findNode other

/-- The next message for the node makes the daemon ask for its net address, given an
open connection to the resolve server. -/
def LooksUpNext (server : Server) (nodeAddress : UInt32) : Prop :=
  ∀ (network : Network) (writes : Nat → Bool) (m : Message) (conn : ConnId),
    m.remoteAddress.nodeAddr = nodeAddress → server.resolveServerConn = some conn →
    network.isOpen conn = true → writes 0 = true →
    .requested conn ⟨.kLookupNode, server.selfAddress, 0, nodeAddress⟩ ∈
      (server.handleToRemoteMessage network writes m).2.2

/-- The answer connects to nobody, registers nobody, and leaves all nodes as they are
but for the resolve state of its own. -/
def UnresolvesQuietly (server : Server) (network : Network) (resp : ResolveResponse) : Prop :=
  (server.updateNodeAddressCache network resp).2 = [] ∧
    OnlyUnresolves server (server.updateNodeAddressCache network resp).1 resp.nodeAddr ∧
    LooksUpNext (server.updateNodeAddressCache network resp).1 resp.nodeAddr

theorem looksUpNext_of_notResolved {server : Server} {nodeAddress : UInt32} {node : Node}
    (found : server.findNode nodeAddress = some node) (unresolved : node.notResolved = true) :
    server.LooksUpNext nodeAddress := by
  intro network writes m conn addressed linked opened written
  have keyed : node.nodeAddress = nodeAddress := server.keyed found
  simp [handleToRemoteMessage, addressed, found, unresolved, handleToUnresolved, linked,
    reqeustNodeNetAddress, opened, written, keyed]

theorem updateNodeAddressCache_unresolved {server : Server} {resp : ResolveResponse}
    (unresolved : (server.updatedNode resp).resolved = false) (network : Network) :
    server.updateNodeAddressCache network resp =
      (server.putNode (server.updatedNode resp), []) := by
  simp [updateNodeAddressCache, unresolved]

theorem findNode_putNode (server : Server) (node : Node) (nodeAddress : UInt32) :
    (server.putNode node).findNode nodeAddress =
      if nodeAddress = node.nodeAddress then some node else server.findNode nodeAddress :=
  find_putNode server node nodeAddress

theorem unresolvesQuietly_of_updated {server : Server} {resp : ResolveResponse} {old : Node}
    (found : server.findNode resp.nodeAddr = some old)
    (updated : server.updatedNode resp = old.unresolve) (network : Network) :
    server.UnresolvesQuietly network resp := by
  have keyed : old.unresolve.nodeAddress = resp.nodeAddr :=
    (server.keyed found : old.nodeAddress = resp.nodeAddr)
  have unresolved : (server.updatedNode resp).resolved = false := by
    rw [updated]
    rfl
  have moved : (server.putNode old.unresolve).findNode resp.nodeAddr = some old.unresolve := by
    rw [findNode_putNode, if_pos keyed.symm]
  unfold UnresolvesQuietly
  rw [updateNodeAddressCache_unresolved unresolved network, updated]
  refine ⟨rfl, ⟨rfl, rfl, rfl, fun other => ?_⟩, looksUpNext_of_notResolved moved rfl⟩
  rw [findNode_putNode, keyed]
  by_cases same : other = resp.nodeAddr
  · simp [same, found]
  · simp [same]

theorem unresolve_of_notResolved {node : Node} (state : node.resolveState = .kNotResolved) :
    node.unresolve = node := by
  cases node
  cases state
  rfl

theorem findNode_updateNodeAddressCache (server : Server) (network : Network)
    (resp : ResolveResponse) :
    (server.updateNodeAddressCache network resp).1.findNode resp.nodeAddr =
      some (server.updatedNode resp) := by
  have own : resp.nodeAddr = (server.updatedNode resp).nodeAddress :=
    (nodeAddress_updatedNode server resp).symm
  rcases server.updateNodeAddressCache_cases network resp with ⟨_, _, _, same⟩ | ⟨_, same⟩
  · rw [same]
    exact (findNode_putNode _ _ _).trans (if_pos own)
  · rw [same]
    exact (findNode_putNode _ _ _).trans (if_pos own)

theorem UnresolvesQuietly.updated {server : Server} {network : Network} {resp : ResolveResponse}
    (quiet : server.UnresolvesQuietly network resp) :
    ∃ node, server.findNode resp.nodeAddr = some node ∧
      server.updatedNode resp = node.unresolve := by
  have after := quiet.2.1.findNode resp.nodeAddr
  rw [if_pos rfl, findNode_updateNodeAddressCache] at after
  cases found : server.findNode resp.nodeAddr with
  | none =>
      rw [found] at after
      cases after
  | some node =>
      rw [found] at after
      exact ⟨node, rfl, Option.some.inj after⟩

theorem not_unresolvesQuietly_of_resolving {server : Server} {resp : ResolveResponse}
    {node : Node} (negative : resp.code ≠ .kOk)
    (found : server.findNode resp.nodeAddr = some node) (resolving : node.resolving = true)
    (network : Network) : ¬ server.UnresolvesQuietly network resp := by
  intro quiet
  obtain ⟨other, same, updated⟩ := quiet.updated
  rw [found] at same
  cases same
  have state : node.resolveState = .kResolving := by simpa [Node.resolving] using resolving
  have kept : server.updatedNode resp = node := by
    simp [updatedNode, found, Node.resolved, state, negative]
  rw [kept] at updated
  rw [updated] at state
  cases state

/-- A negative answer is harmless exactly if its node is known and not being resolved:
an unknown node is added with whatever address the answer holds, and one that is being
resolved goes on waiting. -/
theorem unresolvesQuietly_iff {server : Server} {resp : ResolveResponse}
    (negative : resp.code ≠ .kOk) (network : Network) :
    server.UnresolvesQuietly network resp ↔
      ∃ node, server.findNode resp.nodeAddr = some node ∧ node.resolving = false := by
  constructor
  · intro quiet
    obtain ⟨node, found, _⟩ := quiet.updated
    refine ⟨node, found, Bool.eq_false_iff.mpr fun resolving => ?_⟩
    exact not_unresolvesQuietly_of_resolving negative found resolving network quiet
  · intro known
    obtain ⟨node, found, settled⟩ := known
    refine unresolvesQuietly_of_updated found ?_ network
    cases state : node.resolveState with
    | kResolved => simp [updatedNode, found, Node.resolved, state, negative, Node.unresolve]
    | kNotResolved =>
        rw [unresolve_of_notResolved state]
        simp [updatedNode, found, Node.resolved, state, negative]
    | kResolving => simp [Node.resolving, state] at settled

/-- The network of a daemon that has reached its resolve server. -/
def someNetwork : Network :=
  (Daemon.State.initial 8123 Daemon.someResolveServer).network.accept Daemon.someResolveServer

/-- A node that is known but not resolved. -/
theorem unresolvesQuietly_iff_known :
    ((create 8123 Daemon.someResolveServer).putNode (Node.create 9)).UnresolvesQuietly
      someNetwork ⟨.kNodeNotFound, .kUpdateCache, 9, 0, [], []⟩ :=
  (unresolvesQuietly_iff (by decide) someNetwork).mpr ⟨Node.create 9, rfl, rfl⟩

/-- A client's message makes the daemon look up a node that the resolve server does not
know: the node stays as it was. -/
theorem not_unresolvesQuietly_missing :
    ∃ history state, Daemon.machine.Run (fun _ _ => True)
        (Daemon.State.initial 8123 Daemon.someResolveServer) history state ∧
      ¬ state.server.UnresolvesQuietly state.network
        ⟨.kNodeNotFound, .kUpdateCache, 9, 0, [], []⟩ := by
  obtain ⟨history, state, run, waits⟩ := EventMachine.exists_run_of_any
    Daemon.machine (fun _ _ => True) (Daemon.State.initial 8123 Daemon.someResolveServer)
    [.connected Daemon.someResolveServer (fun _ => true),
      .busMessage 1 Daemon.someMessage (fun _ => true)]
    (fun reached => reached.2.server.has Node.resolving 9) (by decide)
  obtain ⟨node, found, resolving⟩ := has_iff.mp waits
  have negative : ResolveServerError.kNodeNotFound ≠ .kOk := by decide
  refine ⟨history, state, run, ?_⟩
  exact @not_unresolvesQuietly_of_resolving state.server
    ⟨.kNodeNotFound, .kUpdateCache, 9, 0, [], []⟩ node negative found resolving state.network

/-- A response of no known type, or about the daemon itself with a path that does not
hash to the address given with it. -/
def RejectsResponse (resp : ResolveResponse) : Prop :=
  match resp.type with
  | .kUpdateSelf => (Address.create resp.nodePath).nodeAddr ≠ resp.nodeAddr
  | .kUpdateCache => False
  | .unknown _ => True

def RejectsMessage (m : ProtocolMessage) : Prop :=
  MessageType.ofInt16 m.type ≠ .kResolveResponse ∨ RejectsResponse (.ofData m.data)

/-- A message that is rejected closes the connection and changes nothing; one that is
not leaves the connection open. -/
def ClosesRejected (server : Server) (network : Network) (conn : ConnId) (m : ProtocolMessage) :
    Prop :=
  let handled := server.handleResolveServerMessage network conn (.ofProtocolMessage m)
  (RejectsMessage m → handled.1.selfAddress = server.selfAddress ∧
      handled.1.nodes = server.nodes ∧ handled.1.nodesIndex = server.nodesIndex ∧
      .close conn ∈ handled.2) ∧
    (¬ RejectsMessage m → .close conn ∉ handled.2)

theorem close_not_mem_updateNodeAddressCache (server : Server) (network : Network)
    (resp : ResolveResponse) (conn : ConnId) :
    .close conn ∉ (server.updateNodeAddressCache network resp).2 := by
  rcases server.updateNodeAddressCache_cases network resp with ⟨_, _, _, same⟩ | ⟨_, same⟩
  · rw [same]
    simp [registerNode]
  · rw [same]
    exact List.not_mem_nil

/-- A response is never answered with a close, and one that is rejected changes
nothing. -/
theorem handleResolveServerMessage_response (server : Server) (network : Network)
    (conn : ConnId) (resp : ResolveResponse) :
    .close conn ∉ (server.handleResolveServerMessage network conn (.kResolveResponse resp)).2 ∧
      (RejectsResponse resp →
        (server.handleResolveServerMessage network conn (.kResolveResponse resp)).1 = server) := by
  cases kind : resp.type with
  | kUpdateSelf =>
      simp only [handleResolveServerMessage, RejectsResponse, kind]
      refine ⟨List.not_mem_nil, fun mismatch => ?_⟩
      rw [updateSelfAddress, if_pos mismatch]
  | kUpdateCache =>
      simp only [handleResolveServerMessage, RejectsResponse, kind]
      exact ⟨close_not_mem_updateNodeAddressCache server network resp conn, False.elim⟩
  | unknown type =>
      simp only [handleResolveServerMessage, kind]
      exact ⟨List.not_mem_nil, fun _ => trivial⟩

theorem ofProtocolMessage_response {m : ProtocolMessage}
    (type : MessageType.ofInt16 m.type = .kResolveResponse) :
    ResolveServerMessage.ofProtocolMessage m = .kResolveResponse (.ofData m.data) := by
  simp only [ResolveServerMessage.ofProtocolMessage, type]

theorem ofProtocolMessage_other {m : ProtocolMessage}
    (type : MessageType.ofInt16 m.type ≠ .kResolveResponse) :
    ResolveServerMessage.ofProtocolMessage m = .other m.type := by
  unfold ResolveServerMessage.ofProtocolMessage
  split
  · rename_i same
    exact absurd same type
  · rfl
  · rfl
  · rfl

theorem not_closesRejected {server : Server} {m : ProtocolMessage}
    (type : MessageType.ofInt16 m.type = .kResolveResponse)
    (rejected : RejectsResponse (.ofData m.data)) (network : Network) (conn : ConnId) :
    ¬ server.ClosesRejected network conn m := by
  intro closes
  have closed := (closes.1 (.inr rejected)).2.2.2
  rw [ofProtocolMessage_response type] at closed
  exact (server.handleResolveServerMessage_response network conn _).1 closed

/-- The message is treated so exactly if it is none of the responses that are to be
rejected: those are dropped, and the connection stays. -/
theorem closesRejected_iff (server : Server) (network : Network) (conn : ConnId)
    (m : ProtocolMessage) :
    server.ClosesRejected network conn m ↔
      (MessageType.ofInt16 m.type ≠ .kResolveResponse ∨ ¬ RejectsResponse (.ofData m.data)) := by
  by_cases type : MessageType.ofInt16 m.type = .kResolveResponse
  · by_cases rejected : RejectsResponse (.ofData m.data)
    · exact iff_of_false (not_closesRejected type rejected network conn)
        (fun either => either.elim (absurd type) (absurd rejected))
    · refine iff_of_true ⟨fun either => ?_, fun _ => ?_⟩ (.inr rejected)
      · exact either.elim (absurd type) (absurd · rejected)
      · rw [ofProtocolMessage_response type]
        exact (server.handleResolveServerMessage_response network conn _).1
  · refine iff_of_true ⟨fun _ => ?_, fun accepted => absurd (.inl type) accepted⟩ (.inl type)
    rw [ofProtocolMessage_other type]
    exact ⟨rfl, rfl, rfl, List.mem_singleton.mpr rfl⟩

/-- A response of type 7. -/
def someUnknownResponse : ProtocolMessage :=
  ⟨MessageType.kResolveResponse.toInt16, 0, ProtocolMessage.kProtocolMessageMagic, 4, [0, 0, 7, 0]⟩

theorem not_closesRejected_unknownType :
    RejectsMessage someUnknownResponse ∧
      ¬ (create 8123 Daemon.someResolveServer).ClosesRejected someNetwork 0
        someUnknownResponse := by
  have rejected : RejectsResponse (.ofData someUnknownResponse.data) := by
    have kind : (ResolveResponse.ofData someUnknownResponse.data).type = .unknown 7 := by decide
    simp only [RejectsResponse, kind]
  exact ⟨.inr rejected, not_closesRejected (by decide) rejected someNetwork 0⟩

end Server

end Cpmd
