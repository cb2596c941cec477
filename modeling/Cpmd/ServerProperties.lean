import Cpmd.Server
import Cpmd.NodeProperties

/-! What each handler of the server can do, said once: to the node it is about,
to the cached messages, and in effects. -/

set_option autoImplicit false

namespace Cpmd

open Library

def Effect.messageTo (nodeAddress : UInt32) : Effect → Option Message
  | .wrote node _ message => if node = nodeAddress then some message else none
  | _ => none

def writtenTo (nodeAddress : UInt32) (effects : List Effect) : List Message :=
  effects.filterMap (Effect.messageTo nodeAddress)

@[simp] theorem writtenTo_nil (nodeAddress : UInt32) : writtenTo nodeAddress [] = [] := rfl

@[simp] theorem writtenTo_wrote (nodeAddress node : UInt32) (conn : ConnId) (message : Message) :
    writtenTo nodeAddress [.wrote node conn message] =
      if node = nodeAddress then [message] else [] := by
  by_cases same : node = nodeAddress <;> simp [writtenTo, Effect.messageTo, same]

theorem writtenTo_map_wrote (nodeAddress node : UInt32) (conn : ConnId) (sent : List Message) :
    writtenTo nodeAddress (sent.map (Effect.wrote node conn)) =
      if node = nodeAddress then sent else [] := by
  by_cases same : node = nodeAddress
  · simp [writtenTo, Effect.messageTo, same, Function.comp_def]
  · simp [writtenTo, Effect.messageTo, same]

theorem mem_writtenTo {nodeAddress : UInt32} {effects : List Effect} {message : Message} :
    message ∈ writtenTo nodeAddress effects ↔
      ∃ conn, Effect.wrote nodeAddress conn message ∈ effects := by
  simp only [writtenTo, List.mem_filterMap]
  constructor
  · intro written
    obtain ⟨effect, member, writes⟩ := written
    cases effect with
    | wrote node conn written =>
        simp only [Effect.messageTo, Option.ite_none_right_eq_some, Option.some.injEq] at writes
        obtain ⟨rfl, rfl⟩ := writes
        exact ⟨conn, member⟩
    | connectTo | registered | requested | close | connectLater => simp [Effect.messageTo] at writes
  · intro written
    obtain ⟨conn, member⟩ := written
    exact ⟨_, member, by simp [Effect.messageTo]⟩

namespace Server

@[simp] theorem remoteAddress_stamp (server : Server) (client : UInt32) (m : Message) :
    (server.stamp client m).remoteAddress = m.remoteAddress := rfl

@[simp] theorem find_putNode (server : Server) (node : Node) (nodeAddress : UInt32) :
    (server.putNode node).nodes.find nodeAddress =
      if nodeAddress = node.nodeAddress then some node else server.nodes.find nodeAddress :=
  FiniteMap.find_assign _ _ _ _

def cachedFor (server : Server) (nodeAddress : UInt32) : List Message :=
  match server.nodes.find nodeAddress with
  | some node => node.cached
  | none => []

theorem cachedFor_putNode (server : Server) (node : Node) (nodeAddress : UInt32) :
    (server.putNode node).cachedFor nodeAddress =
      if nodeAddress = node.nodeAddress then node.cached else server.cachedFor nodeAddress := by
  rw [cachedFor, find_putNode]
  by_cases same : nodeAddress = node.nodeAddress <;> simp [same, cachedFor]

/-- The node of an address as a handler finds it, or as it adds it. -/
def nodeOrNew (server : Server) (nodeAddress : UInt32) : Node :=
  match server.nodes.find nodeAddress with
  | some node => node
  | none => Node.create nodeAddress

@[simp] theorem nodeAddress_nodeOrNew (server : Server) (nodeAddress : UInt32) :
    (server.nodeOrNew nodeAddress).nodeAddress = nodeAddress := by
  unfold nodeOrNew
  split
  · exact server.keyed ‹_›
  · rfl

theorem cachedFor_of_find {server : Server} {nodeAddress : UInt32} {node : Node}
    (found : server.nodes.find nodeAddress = some node) :
    server.cachedFor nodeAddress = node.cached := by
  simp [cachedFor, found]

theorem cached_nodeOrNew (server : Server) (nodeAddress : UInt32) :
    (server.nodeOrNew nodeAddress).cached = server.cachedFor nodeAddress := by
  unfold nodeOrNew cachedFor
  split <;> rfl

theorem nodeOrNew_of_find {server : Server} {nodeAddress : UInt32} {node : Node}
    (found : server.nodes.find nodeAddress = some node) : server.nodeOrNew nodeAddress = node := by
  simp [nodeOrNew, found]

/-- Whether a node is known and passes a test. -/
def has (server : Server) (test : Node → Bool) (nodeAddress : UInt32) : Bool :=
  (server.nodes.find nodeAddress).any test

theorem has_of_find {server : Server} {nodeAddress : UInt32} {node : Node}
    (test : Node → Bool) (found : server.nodes.find nodeAddress = some node) :
    server.has test nodeAddress = test node := by
  simp [has, found]

theorem has_iff {server : Server} {test : Node → Bool} {nodeAddress : UInt32} :
    server.has test nodeAddress = true ↔
      ∃ node, server.nodes.find nodeAddress = some node ∧ test node = true :=
  Option.any_eq_true _ _

theorem has_putNode (server : Server) (test : Node → Bool) (node : Node) (nodeAddress : UInt32) :
    (server.putNode node).has test nodeAddress =
      if nodeAddress = node.nodeAddress then test node else server.has test nodeAddress := by
  rw [has, find_putNode]
  by_cases same : nodeAddress = node.nodeAddress <;> simp [same, has]

theorem has_putNode_same {server : Server} {test : Node → Bool} {node : Node}
    (same : test node = server.has test node.nodeAddress) (nodeAddress : UInt32) :
    (server.putNode node).has test nodeAddress = server.has test nodeAddress := by
  rw [has_putNode]
  split
  · rename_i own
    rw [own, same]
  · rfl

theorem test_nodeOrNew (test : Node → Bool)
    (fails : ∀ nodeAddress, test (Node.create nodeAddress) = false) (server : Server)
    (nodeAddress : UInt32) :
    test (server.nodeOrNew nodeAddress) = server.has test nodeAddress := by
  unfold nodeOrNew has
  cases server.nodes.find nodeAddress with
  | some node => rfl
  | none => exact fails nodeAddress

/-- A known node that is resolved, and neither connected nor marked as connecting. -/
def Idle (server : Server) (network : Network) (nodeAddress : UInt32) : Prop :=
  ∃ node ∈ server.nodes.find nodeAddress, node.resolved = true ∧
    node.connected network = false ∧ node.connecting = false

instance (server : Server) (network : Network) (nodeAddress : UInt32) :
    Decidable (server.Idle network nodeAddress) :=
  inferInstanceAs (Decidable (∃ node ∈ server.nodes.find nodeAddress, node.resolved = true ∧
    node.connected network = false ∧ node.connecting = false))

/-- A message from a client makes the server ask for a node's address. -/
def Asks (server : Server) (network : Network) (writes : Nat → Bool) (m : Message) : Prop :=
  server.isLocal m.remoteAddress = false ∧
    (server.nodeOrNew m.remoteAddress.nodeAddr).notResolved = true ∧ writes 0 = true ∧
    ∃ conn ∈ server.resolveServerConn, network.isOpen conn = true

instance (server : Server) (network : Network) (writes : Nat → Bool) (m : Message) :
    Decidable (server.Asks network writes m) :=
  inferInstanceAs (Decidable (server.isLocal m.remoteAddress = false ∧
    (server.nodeOrNew m.remoteAddress.nodeAddr).notResolved = true ∧ writes 0 = true ∧
    ∃ conn ∈ server.resolveServerConn, network.isOpen conn = true))

/-- What `HandleToRemoteMessage` can do with a message: write it to the node's
connection, cache it (with or without asking for the node's address), or start
connecting to the node. -/
inductive HandlesToRemote (server : Server) (network : Network) (writes : Nat → Bool)
    (m : Message) : Server × Option Message × List Effect → Prop where
  | wrote {node : Node} {conn : ConnId} :
      server.nodes.find m.remoteAddress.nodeAddr = some node → node.notResolved = false →
      node.weakConn = some conn → network.isOpen conn = true → writes 0 = true →
      HandlesToRemote server network writes m
        (server.putNode node, none, [.wrote m.remoteAddress.nodeAddr conn m])
  | cached {node : Node} : server.nodeOrNew m.remoteAddress.nodeAddr = node →
      HandlesToRemote server network writes m
        (server.putNode (node.cacheMessage m).1, (node.cacheMessage m).2, [])
  | requested {node : Node} {requests : List Effect} :
      server.nodeOrNew m.remoteAddress.nodeAddr = node → node.notResolved = true →
      (requests = [] ∨ ∃ conn, server.resolveServerConn = some conn ∧
        network.isOpen conn = true ∧ writes 0 = true ∧
        requests = [.requested conn
          ⟨.kLookupNode, server.selfAddress, 0, m.remoteAddress.nodeAddr⟩]) →
      HandlesToRemote server network writes m
        (server.putNode ((node.setResolveState .kResolving nofun).cacheMessage m).1,
          ((node.setResolveState .kResolving nofun).cacheMessage m).2, requests)
  | connects {node : Node} (known : node.resolved = true) :
      server.nodes.find m.remoteAddress.nodeAddr = some node → node.connected network = false →
      node.connecting = false →
      HandlesToRemote server network writes m
        ((server.registerNode node known).1.putNode (node.setConnecting true), none,
          [(server.registerNode node known).2, .connectTo (node.addressOf known)])

theorem cachedFor_putNode_of_ne {server : Server} {node : Node} {nodeAddress : UInt32}
    (different : nodeAddress ≠ node.nodeAddress) :
    (server.putNode node).cachedFor nodeAddress = server.cachedFor nodeAddress := by
  rw [cachedFor_putNode, if_neg different]

theorem cachedFor_putNode_self {server : Server} {node : Node} :
    (server.putNode node).cachedFor node.nodeAddress = node.cached := by
  rw [cachedFor_putNode, if_pos rfl]

theorem HandlesToRemote.addresses {server after : Server} {network : Network}
    {writes : Nat → Bool} {m : Message} {droped : Option Message} {effects : List Effect}
    (handles : HandlesToRemote server network writes m (after, droped, effects)) :
    after.selfAddress = server.selfAddress ∧
      after.resolveServerAddress = server.resolveServerAddress ∧
      after.messageServerPort = server.messageServerPort := by
  cases handles <;> exact ⟨rfl, rfl, rfl⟩

theorem HandlesToRemote.others {server after : Server} {network : Network}
    {writes : Nat → Bool} {m : Message} {droped : Option Message} {effects : List Effect}
    (handles : HandlesToRemote server network writes m (after, droped, effects))
    {other : UInt32} (different : other ≠ m.remoteAddress.nodeAddr) :
    writtenTo other effects = [] ∧ after.cachedFor other = server.cachedFor other := by
  have keyed := server.nodeAddress_nodeOrNew m.remoteAddress.nodeAddr
  cases handles with
  | wrote found _ _ _ _ =>
      refine ⟨by simp [Ne.symm different], cachedFor_putNode_of_ne ?_⟩
      rwa [server.keyed found]
  | cached found =>
      subst found
      exact ⟨rfl, cachedFor_putNode_of_ne (by rwa [Node.nodeAddress_cacheMessage, keyed])⟩
  | requested found _ requests =>
      subst found
      refine ⟨?_, cachedFor_putNode_of_ne (by rwa [Node.nodeAddress_cacheMessage,
        Node.nodeAddress_setResolveState, keyed])⟩
      rcases requests with rfl | ⟨_, _, _, _, rfl⟩ <;> rfl
  | connects known found _ _ =>
      exact ⟨rfl, cachedFor_putNode_of_ne (by rwa [Node.nodeAddress_setConnecting,
        server.keyed found])⟩

/-- The message is written past the cache, or joins it behind what is kept of
it, or (where a connection is started) neither. -/
theorem HandlesToRemote.own {server after : Server} {network : Network} {writes : Nat → Bool}
    {m : Message} {droped : Option Message} {effects : List Effect}
    (handles : HandlesToRemote server network writes m (after, droped, effects)) :
    (∃ node conn, server.nodes.find m.remoteAddress.nodeAddr = some node ∧
      node.notResolved = false ∧ node.weakConn = some conn ∧ network.isOpen conn = true ∧
      writes 0 = true ∧ droped = none ∧ effects = [.wrote m.remoteAddress.nodeAddr conn m] ∧
      after.cachedFor m.remoteAddress.nodeAddr = server.cachedFor m.remoteAddress.nodeAddr) ∨
    (∃ kept, (∀ node, writtenTo node effects = []) ∧
      server.cachedFor m.remoteAddress.nodeAddr = droped.toList ++ kept ∧
      after.cachedFor m.remoteAddress.nodeAddr = kept ++ [m]) ∨
    (server.Idle network m.remoteAddress.nodeAddr ∧ (∀ node, writtenTo node effects = []) ∧
      after.cachedFor m.remoteAddress.nodeAddr = server.cachedFor m.remoteAddress.nodeAddr) := by
  have keyed := server.nodeAddress_nodeOrNew m.remoteAddress.nodeAddr
  have same := server.cached_nodeOrNew m.remoteAddress.nodeAddr
  cases handles with
  | @wrote node conn found resolvedOnce bound opened written =>
      refine .inl ⟨node, conn, found, resolvedOnce, bound, opened, written, rfl, rfl, ?_⟩
      rw [cachedFor_of_find found, ← server.keyed found, cachedFor_putNode_self]
  | @cached node found =>
      subst found
      obtain ⟨kept, split, joined⟩ :=
        (server.nodeOrNew m.remoteAddress.nodeAddr).cacheMessage_spec m
      refine .inr (.inl ⟨kept, fun _ => rfl, by rw [← same, split], ?_⟩)
      rw [cachedFor_putNode, if_pos (by rw [Node.nodeAddress_cacheMessage, keyed]), joined]
  | @requested node requests found unresolved requested =>
      subst found
      obtain ⟨kept, split, joined⟩ := ((server.nodeOrNew m.remoteAddress.nodeAddr).setResolveState
        .kResolving nofun).cacheMessage_spec m
      refine .inr (.inl ⟨kept, fun _ => ?_, by rw [← same, ← split]; rfl, ?_⟩)
      · rcases requested with rfl | ⟨_, _, _, _, rfl⟩ <;> rfl
      · rw [cachedFor_putNode, if_pos (by rw [Node.nodeAddress_cacheMessage,
          Node.nodeAddress_setResolveState, keyed]), joined]
  | @connects node known found disconnected unmarked =>
      refine .inr (.inr ⟨⟨node, found, known, disconnected, unmarked⟩, fun _ => rfl, ?_⟩)
      rw [cachedFor_putNode, if_pos (by rw [Node.nodeAddress_setConnecting, server.keyed found]),
        Node.cached_setConnecting, cachedFor_of_find found]

theorem HandlesToRemote.wrote_eq {server after : Server} {network : Network}
    {writes : Nat → Bool} {m : Message} {droped : Option Message} {effects : List Effect}
    (handles : server.HandlesToRemote network writes m (after, droped, effects)) {node : UInt32}
    {conn : ConnId} {message : Message} (member : Effect.wrote node conn message ∈ effects) :
    message = m := by
  cases handles with
  | wrote _ _ _ _ _ =>
      cases List.mem_singleton.mp member
      rfl
  | cached _ => cases member
  | requested _ _ requested =>
      rcases requested with rfl | ⟨_, _, _, _, rfl⟩
      · cases member
      · cases List.mem_singleton.mp member
  | connects known _ _ _ => simp [Server.registerNode] at member

theorem HandlesToRemote.cached_of {server after : Server} {network : Network}
    {writes : Nat → Bool} {m : Message} {droped : Option Message} {effects : List Effect}
    (handles : server.HandlesToRemote network writes m (after, droped, effects)) {node : UInt32}
    {message : Message} (member : message ∈ after.cachedFor node) :
    message ∈ server.cachedFor node ∨ message = m := by
  by_cases own : node = m.remoteAddress.nodeAddr
  · subst own
    rcases handles.own with ⟨_, _, _, _, _, _, _, _, _, kept⟩ | ⟨kept, _, split, joined⟩ |
        ⟨_, _, kept⟩
    · exact .inl (kept ▸ member)
    · rw [joined] at member
      rcases List.mem_append.mp member with old | new
      · exact .inl (split ▸ List.mem_append_right _ old)
      · exact .inr (List.mem_singleton.mp new)
    · exact .inl (kept ▸ member)
  · exact .inl ((handles.others own).2 ▸ member)

theorem reqeustNodeNetAddress_cases (server : Server) (network : Network) (writes : Nat → Bool)
    (nodeAddress : UInt32) :
    server.reqeustNodeNetAddress network writes nodeAddress = [] ∨
      ∃ conn, server.resolveServerConn = some conn ∧ network.isOpen conn = true ∧
        writes 0 = true ∧ server.reqeustNodeNetAddress network writes nodeAddress =
          [.requested conn ⟨.kLookupNode, server.selfAddress, 0, nodeAddress⟩] := by
  unfold reqeustNodeNetAddress
  cases server.resolveServerConn with
  | none => exact .inl rfl
  | some conn =>
      dsimp only
      split
      · rename_i sends
        obtain ⟨opened, written⟩ := Bool.and_eq_true_iff.mp sends
        exact .inr ⟨conn, rfl, opened, written, rfl⟩
      · exact .inl rfl

theorem handleToUnresolved_handles (server : Server) (network : Network) (writes : Nat → Bool)
    {m : Message} {node : Node} (found : server.nodeOrNew m.remoteAddress.nodeAddr = node)
    (unresolved : node.notResolved = true) :
    HandlesToRemote server network writes m (server.handleToUnresolved network writes node m) := by
  have keyed : node.nodeAddress = m.remoteAddress.nodeAddr := by
    rw [← found, nodeAddress_nodeOrNew]
  unfold handleToUnresolved
  split
  · refine .requested found unresolved ?_
    rw [keyed]
    exact reqeustNodeNetAddress_cases server network writes m.remoteAddress.nodeAddr
  · exact .cached found

theorem handleToUnresolved_addNewNode (server : Server) (network : Network)
    (writes : Nat → Bool) (nodeAddress : UInt32) (m : Message) :
    (server.addNewNode nodeAddress).1.handleToUnresolved network writes
        (server.addNewNode nodeAddress).2 m =
      server.handleToUnresolved network writes (Node.create nodeAddress) m := by
  unfold handleToUnresolved
  cases held : server.resolveServerConn with
  | none =>
      simp only [addNewNode, putNode, held, FiniteMap.assign_assign, Node.cacheMessage]
  | some conn =>
      simp only [addNewNode, putNode, held, FiniteMap.assign_assign, Node.cacheMessage,
        Node.setResolveState, reqeustNodeNetAddress]

theorem handleToRemoteMessage_of_notResolved {server : Server} {m : Message}
    (unresolved : (server.nodeOrNew m.remoteAddress.nodeAddr).notResolved = true)
    (network : Network) (writes : Nat → Bool) :
    server.handleToRemoteMessage network writes m = server.handleToUnresolved network writes
      (server.nodeOrNew m.remoteAddress.nodeAddr) m := by
  unfold handleToRemoteMessage findNode
  cases found : server.nodes.find m.remoteAddress.nodeAddr with
  | some node =>
      rw [nodeOrNew_of_find found] at unresolved ⊢
      simp [unresolved]
  | none =>
      dsimp only
      rw [handleToUnresolved_addNewNode]
      simp [nodeOrNew, found]

theorem handleToRemoteMessage_handles (server : Server) (network : Network)
    (writes : Nat → Bool) (m : Message) :
    HandlesToRemote server network writes m (server.handleToRemoteMessage network writes m) := by
  unfold handleToRemoteMessage findNode
  split
  · rename_i node found
    have existing := nodeOrNew_of_find found
    have keyed := server.keyed found
    split
    · exact handleToUnresolved_handles server network writes existing ‹_›
    · rename_i resolvedOnce
      split
      · rename_i connected
        rcases node.sendMessage_of_connected connected writes m with
          ⟨written, conn, bound, opened, sent⟩ | ⟨_, sent⟩
        · rw [sent, keyed]
          exact .wrote found (by simpa using resolvedOnce) bound opened written
        · rw [sent]
          exact .cached existing
      · rename_i disconnected
        split
        · exact .cached existing
        · rename_i idle
          split
          · exact .cached existing
          · split
            · exact .connects ‹_› found (by simpa using disconnected) (by simpa using idle)
            · rename_i unresolving unresolved
              cases state : node.resolveState <;>
                simp [Node.notResolved, Node.resolving, Node.resolved, state]
                  at resolvedOnce unresolving unresolved
  · rename_i missing
    rw [handleToUnresolved_addNewNode]
    exact handleToUnresolved_handles server network writes (by simp [nodeOrNew, missing]) rfl

theorem handleToRemoteMessage_of_idle {server : Server} {network : Network} {m : Message}
    {node : Node} (writes : Nat → Bool)
    (found : server.nodes.find m.remoteAddress.nodeAddr = some node)
    (known : node.resolved = true) (disconnected : node.connected network = false)
    (unmarked : node.connecting = false) :
    server.handleToRemoteMessage network writes m =
      ((server.registerNode node known).1.putNode (node.setConnecting true), none,
        [(server.registerNode node known).2, .connectTo (node.addressOf known)]) := by
  have state : node.resolveState = .kResolved := by simpa [Node.resolved] using known
  simp [handleToRemoteMessage, findNode, found, Node.notResolved, Node.resolving, known, state,
    disconnected, unmarked]

/-- What a `kUpdateCache` response does to its node: a good answer gives a known
node its address, a bad one takes away at most its resolve state, and a node not
known yet is given the address whatever the answer. -/
theorem updatedNode_cases (server : Server) (resp : ResolveResponse) :
    (∃ old, server.nodes.find resp.nodeAddr = some old ∧ resp.code = .kOk ∧
      server.updatedNode resp = old.setNetAddress ⟨resp.nodeIp, resp.nodePort⟩) ∨
    (∃ old, server.nodes.find resp.nodeAddr = some old ∧ resp.code ≠ .kOk ∧
      (server.updatedNode resp).resolved = false ∧
      (server.updatedNode resp = old.setResolveState .kNotResolved nofun ∨
        server.updatedNode resp = old)) ∨
    (server.nodes.find resp.nodeAddr = none ∧
      server.updatedNode resp =
        (Node.create resp.nodeAddr).setNetAddress ⟨resp.nodeIp, resp.nodePort⟩) := by
  unfold updatedNode findNode
  cases found : server.nodes.find resp.nodeAddr with
  | none => exact .inr (.inr ⟨rfl, rfl⟩)
  | some old =>
      by_cases good : resp.code = .kOk
      · refine .inl ⟨old, rfl, good, ?_⟩
        simp [good]
      · refine .inr (.inl ⟨old, rfl, good, ?_⟩)
        dsimp only
        by_cases resolved : old.resolved = true
        · rw [if_pos resolved, if_neg good]
          exact ⟨rfl, .inl rfl⟩
        · rw [if_neg resolved, if_neg good]
          exact ⟨Bool.eq_false_iff.mpr resolved, .inr rfl⟩

@[simp] theorem nodeAddress_updatedNode (server : Server) (resp : ResolveResponse) :
    (server.updatedNode resp).nodeAddress = resp.nodeAddr := by
  rcases server.updatedNode_cases resp with ⟨old, found, _, same⟩ |
    ⟨old, found, _, _, same | same⟩ | ⟨_, same⟩
  · exact same ▸ (server.keyed found : old.nodeAddress = _)
  · exact same ▸ (server.keyed found : old.nodeAddress = _)
  · exact same ▸ server.keyed found
  · rw [same]
    rfl

theorem cached_updatedNode (server : Server) (resp : ResolveResponse) :
    (server.updatedNode resp).cached = server.cachedFor resp.nodeAddr := by
  rcases server.updatedNode_cases resp with ⟨old, found, _, same⟩ |
    ⟨old, found, _, _, same | same⟩ | ⟨missing, same⟩
  · rw [same, cachedFor_of_find found]
    rfl
  · rw [same, cachedFor_of_find found]
    rfl
  · rw [same, cachedFor_of_find found]
  · simp [same, cachedFor, missing]

/-- The inversion of `UpdateNodeAddressCache`: the node is updated, and connected
to if it is now resolved and has messages waiting but no connection. -/
theorem updateNodeAddressCache_cases (server : Server) (network : Network)
    (resp : ResolveResponse) :
    (∃ known : (server.updatedNode resp).resolved = true,
      (server.updatedNode resp).hasCachedMessage = true ∧
      (server.updatedNode resp).connected network = false ∧
      server.updateNodeAddressCache network resp =
        (((server.putNode (server.updatedNode resp)).registerNode _ known).1,
          [.connectTo ((server.updatedNode resp).addressOf known),
            ((server.putNode (server.updatedNode resp)).registerNode _ known).2])) ∨
    (((server.updatedNode resp).resolved = false ∨
        (server.updatedNode resp).hasCachedMessage = false ∨
        (server.updatedNode resp).connected network = true) ∧
      server.updateNodeAddressCache network resp =
        (server.putNode (server.updatedNode resp), [])) := by
  by_cases known : (server.updatedNode resp).resolved = true
  · cases waits : (server.updatedNode resp).hasCachedMessage with
    | false => exact .inr ⟨.inr (.inl rfl), by simp [updateNodeAddressCache, waits]⟩
    | true =>
        cases connected : (server.updatedNode resp).connected network with
        | true => exact .inr ⟨.inr (.inr rfl), by simp [updateNodeAddressCache, connected]⟩
        | false =>
            exact .inl ⟨known, rfl, rfl, by
              simp [updateNodeAddressCache, known, waits, connected]⟩
  · exact .inr ⟨.inl (by simpa using known), by simp [updateNodeAddressCache, known]⟩

theorem unRegisterNode_eq_some {server after : Server} {node : Node} :
    server.unRegisterNode node = some after ↔
      ∃ netAddress nodeAddress, node.netAddress = some netAddress ∧
        server.nodesIndex.find netAddress = some nodeAddress ∧
        after = { server with nodesIndex := server.nodesIndex.remove netAddress } := by
  unfold unRegisterNode
  cases node.netAddress with
  | none => simp
  | some netAddress =>
      cases found : server.nodesIndex.find netAddress <;> simp [found, eq_comm]

theorem findNodeByNetAddress_eq_some {server : Server} {netAddress : NetAddress} {node : Node} :
    server.findNodeByNetAddress netAddress = some node ↔
      server.nodesIndex.find netAddress = some node.nodeAddress ∧
        server.nodes.find node.nodeAddress = some node := by
  unfold findNodeByNetAddress
  constructor
  · intro found
    split at found
    · rename_i nodeAddress indexed
      rw [server.keyed found]
      exact ⟨indexed, found⟩
    · cases found
  · intro holds
    obtain ⟨indexed, found⟩ := holds
    simp [indexed, found]

theorem onConnectedToRemoteNode_eq_some {server after : Server} {conn : ConnId}
    {addr : NetAddress} {writes : Nat → Bool} {effects : List Effect}
    (handled : server.onConnectedToRemoteNode conn addr writes = some (after, effects)) :
    ∃ node, server.nodesIndex.find addr = some node.nodeAddress ∧
      server.nodes.find node.nodeAddress = some node ∧
      after = server.putNode (node.setConnection conn writes).1 ∧
      effects = (node.setConnection conn writes).2 := by
  unfold onConnectedToRemoteNode at handled
  split at handled
  · rename_i node found
    obtain ⟨indexed, known⟩ := findNodeByNetAddress_eq_some.mp found
    simp only [Option.some.injEq, Prod.mk.injEq] at handled
    exact ⟨node, indexed, known, handled.1.symm, handled.2.symm⟩
  · cases handled

/-- The node found at an address is changed, and its own address given up. -/
def GivesUp (server : Server) (addr : NetAddress) (change : Node → Node) (after : Server) :
    Prop :=
  ∃ node netAddress, server.nodesIndex.find addr = some node.nodeAddress ∧
    server.nodes.find node.nodeAddress = some node ∧
    (change node).netAddress = some netAddress ∧
    after = { server.putNode (change node) with
      nodesIndex := server.nodesIndex.remove netAddress }

theorem givesUp_of_unRegisterNode {server after : Server} {addr : NetAddress} {node : Node}
    {change : Node → Node} (found : server.findNodeByNetAddress addr = some node)
    (released : (server.putNode (change node)).unRegisterNode (change node) = some after) :
    server.GivesUp addr change after := by
  obtain ⟨indexed, known⟩ := findNodeByNetAddress_eq_some.mp found
  obtain ⟨netAddress, _, own, _, rfl⟩ := unRegisterNode_eq_some.mp released
  exact ⟨node, netAddress, indexed, known, own, rfl⟩

theorem GivesUp.cachedFor {server after : Server} {addr : NetAddress} {change : Node → Node}
    (given : server.GivesUp addr change after)
    (keyed : ∀ node, (change node).nodeAddress = node.nodeAddress)
    (same : ∀ node, (change node).cached = node.cached) (nodeAddress : UInt32) :
    after.cachedFor nodeAddress = server.cachedFor nodeAddress := by
  obtain ⟨node, _, _, found, _, rfl⟩ := given
  change (server.putNode (change node)).cachedFor nodeAddress = _
  rw [cachedFor_putNode, keyed, same]
  by_cases own : nodeAddress = node.nodeAddress
  · rw [if_pos own, own, cachedFor_of_find found]
  · rw [if_neg own]

theorem GivesUp.has {server after : Server} {addr : NetAddress} {change : Node → Node}
    {test : Node → Bool} (given : server.GivesUp addr change after)
    (keyed : ∀ node, (change node).nodeAddress = node.nodeAddress)
    (same : ∀ node, test (change node) = test node) (nodeAddress : UInt32) :
    after.has test nodeAddress = server.has test nodeAddress := by
  obtain ⟨node, _, _, found, _, rfl⟩ := given
  change (server.putNode (change node)).has test nodeAddress = _
  apply has_putNode_same
  rw [keyed, same, has_of_find test found]

theorem onConnectToRemoteNodeError_eq_some {server after : Server} {addr : NetAddress}
    (handled : server.onConnectToRemoteNodeError addr = some after) :
    server.GivesUp addr (Node.setConnecting · false) after := by
  unfold onConnectToRemoteNodeError at handled
  split at handled
  · exact givesUp_of_unRegisterNode ‹_› handled
  · cases handled

theorem onRemoteNodeDisconnected_eq_some {server after : Server} {addr : NetAddress}
    (handled : server.onRemoteNodeDisconnected addr = some after) :
    server.GivesUp addr Node.clearConnection after := by
  unfold onRemoteNodeDisconnected at handled
  split at handled
  · exact givesUp_of_unRegisterNode ‹_› handled
  · cases handled

end Server

end Cpmd
