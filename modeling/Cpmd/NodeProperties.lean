import Cpmd.Node

/-! What each operation of a node does to the messages it holds. -/

set_option autoImplicit false

namespace Cpmd.Node

@[simp] theorem nodeAddress_cacheMessage (node : Node) (newMessage : Message) :
    (node.cacheMessage newMessage).1.nodeAddress = node.nodeAddress := rfl

@[simp] theorem nodeAddress_setResolveState (node : Node) (state : ResolveState)
    (addressed : state = .kResolved → node.netAddress.isSome = true) :
    (node.setResolveState state addressed).nodeAddress = node.nodeAddress := rfl

@[simp] theorem nodeAddress_setConnecting (node : Node) (connecting : Bool) :
    (node.setConnecting connecting).nodeAddress = node.nodeAddress := rfl

@[simp] theorem cached_create (nodeAddress : UInt32) : (create nodeAddress).cached = [] := rfl

@[simp] theorem cached_setNetAddress (node : Node) (netAddress : NetAddress) :
    (node.setNetAddress netAddress).cached = node.cached := rfl

@[simp] theorem cached_setConnecting (node : Node) (connecting : Bool) :
    (node.setConnecting connecting).cached = node.cached := rfl

/-- Caching takes from the front what it reports as dropped, and adds behind. -/
theorem cacheMessage_spec (node : Node) (newMessage : Message) :
    ∃ kept, node.cached = (node.cacheMessage newMessage).2.toList ++ kept ∧
      (node.cacheMessage newMessage).1.cached = kept ++ [newMessage] := by
  unfold cacheMessage cached
  cases node.messagesToDeliver with
  | some queue => exact queue.push_elements newMessage
  | none =>
      exact (Library.BoundedQueue.empty : MessageCacheQueue kMaxCachedMessageNum).push_elements
        newMessage

theorem connected_iff {network : Network} {node : Node} :
    node.connected network = true ↔
      ∃ conn, node.weakConn = some conn ∧ network.isOpen conn = true := by
  unfold connected
  cases node.weakConn <;> simp

theorem sendMessage_of_connected {node : Node} {network : Network}
    (connected : node.connected network = true) (writes : Nat → Bool) (newMessage : Message) :
    (writes 0 = true ∧ ∃ conn, node.weakConn = some conn ∧ network.isOpen conn = true ∧
      node.sendMessage network writes newMessage =
        (node, none, [.wrote node.nodeAddress conn newMessage])) ∨
    (writes 0 = false ∧ node.sendMessage network writes newMessage =
      ((node.cacheMessage newMessage).1, (node.cacheMessage newMessage).2, [])) := by
  obtain ⟨conn, bound, opened⟩ := connected_iff.mp connected
  cases written : writes 0 with
  | true => exact .inl ⟨rfl, conn, bound, opened, by simp [sendMessage, bound, opened, written]⟩
  | false => exact .inr ⟨rfl, by simp [sendMessage, bound, opened, written]⟩

/-- A new connection gets a first part of the cache, in order; the node keeps
the rest. -/
theorem setConnection_spec (node : Node) (conn : ConnId) (writes : Nat → Bool) :
    ∃ sent, (node.setConnection conn writes).2 = sent.map (Effect.wrote node.nodeAddress conn) ∧
      node.cached = sent ++ (node.setConnection conn writes).1.cached := by
  obtain ⟨connecting, state, nodeAddress, netAddress, messages, weakConn, addressed⟩ := node
  cases messages with
  | none => exact ⟨[], rfl, rfl⟩
  | some queue =>
      obtain ⟨elements, bounded⟩ := queue
      cases elements with
      | nil => exact ⟨[], rfl, rfl⟩
      | cons message rest => exact ⟨_, rfl, (flushLoop_append writes 0 (message :: rest)).symm⟩

theorem setConnection_frame (node : Node) (conn : ConnId) (writes : Nat → Bool) :
    (node.setConnection conn writes).1.nodeAddress = node.nodeAddress ∧
      (node.setConnection conn writes).1.netAddress = node.netAddress ∧
      (node.setConnection conn writes).1.weakConn = some conn := by
  obtain ⟨connecting, state, nodeAddress, netAddress, messages, weakConn, addressed⟩ := node
  cases messages with
  | none => exact ⟨rfl, rfl, rfl⟩
  | some queue =>
      obtain ⟨elements, bounded⟩ := queue
      cases elements <;> exact ⟨rfl, rfl, rfl⟩

/-- Neither flag of the node is touched, `connecting_` in particular is not cleared. -/
theorem setConnection_flags (node : Node) (conn : ConnId) (writes : Nat → Bool) :
    (node.setConnection conn writes).1.connecting = node.connecting ∧
      (node.setConnection conn writes).1.resolveState = node.resolveState := by
  obtain ⟨connecting, state, nodeAddress, netAddress, messages, weakConn, addressed⟩ := node
  cases messages with
  | none => exact ⟨rfl, rfl⟩
  | some queue =>
      obtain ⟨elements, bounded⟩ := queue
      cases elements <;> exact ⟨rfl, rfl⟩

end Cpmd.Node
