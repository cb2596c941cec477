import Cpmd.Network
import Cpmd.Library.BoundedQueue

/-! A remote node as a daemon keeps it: how far its address is known, the
connection to it, and the messages that wait for one. -/

set_option autoImplicit false

namespace Cpmd

open Library

abbrev MessageCacheQueue (maxSize : Nat) : Type := BoundedQueue Message maxSize

inductive ResolveState where
  | kResolving
  | kResolved
  | kNotResolved
deriving DecidableEq

def kMaxCachedMessageNum : Nat := 1 <<< 7

instance : NeZero kMaxCachedMessageNum := ⟨by decide⟩

/-- A node is resolved only with an address. -/
structure Node where
  connecting : Bool
  resolveState : ResolveState
  nodeAddress : UInt32
  netAddress : Option NetAddress
  messagesToDeliver : Option (MessageCacheQueue kMaxCachedMessageNum)
  weakConn : Option ConnId
  addressed : resolveState = .kResolved → netAddress.isSome = true

namespace Node

def create (nodeAddress : UInt32) : Node where
  connecting := false
  resolveState := .kNotResolved
  nodeAddress := nodeAddress
  netAddress := none
  messagesToDeliver := none
  weakConn := none
  addressed := nofun

def connected (network : Network) (node : Node) : Bool :=
  match node.weakConn with
  | some conn => network.isOpen conn
  | none => false

def resolving (node : Node) : Bool := node.resolveState == .kResolving

def resolved (node : Node) : Bool := node.resolveState == .kResolved

def notResolved (node : Node) : Bool := node.resolveState == .kNotResolved

def cached (node : Node) : List Message :=
  match node.messagesToDeliver with
  | some queue => queue.elements
  | none => []

def hasCachedMessage (node : Node) : Bool :=
  match node.messagesToDeliver with
  | some queue => !queue.elements.isEmpty
  | none => false

/-- `NetAddress()` of a node that is resolved. -/
def addressOf (node : Node) (known : node.resolved = true) : NetAddress :=
  node.netAddress.get (node.addressed (by simpa [resolved] using known))

def setResolveState (node : Node) (state : ResolveState)
    (addressed : state = .kResolved → node.netAddress.isSome = true) : Node :=
  { node with resolveState := state, addressed := addressed }

def setNetAddress (node : Node) (netAddress : NetAddress) : Node :=
  { node with netAddress := some netAddress, resolveState := .kResolved, addressed := fun _ => rfl }

def setConnecting (node : Node) (connecting : Bool) : Node :=
  { node with connecting := connecting }

def clearConnection (node : Node) : Node := { node with weakConn := none }

/-- The second component is what `droped` is set to, if it is. -/
def cacheMessage (node : Node) (newMessage : Message) : Node × Option Message :=
  let queue := match node.messagesToDeliver with
    | some queue => queue
    | none => BoundedQueue.empty
  let pushed := queue.push newMessage
  ({ node with messagesToDeliver := some pushed.1 }, pushed.2)

/-- `writes` says of each `Write` of the call, in turn, whether it succeeds. -/
def sendMessage (node : Node) (network : Network) (writes : Nat → Bool) (newMessage : Message) :
    Node × Option Message × List Effect :=
  let cache :=
    let stored := node.cacheMessage newMessage
    (stored.1, stored.2, [])
  match node.weakConn with
  | some conn =>
      if network.isOpen conn then
        if writes 0 then (node, none, [.wrote node.nodeAddress conn newMessage]) else cache
      else cache
  | none => cache

/-- The loop of `FlushMessage` on the queued messages: those written, and those
left when a `Write` failed or none was left. -/
def flushLoop (writes : Nat → Bool) : Nat → List Message → List Message × List Message
  | _, [] => ([], [])
  | attempt, message :: rest =>
      if writes attempt then
        let flushed := flushLoop writes (attempt + 1) rest
        (message :: flushed.1, flushed.2)
      else ([], message :: rest)

theorem flushLoop_append (writes : Nat → Bool) (attempt : Nat) (messages : List Message) :
    (flushLoop writes attempt messages).1 ++ (flushLoop writes attempt messages).2 = messages := by
  induction messages generalizing attempt with
  | nil => rfl
  | cons message rest ih =>
      rw [flushLoop]
      split
      · exact congrArg (message :: ·) (ih (attempt + 1))
      · rfl

theorem length_flushLoop_le (writes : Nat → Bool) (attempt : Nat) (messages : List Message) :
    (flushLoop writes attempt messages).2.length ≤ messages.length := by
  have split := congrArg List.length (flushLoop_append writes attempt messages)
  rw [List.length_append] at split
  omega

def flushMessage (node : Node) (queue : MessageCacheQueue kMaxCachedMessageNum) (conn : ConnId)
    (writes : Nat → Bool) : Node × List Effect :=
  let flushed := flushLoop writes 0 queue.elements
  let left : MessageCacheQueue kMaxCachedMessageNum :=
    ⟨flushed.2, Nat.le_trans (length_flushLoop_le writes 0 queue.elements) queue.bounded⟩
  ({ node with messagesToDeliver := some left },
    flushed.1.map (Effect.wrote node.nodeAddress conn))

/-- A flush that stops early leaves its rest in the queue. -/
def setConnection (node : Node) (conn : ConnId) (writes : Nat → Bool) : Node × List Effect :=
  let flushed := match node.messagesToDeliver with
    | some queue =>
        if !queue.elements.isEmpty then node.flushMessage queue conn writes else (node, [])
    | none => (node, [])
  ({ flushed.1 with weakConn := some conn }, flushed.2)

end Node

end Cpmd
