import Cpmd.Protocol
import Cpmd.Library.FiniteMap
import Cpmd.Library.EventMachine

/-! `cpm::ResolveServer` as built for release, and its connections. A result
`none` is a null context pointer used all the same. -/

set_option autoImplicit false

namespace Cpmd

open Library

/-- `ResolveServerConf::Node`. -/
structure ConfNode where
  readableAddr : List UInt8
  netAddr : NetAddress
deriving DecidableEq

def ConfNode.nodeAddr (node : ConfNode) : UInt32 := (Address.create node.readableAddr).nodeAddr

/-- The nodes by their address, and pointers to them by ip and port. -/
structure ResolveServerConf where
  nodes : FiniteMap UInt32 ConfNode
  cacheNodes : FiniteMap NetAddress ConfNode
  keyed : ∀ {nodeAddr node}, nodes.find nodeAddr = some node → node.nodeAddr = nodeAddr
  pointed : ∀ {netAddr node}, cacheNodes.find netAddr = some node →
    nodes.find node.nodeAddr = some node

namespace ResolveServerConf

def getNodeInfoByNetAddress (conf : ResolveServerConf) (netAddress : NetAddress) :
    Option ConfNode :=
  conf.cacheNodes.find netAddress

def getNodeInfoByNodeAddress (conf : ResolveServerConf) (nodeAddress : UInt32) :
    Option ConfNode :=
  conf.nodes.find nodeAddress

end ResolveServerConf

/-- What `SetContext` has put into a connection, told apart by its type. -/
inductive Context where
  | none
  | timerId (timer : Nat)
  | nodeAddr (nodeAddr : UInt32)
deriving DecidableEq

/-- `released` says that `OnClose` has run. The object stays as long as
`connections_` points to it, and here for good. -/
structure ServiceConnection where
  peerAddr : NetAddress
  context : Context
  closed : Bool
  released : Bool
deriving DecidableEq

structure ResolveServer where
  conf : ResolveServerConf
  connections : FiniteMap UInt32 Nat

namespace ResolveServer

/-- What a handler of requests leaves: `reply` is absent where the memory sent as
the reply was never written to. -/
structure Handled where
  server : ResolveServer
  context : Context
  removedTimer : Option Nat
  preserve : Bool
  reply : Option ResolveResponse

/-- Requests that name no node of the configuration are refused. The reply's
fields that are not set are zero. -/
def handleNodeInit (server : ResolveServer) (conn : Nat) (connection : ServiceConnection)
    (req : ResolveRequest) : Option Handled :=
  match server.conf.getNodeInfoByNetAddress ⟨connection.peerAddr.ip, req.cpmdPort⟩ with
  | none =>
      some ⟨server, connection.context, none, false,
        some ⟨.kNodeNotFound, .unknown 0, 0, 0, [], []⟩⟩
  | some node =>
      match connection.context with
      | .timerId timer =>
          some ⟨{ server with connections := (server.connections.emplace node.nodeAddr conn).1 },
            .nodeAddr node.nodeAddr, some timer, true,
            some ⟨.kOk, .kUpdateSelf, node.nodeAddr, req.cpmdPort, connection.peerAddr.ip,
              node.readableAddr⟩⟩
      | .none | .nodeAddr _ => none

/-- `GetContext<NodeAddressType>` of the registered connection. -/
def registeredAddr (conns : FiniteMap Nat ServiceConnection) (conn : Nat) : Option UInt32 :=
  match conns.find conn with
  | some connection =>
      match connection.context with
      | .nodeAddr nodeAddr => some nodeAddr
      | .none | .timerId _ => none
  | none => none

def handleNodeLookup (server : ResolveServer) (conns : FiniteMap Nat ServiceConnection)
    (connection : ServiceConnection) (req : ResolveRequest) : Option Handled :=
  match server.connections.find req.selfAddr with
  | none => some ⟨server, connection.context, none, false, none⟩
  | some registered =>
      match registeredAddr conns registered with
      | none => none
      | some nodeAddr =>
          if req.selfAddr ≠ nodeAddr then some ⟨server, connection.context, none, false, none⟩
          else
            match server.conf.getNodeInfoByNodeAddress req.peerAddr with
            | none =>
                some ⟨server, connection.context, none, true,
                  some ⟨.kNodeNotFound, .kUpdateCache, req.peerAddr, 0, [], []⟩⟩
            | some node =>
                some ⟨server, connection.context, none, true,
                  some ⟨.kOk, .kUpdateCache, node.nodeAddr, node.netAddr.port, node.netAddr.ip,
                    node.readableAddr⟩⟩

/-- The handler's result decides whether the connection is closed afterwards. -/
def onMessage (server : ResolveServer) (conns : FiniteMap Nat ServiceConnection) (conn : Nat)
    (connection : ServiceConnection) (req : ResolveRequest) : Option Handled :=
  match req.type with
  | .kInitializeSelf => server.handleNodeInit conn connection req
  | .kLookupNode => server.handleNodeLookup conns connection req
  | .unknown _ => some ⟨server, connection.context, none, false, none⟩

def onClose (server : ResolveServer) (connection : ServiceConnection) : ResolveServer :=
  match connection.context with
  | .nodeAddr nodeAddr => { server with connections := server.connections.remove nodeAddr }
  | .none | .timerId _ => server

end ResolveServer

namespace Service

/-- The resolve server with its connections and its pending timers, each bound
to the connection it kicks off. -/
structure State where
  server : ResolveServer
  conns : FiniteMap Nat ServiceConnection
  nextConn : Nat
  timers : FiniteMap Nat Nat
  nextTimer : Nat

inductive Event where
  | newConnection (peerAddr : NetAddress)
  /-- A request decoded on a connection, and whether the `Write` of its reply
  succeeds. The codec goes on after `Close`, so any connection can bring one. -/
  | request (conn : Nat) (req : ResolveRequest) (written : Bool)
  /-- The timer of `KickOffNode` expires. -/
  | kickOff (timer : Nat)
  | foundClosed (conn : Nat)
  /-- `OnClose`, once for each connection that closes. -/
  | close (conn : Nat)

structure Replied where
  conn : Nat
  req : ResolveRequest
  preserve : Bool
  reply : Option ResolveResponse
  written : Bool
deriving DecidableEq

def State.initial (conf : ResolveServerConf) : State := ⟨⟨conf, ∅⟩, ∅, 0, ∅, 0⟩

def State.shut (state : State) (conn : Nat) (connection : ServiceConnection) : State :=
  { state with conns := state.conns.assign conn { connection with closed := true } }

def step (state : State) : Event → Option (State × List Replied)
  | .newConnection peerAddr =>
      some (⟨state.server,
        state.conns.assign state.nextConn ⟨peerAddr, .timerId state.nextTimer, false, false⟩,
        state.nextConn + 1, state.timers.assign state.nextTimer state.nextConn,
        state.nextTimer + 1⟩, [])
  | .request conn req written =>
      match state.conns.find conn with
      | none => none
      | some connection =>
          match state.server.onMessage state.conns conn connection req with
          | none => none
          | some handled =>
              some (⟨handled.server,
                state.conns.assign conn { connection with
                  context := handled.context
                  closed := connection.closed || !handled.preserve },
                state.nextConn,
                match handled.removedTimer with
                | some timer => state.timers.remove timer
                | none => state.timers,
                state.nextTimer⟩, [⟨conn, req, handled.preserve, handled.reply, written⟩])
  | .kickOff timer =>
      match state.timers.find timer with
      | none => none
      | some conn =>
          match state.conns.find conn with
          | none => none
          | some connection =>
              some ({ state.shut conn connection with timers := state.timers.remove timer }, [])
  | .foundClosed conn =>
      match state.conns.find conn with
      | none => none
      | some connection => some (state.shut conn connection, [])
  | .close conn =>
      match state.conns.find conn with
      | none => none
      | some connection =>
          if connection.closed && !connection.released then
            some ({ state with
              server := state.server.onClose connection
              conns := state.conns.assign conn { connection with released := true } }, [])
          else none

def machine : EventMachine State Event Replied := ⟨step⟩

/-- A configured node for examples, and a configuration with no other. -/
def someConfNode : ConfNode := ⟨[47, 98, 47], ⟨[10, 0, 0, 7], 8123⟩⟩

def someConf : ResolveServerConf where
  nodes := FiniteMap.assign ∅ someConfNode.nodeAddr someConfNode
  cacheNodes := FiniteMap.assign ∅ someConfNode.netAddr someConfNode
  keyed := by
    intro nodeAddr node found
    rw [FiniteMap.find_assign, FiniteMap.find_empty] at found
    split at found
    · rename_i same
      cases found
      exact same.symm
    · cases found
  pointed := by
    intro netAddr node found
    rw [FiniteMap.find_assign, FiniteMap.find_empty] at found
    split at found
    · cases found
      rw [FiniteMap.find_assign, if_pos rfl]
    · cases found

/-- The address that node's daemon connects from, and its first request. -/
def somePeerAddr : NetAddress := ⟨[10, 0, 0, 7], 50000⟩

def someInitialize : ResolveRequest := ⟨.kInitializeSelf, 0, 8123, 0⟩

end Service

end Cpmd
