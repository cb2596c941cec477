import Cpmd.Server
import Cpmd.Library.EventMachine

/-! A daemon as a machine: its server, its network, and the events that the
event loop hands it one at a time. -/

set_option autoImplicit false

namespace Cpmd.Daemon

open Library

structure State where
  server : Server
  network : Network

/-- `writes` gives the outcome of each `Write` made while the event is handled. -/
inductive Event where
  /-- A message read from the bus of a local client. -/
  | busMessage (client : UInt32) (m : Message) (writes : Nat → Bool)
  /-- A message decoded on a connection to the resolve server. -/
  | resolveServerMessage (conn : ConnId) (m : ResolveServerMessage)
  | connected (addr : NetAddress) (writes : Nat → Bool)
  | connectError (addr : NetAddress)
  /-- The peer closed a connection, or it failed; `OnClose` follows. -/
  | foundClosed (conn : ConnId)
  | disconnected (conn : ConnId)
  /-- The timer of a postponed attempt expires. -/
  | retry (addr : NetAddress)

/-- After `Run`, the attempt to reach the resolve server is under way. -/
def State.initial (messageServerPort : Int32) (resolveServerAddress : NetAddress) : State where
  server := Server.create messageServerPort resolveServerAddress
  network := ⟨∅, 0, [resolveServerAddress], []⟩

def settle (network : Network) (handled : Server × List Effect) : State × List Effect :=
  (⟨handled.1, network.carryOutAll handled.2⟩, handled.2)

/-- Attempts are answered once; a connection's close callback runs once, after
it was closed, and the object goes with it. -/
def step (state : State) : Event → Option (State × List Effect)
  | .busMessage client m writes =>
      some (settle state.network (state.server.handleBusMessage state.network writes client m))
  | .resolveServerMessage conn m =>
      match state.network.conns.find conn with
      | some connection =>
          if state.server.isResolveServerAddress connection.peerAddr then
            some (settle state.network
              (state.server.handleResolveServerMessage state.network conn m))
          else none
      | none => none
  | .connected addr writes =>
      if addr ∈ state.network.attempts then
        (state.server.onConnectedToRemote state.network.nextId addr writes).map
          (settle (state.network.accept addr))
      else none
  | .connectError addr =>
      if addr ∈ state.network.attempts then
        (state.server.onConnectToRemoteError addr).map (settle (state.network.refuse addr))
      else none
  | .foundClosed conn =>
      if state.network.isOpen conn then some (settle (state.network.close conn) (state.server, []))
      else none
  | .disconnected conn =>
      match state.network.conns.find conn with
      | some connection =>
          if connection.closed then
            (state.server.onConnectToRemoteClose connection.peerAddr).map
              (settle (state.network.release conn))
          else none
      | none => none
  | .retry addr =>
      if addr ∈ state.network.retries then
        some (settle { state.network with retries := state.network.retries.erase addr }
          (state.server, [.connectTo addr]))
      else none

def machine : EventMachine State Event Effect := ⟨step⟩

/-- A resolve server for examples, net addresses for all nodes, that of one, and
a message to it. -/
def someResolveServer : NetAddress := ⟨[10, 0, 0, 1], 9999⟩

def someBook (nodeAddress : UInt32) : NetAddress := ⟨LittleEndian.bytes nodeAddress, 8123⟩

def someNodeAddr : NetAddress := someBook 9

def someMessage : Message := ⟨⟨0, 0⟩, ⟨9, 2⟩, Message.kMagic, 3, [72, 105, 33]⟩

def someAnswer : ResolveServerMessage :=
  .kResolveResponse ⟨.kOk, .kUpdateCache, 9, 8123, LittleEndian.bytes 9, [47, 97, 47]⟩

/-- The resolve server's answer that tells a daemon its own address. -/
def someSelfResponse : ResolveResponse :=
  ⟨.kOk, .kUpdateSelf, (Address.create [47, 98, 47]).nodeAddr, 8123, [10, 0, 0, 7],
    [47, 98, 47]⟩

def someSelfUpdate : ResolveServerMessage := .kResolveResponse someSelfResponse

end Cpmd.Daemon
