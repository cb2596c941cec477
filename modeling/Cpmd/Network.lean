import Cpmd.Message
import Cpmd.Protocol
import Cpmd.Library.FiniteMap

/-! What the daemons see of the network: TCP connections that exist until their
close callback has run, connect attempts that wait for their answer, and
attempts put off. What a handler asks of it is an effect, carried out when the
handler returns. -/

set_option autoImplicit false

namespace Cpmd

open Library

abbrev ConnId : Type := Nat

structure TcpConnection where
  peerAddr : NetAddress
  closed : Bool
deriving DecidableEq

/-- What the handlers of a daemon do besides updating its state. -/
inductive Effect where
  /-- `TcpClient::ConnectTo`. -/
  | connectTo (addr : NetAddress)
  /-- `RegisterNode`, and whether its `emplace` inserted. -/
  | registered (node : UInt32) (inserted : Bool)
  /-- A message queued by a `Write` on a connection to a remote node. -/
  | wrote (node : UInt32) (conn : ConnId) (message : Message)
  /-- A request queued by a `Write` on the connection to the resolve server. -/
  | requested (conn : ConnId) (request : ResolveRequest)
  /-- `TcpConnection::Close`. -/
  | close (conn : ConnId)
  /-- `RunAfter` of a `ConnectTo`. -/
  | connectLater (addr : NetAddress)
deriving DecidableEq

structure Network where
  conns : FiniteMap ConnId TcpConnection
  nextId : ConnId
  attempts : List NetAddress
  retries : List NetAddress

namespace Network

/-- The object is still there and `closed()` is false. -/
def isOpen (network : Network) (conn : ConnId) : Bool :=
  match network.conns.find conn with
  | some connection => !connection.closed
  | none => false

/-- Connections close once; the object stays until its close callback. -/
def close (network : Network) (conn : ConnId) : Network :=
  match network.conns.find conn with
  | some connection =>
      { network with conns := network.conns.assign conn { connection with closed := true } }
  | none => network

def carryOut (network : Network) : Effect → Network
  | .connectTo addr => { network with attempts := network.attempts ++ [addr] }
  | .close conn => network.close conn
  | .connectLater addr => { network with retries := network.retries ++ [addr] }
  | .registered _ _ | .wrote _ _ _ | .requested _ _ => network

def carryOutAll (network : Network) (effects : List Effect) : Network :=
  effects.foldl carryOut network

def accept (network : Network) (addr : NetAddress) : Network where
  conns := network.conns.assign network.nextId ⟨addr, false⟩
  nextId := network.nextId + 1
  attempts := network.attempts.erase addr
  retries := network.retries

def refuse (network : Network) (addr : NetAddress) : Network :=
  { network with attempts := network.attempts.erase addr }

def release (network : Network) (conn : ConnId) : Network :=
  { network with conns := network.conns.remove conn }

end Network

end Cpmd
