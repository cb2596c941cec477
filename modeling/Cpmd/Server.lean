import Cpmd.Node

/-! `cpm::Server` as built for release, with its assertions compiled out: the
routing of messages from local clients, and the callbacks of its connections. A
result `none` is a null pointer or an end iterator used all the same. -/

set_option autoImplicit false

namespace Cpmd

open Library

/-- Nodes are never removed, so `nodes_index_` can hold them by their address. -/
structure Server where
  messageServerPort : Int32
  selfAddress : UInt32
  resolveServerConn : Option ConnId
  resolveServerAddress : NetAddress
  nodes : FiniteMap UInt32 Node
  nodesIndex : FiniteMap NetAddress UInt32
  keyed : ∀ {address node}, nodes.find address = some node → node.nodeAddress = address

namespace Server

/-- The constructor, and the resolve server's address from `Run`. -/
def create (messageServerPort : Int32) (resolveServerAddress : NetAddress) : Server where
  messageServerPort := messageServerPort
  selfAddress := Address.kLocalNodeAddress
  resolveServerConn := none
  resolveServerAddress := resolveServerAddress
  nodes := ∅
  nodesIndex := ∅
  keyed := by
    intro address node found
    rw [FiniteMap.find_empty] at found
    cases found

def findNode (server : Server) (nodeAddress : UInt32) : Option Node :=
  server.nodes.find nodeAddress

def findNodeByNetAddress (server : Server) (netAddress : NetAddress) : Option Node :=
  match server.nodesIndex.find netAddress with
  | some nodeAddress => server.nodes.find nodeAddress
  | none => none

def putNode (server : Server) (node : Node) : Server where
  messageServerPort := server.messageServerPort
  selfAddress := server.selfAddress
  resolveServerConn := server.resolveServerConn
  resolveServerAddress := server.resolveServerAddress
  nodes := server.nodes.assign node.nodeAddress node
  nodesIndex := server.nodesIndex
  keyed := by
    intro address other found
    rw [FiniteMap.find_assign] at found
    split at found
    · rename_i same
      cases found
      exact same.symm
    · exact server.keyed found

def addNewNode (server : Server) (nodeAddress : UInt32) : Server × Node :=
  let node := Node.create nodeAddress
  (server.putNode node, node)

def registerNode (server : Server) (node : Node) (known : node.resolved = true) :
    Server × Effect :=
  let placed := server.nodesIndex.emplace (node.addressOf known) node.nodeAddress
  ({ server with nodesIndex := placed.1 }, .registered node.nodeAddress placed.2)

def unRegisterNode (server : Server) (node : Node) : Option Server :=
  match node.netAddress with
  | some netAddress =>
      match server.nodesIndex.find netAddress with
      | some _ => some { server with nodesIndex := server.nodesIndex.remove netAddress }
      | none => none
  | none => none

def reqeustNodeNetAddress (server : Server) (network : Network) (writes : Nat → Bool)
    (nodeAddress : UInt32) : List Effect :=
  match server.resolveServerConn with
  | some conn =>
      if network.isOpen conn && writes 0 then
        [.requested conn ⟨.kLookupNode, server.selfAddress, 0, nodeAddress⟩]
      else []
  | none => []

/-- The branch of `HandleToRemoteMessage` for a node that is not resolved. -/
def handleToUnresolved (server : Server) (network : Network) (writes : Nat → Bool) (node : Node)
    (m : Message) : Server × Option Message × List Effect :=
  match server.resolveServerConn with
  | some _ =>
      let requests := server.reqeustNodeNetAddress network writes node.nodeAddress
      let stored := (node.setResolveState .kResolving nofun).cacheMessage m
      (server.putNode stored.1, stored.2, requests)
  | none =>
      let stored := node.cacheMessage m
      (server.putNode stored.1, stored.2, [])

/-- The second component is `droped`, where it was set. -/
def handleToRemoteMessage (server : Server) (network : Network) (writes : Nat → Bool)
    (m : Message) : Server × Option Message × List Effect :=
  match server.findNode m.remoteAddress.nodeAddr with
  | some node =>
      if node.notResolved then server.handleToUnresolved network writes node m
      else if node.connected network then
        let sent := node.sendMessage network writes m
        (server.putNode sent.1, sent.2)
      else if node.connecting then
        let stored := node.cacheMessage m
        (server.putNode stored.1, stored.2, [])
      else if node.resolving then
        let stored := node.cacheMessage m
        (server.putNode stored.1, stored.2, [])
      else if known : node.resolved then
        let registered := server.registerNode node known
        (registered.1.putNode (node.setConnecting true), none,
          [registered.2, .connectTo (node.addressOf known)])
      else (server, none, [])
  | none =>
      let added := server.addNewNode m.remoteAddress.nodeAddr
      added.1.handleToUnresolved network writes added.2 m

/-- `Address::CreateDirectly(self_address_, client)` as source address. -/
def stamp (server : Server) (client : UInt32) (m : Message) : Message :=
  m.setSourceAddress (Address.createDirectly server.selfAddress client)

/-- The test by which `HandleBusMessage` tells local from remote messages. -/
def isLocal (server : Server) (remoteAddr : Address) : Bool :=
  remoteAddr.nodeAddr == server.selfAddress || remoteAddr.nodeAddr == 0

/-- The body of `HandleBusMessage`'s loop for a message read from a client's
bus. A local message goes to another client's bus and changes nothing here. -/
def handleBusMessage (server : Server) (network : Network) (writes : Nat → Bool)
    (client : UInt32) (m : Message) : Server × List Effect :=
  let stamped := server.stamp client m
  if server.isLocal stamped.remoteAddress then (server, [])
  else
    let handled := server.handleToRemoteMessage network writes stamped
    (handled.1, handled.2.2)

/-- Refused where the path does not hash to the address given with it. -/
def updateSelfAddress (server : Server) (resp : ResolveResponse) : Server × Bool :=
  if (Address.create resp.nodePath).nodeAddr ≠ resp.nodeAddr then (server, false)
  else ({ server with selfAddress := resp.nodeAddr }, true)

/-- The node a `kUpdateCache` response is about, as it is left. -/
def updatedNode (server : Server) (resp : ResolveResponse) : Node :=
  let netAddress : NetAddress := ⟨resp.nodeIp, resp.nodePort⟩
  match server.findNode resp.nodeAddr with
  | some node =>
      if node.resolved then
        if resp.code = .kOk then node.setNetAddress netAddress
        else node.setResolveState .kNotResolved nofun
      else if resp.code = .kOk then node.setNetAddress netAddress
      else node
  | none => (Node.create resp.nodeAddr).setNetAddress netAddress

def updateNodeAddressCache (server : Server) (network : Network) (resp : ResolveResponse) :
    Server × List Effect :=
  let node := server.updatedNode resp
  let updated := server.putNode node
  if known : node.resolved then
    if node.hasCachedMessage && !node.connected network then
      let registered := updated.registerNode node known
      (registered.1, [.connectTo (node.addressOf known), registered.2])
    else (updated, [])
  else (updated, [])

/-- The handlers' results are not looked at: both cases return before that. -/
def handleResolveServerMessage (server : Server) (network : Network) (conn : ConnId) :
    ResolveServerMessage → Server × List Effect
  | .other _ => (server, [.close conn])
  | .kResolveResponse resp =>
      match resp.type with
      | .kUpdateSelf => ((server.updateSelfAddress resp).1, [])
      | .kUpdateCache => server.updateNodeAddressCache network resp
      | .unknown _ => (server, [])

def isResolveServerAddress (server : Server) (addr : NetAddress) : Bool :=
  addr == server.resolveServerAddress

def onConnectedToResolveServer (server : Server) (conn : ConnId) (writes : Nat → Bool) :
    Server × List Effect :=
  ({ server with resolveServerConn := some conn },
    if writes 0 then [.requested conn ⟨.kInitializeSelf, 0, server.messageServerPort, 0⟩] else [])

def onConnectedToRemoteNode (server : Server) (conn : ConnId) (addr : NetAddress)
    (writes : Nat → Bool) : Option (Server × List Effect) :=
  match server.findNodeByNetAddress addr with
  | some node =>
      let bound := node.setConnection conn writes
      some (server.putNode bound.1, bound.2)
  | none => none

def onConnectToRemoteNodeError (server : Server) (addr : NetAddress) : Option Server :=
  match server.findNodeByNetAddress addr with
  | some node =>
      let failed := node.setConnecting false
      (server.putNode failed).unRegisterNode failed
  | none => none

def onRemoteNodeDisconnected (server : Server) (addr : NetAddress) : Option Server :=
  match server.findNodeByNetAddress addr with
  | some node =>
      let cleared := node.clearConnection
      (server.putNode cleared).unRegisterNode cleared
  | none => none

def onResolveServerDisconnected (server : Server) (addr : NetAddress) : Server × List Effect :=
  ({ server with resolveServerConn := none }, [.connectLater addr])

def onConnectedToRemote (server : Server) (conn : ConnId) (addr : NetAddress)
    (writes : Nat → Bool) : Option (Server × List Effect) :=
  if server.isResolveServerAddress addr then some (server.onConnectedToResolveServer conn writes)
  else server.onConnectedToRemoteNode conn addr writes

def onConnectToRemoteError (server : Server) (addr : NetAddress) :
    Option (Server × List Effect) :=
  if server.isResolveServerAddress addr then some (server, [.connectLater addr])
  else
    match server.onConnectToRemoteNodeError addr with
    | some server => some (server, [])
    | none => none

def onConnectToRemoteClose (server : Server) (addr : NetAddress) :
    Option (Server × List Effect) :=
  if server.isResolveServerAddress addr then some (server.onResolveServerDisconnected addr)
  else
    match server.onRemoteNodeDisconnected addr with
    | some server => some (server, [])
    | none => none

end Server

end Cpmd
