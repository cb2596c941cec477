import Cpmd.ReadableAddresses
import Cpmd.ReplyMemory

/-! The responses about the nodes of an accepted configuration: what the builder
asserts of them, and the node address that they carry. -/

set_option autoImplicit false

namespace Cpmd

open Library

theorem ResolveResponse.nodeAddr_ofData_layout (resp : ResolveResponse) :
    (ofData resp.layout).nodeAddr = resp.nodeAddr := by
  obtain ⟨rest, split⟩ : ∃ rest, resp.layout =
      LittleEndian.halfBytes resp.code.toInt16.toUInt16 ++
        (LittleEndian.halfBytes resp.type.toInt16.toUInt16 ++
          (LittleEndian.bytes resp.nodeAddr ++ rest)) := ⟨_, rfl⟩
  rw [split]
  simp [ofData, List.drop_append]

/-- Whatever response is built about the node, the setters' assertions hold and it
carries an address that does not mean the receiver itself. -/
structure ResolveServerConf.Serves (conf : ResolveServerConf) (node : ConfNode) : Prop where
  updateSelf : ∀ peerIp req, conf.getNodeInfoByNetAddress ⟨peerIp, req.cpmdPort⟩ = some node →
    ResolveResponse.Builder.AssertsNodeIp peerIp ∧
      ResolveResponse.Builder.AssertsNodePath node.readableAddr ∧
      (ResolveResponse.ofData (ResolveServer.initReply conf peerIp req).data).nodeAddr ≠
        Address.kLocalNodeAddress
  updateCache : ∀ req, conf.getNodeInfoByNodeAddress req.peerAddr = some node →
    ResolveResponse.Builder.AssertsNodeIp node.netAddr.ip ∧
      ResolveResponse.Builder.AssertsNodePath node.readableAddr ∧
      (ResolveResponse.ofData (ResolveServer.lookupReply conf req).data).nodeAddr ≠
        Address.kLocalNodeAddress

namespace ResolveServer

variable {conf : ResolveServerConf} {peerIp : List UInt8} {req : ResolveRequest}
  {node : ConfNode}

theorem Builds.nodeAddr_data {resp : ResolveResponse} {reply : ProtocolMessage}
    (builds : Builds conf peerIp req resp reply)
    (ipFits : ResolveResponse.Builder.AssertsNodeIp resp.nodeIp)
    (pathFits : ResolveResponse.Builder.AssertsNodePath resp.nodePath) :
    (ResolveResponse.ofData reply.data).nodeAddr = resp.nodeAddr := by
  rw [builds.data (Nat.le_of_lt ipFits) (Nat.le_of_lt pathFits)]
  exact resp.nodeAddr_ofData_layout

theorem nodeAddr_initReply
    (listed : conf.getNodeInfoByNetAddress ⟨peerIp, req.cpmdPort⟩ = some node)
    (ipFits : ResolveResponse.Builder.AssertsNodeIp peerIp)
    (pathFits : ResolveResponse.Builder.AssertsNodePath node.readableAddr) :
    (ResolveResponse.ofData (initReply conf peerIp req).data).nodeAddr = node.nodeAddr := by
  have built := (Builds.initialized listed).nodeAddr_data ipFits pathFits
  simp only [initReply, listed]
  exact built

theorem nodeAddr_lookupReply (listed : conf.getNodeInfoByNodeAddress req.peerAddr = some node)
    (fits : node.FitsFields) :
    (ResolveResponse.ofData (lookupReply conf req).data).nodeAddr = node.nodeAddr := by
  have builds : Builds conf [] req _ _ := .found listed
  simp only [lookupReply, listed]
  exact builds.nodeAddr_data fits.1 fits.2

end ResolveServer

namespace ResolveServerConf

/-- A node of an accepted file can be served exactly if its ip and path fit their
fields, the path names a node, and the hash of that name is not zero. -/
theorem serves_iff {tree : Option PropertyTree} {interface : Interface}
    {conf : ResolveServerConf} (accepted : createFromFile tree = some (interface, conf))
    {nodeAddr : UInt32} {node : ConfNode}
    (listed : conf.getNodeInfoByNodeAddress nodeAddr = some node) :
    conf.Serves node ↔ node.FitsFields ∧ Address.slash ∈ node.readableAddr ∧
      Address.hash (Address.nodePart node.readableAddr) ≠ 0 := by
  rw [← Address.nodeAddr_create_ne_iff]
  have own : node.nodeAddr = nodeAddr := conf.keyed listed
  constructor
  · intro serves
    obtain ⟨ipFits, pathFits, carried⟩ :=
      serves.updateCache ⟨.kLookupNode, 0, 0, nodeAddr⟩ listed
    rw [ResolveServer.nodeAddr_lookupReply listed ⟨ipFits, pathFits⟩] at carried
    exact ⟨⟨ipFits, pathFits⟩, carried⟩
  · intro good
    obtain ⟨fits, foreign⟩ := good
    refine ⟨fun peerIp req found => ?_, fun req found => ⟨fits.1, fits.2, ?_⟩⟩
    · have same := indexed_createFromFile accepted _ _ found
      have ipFits := fits.1
      rw [same] at ipFits
      refine ⟨ipFits, fits.2, ?_⟩
      rw [ResolveServer.nodeAddr_initReply found ipFits fits.2]
      exact foreign
    · rw [ResolveServer.nodeAddr_lookupReply found fits]
      exact foreign

theorem serves_iff_path : Service.someTextConf.Serves Service.someTextNode := by
  have listed : Service.someTextConf.getNodeInfoByNodeAddress Service.someTextNode.nodeAddr =
      some Service.someTextNode := rfl
  exact (serves_iff Service.someTextTree_accepted listed).mpr
    ⟨⟨by decide, by decide⟩, by decide, by decide⟩

/-- A node whose path has no slash. -/
def someLocalNode : ConfNode := ⟨[98], Service.someTextNode.netAddr⟩

def someLocalTree : PropertyTree where
  interface := Service.someTextTree.interface
  nodes := some [.node (some [98]) (some [49, 48, 46, 48, 46, 48, 46, 55]) (some 8123)]

def someLocalConf : ResolveServerConf := empty.addNode someLocalNode (absent_empty someLocalNode)

/-- Its file is accepted, and its daemon is told that its address is 0. -/
theorem not_serves_local :
    createFromFile (some someLocalTree) =
        some (⟨some ⟨[49, 48, 46, 48, 46, 48, 46, 49], 9999⟩, none⟩, someLocalConf) ∧
      someLocalConf.getNodeInfoByNodeAddress 0 = some someLocalNode ∧
      ¬ someLocalConf.Serves someLocalNode := by
  have listed : someLocalConf.getNodeInfoByNodeAddress 0 = some someLocalNode := rfl
  refine ⟨rfl, listed, fun serves => ?_⟩
  have carried := (serves.updateCache ⟨.kLookupNode, 0, 0, 0⟩ listed).2.2
  rw [ResolveServer.nodeAddr_lookupReply listed ⟨by decide, by decide⟩] at carried
  exact carried rfl

end ResolveServerConf

end Cpmd
