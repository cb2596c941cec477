import Cpmd.ReplyMemory
import Cpmd.Library.Index

/-! The two maps over the nodes of a configuration, and what an accepted file has
put into them. -/

set_option autoImplicit false

namespace Cpmd

open Library

namespace ResolveServerConf

/-- The node that is built from an entry of `nodes`. -/
def NodesChild.entry : NodesChild → Option ConfNode
  | .node (some addr) (some ip) (some port) => some ⟨addr, ⟨ip, port⟩⟩
  | .node _ _ _ | .unknown _ => none

def entries (children : List NodesChild) : List ConfNode := children.filterMap NodesChild.entry

/-- Both lookups give the node built from the entry, and the daemon that initialises
itself from its ip and port is told the address of that node. -/
def GivenBack (conf : ResolveServerConf) (entry : ConfNode) : Prop :=
  conf.getNodeInfoByNodeAddress (Address.create entry.readableAddr).nodeAddr = some entry ∧
    conf.getNodeInfoByNetAddress entry.netAddr = some entry ∧
    ∀ (server : ResolveServer) (conn timer : Nat) (connection : ServiceConnection)
      (req : ResolveRequest), server.conf = conf → connection.peerAddr.ip = entry.netAddr.ip →
      connection.context = .timerId timer → req.cpmdPort = entry.netAddr.port →
      ∃ handled reply, server.handleNodeInit conn connection req = some handled ∧
        handled.context = .nodeAddr entry.nodeAddr ∧ handled.reply = some reply ∧
        reply.code = .kOk ∧ reply.nodeAddr = entry.nodeAddr

theorem Reads.maps {conf read : ResolveServerConf} {children : List NodesChild}
    (reads : Reads read conf children) :
    read.nodes = conf.nodes.emplaceAll ConfNode.nodeAddr (entries children) ∧
      read.cacheNodes = conf.cacheNodes.emplaceAll ConfNode.netAddr (entries children) := by
  induction reads with
  | done => exact ⟨rfl, rfl⟩
  | skipped _ ih => exact ih
  | added _ _ ih => exact ih

/-- A file is accepted only if the addresses of its nodes are all different. -/
theorem Reads.distinct {conf read : ResolveServerConf} {children : List NodesChild}
    (reads : Reads read conf children) :
    ((entries children).map ConfNode.nodeAddr).Nodup ∧
      ∀ entry ∈ entries children, conf.nodes.find entry.nodeAddr = none := by
  induction reads with
  | done => exact ⟨.nil, by simp [entries]⟩
  | skipped _ ih => exact ih
  | @added conf addr ip port rest absent _ ih =>
      obtain ⟨distinct, unused⟩ := ih
      have later (entry : ConfNode) (member : entry ∈ entries rest) :
          entry.nodeAddr ≠ (ConfNode.mk addr ⟨ip, port⟩).nodeAddr ∧
            conf.nodes.find entry.nodeAddr = none := by
        have missing := unused entry member
        change (conf.nodes.emplace _ _).1.find _ = none at missing
        rw [FiniteMap.find_emplace] at missing
        split at missing
        · cases missing
        · exact ⟨‹_›, missing⟩
      refine ⟨List.nodup_cons.mpr ⟨fun member => ?_, distinct⟩, fun entry member => ?_⟩
      · obtain ⟨entry, listed, address⟩ := List.mem_map.mp member
        exact (later entry listed).1 address
      · rcases List.mem_cons.mp member with rfl | listed
        · exact absent
        · exact (later entry listed).2

theorem GivenBack.of_found {conf : ResolveServerConf} {entry : ConfNode}
    (byNode : conf.nodes.find entry.nodeAddr = some entry)
    (byNet : conf.cacheNodes.find entry.netAddr = some entry) : conf.GivenBack entry := by
  refine ⟨byNode, byNet, ?_⟩
  intro server conn timer connection req same peer held port
  have listed : server.conf.getNodeInfoByNetAddress ⟨connection.peerAddr.ip, req.cpmdPort⟩ =
      some entry := by
    rw [same, peer, port]
    exact byNet
  simp only [ResolveServer.handleNodeInit, listed, held]
  exact ⟨_, _, rfl, rfl, rfl, rfl, rfl⟩

/-- The node of each entry of an accepted file is found by its address. -/
theorem find_of_accepted {interfaces : Option (List InterfaceChild)} {children : List NodesChild}
    {interface : Interface} {conf : ResolveServerConf}
    (accepted : createFromFile (some ⟨interfaces, some children⟩) = some (interface, conf))
    {entry : ConfNode} (member : entry ∈ entries children) :
    conf.getNodeInfoByNodeAddress entry.nodeAddr = some entry := by
  obtain ⟨_, _, same, reads⟩ := createFromFile_nodes accepted
  cases same
  have addresses := reads.distinct.1
  have byNode := (FiniteMap.find_emplaceAll_iff addresses.of_map).mpr addresses entry member
  have nodes : conf.nodes = FiniteMap.emplaceAll ConfNode.nodeAddr ∅ _ := reads.maps.1
  rw [← nodes] at byNode
  exact byNode

/-- In an accepted file, each entry is given back by both maps exactly if no two
entries share an ip and a port. -/
theorem givenBack_iff {interfaces : Option (List InterfaceChild)} {children : List NodesChild}
    {interface : Interface} {conf : ResolveServerConf}
    (accepted : createFromFile (some ⟨interfaces, some children⟩) = some (interface, conf)) :
    (∀ entry ∈ entries children, conf.GivenBack entry) ↔
      ((entries children).map ConfNode.netAddr).Nodup := by
  obtain ⟨_, _, same, reads⟩ := createFromFile_nodes accepted
  cases same
  have cacheNodes : conf.cacheNodes = FiniteMap.emplaceAll ConfNode.netAddr ∅ _ := reads.maps.2
  rw [← FiniteMap.find_emplaceAll_iff reads.distinct.1.of_map, ← cacheNodes]
  constructor
  · intro given entry member
    exact (given entry member).2.1
  · intro byNet entry member
    exact .of_found (find_of_accepted accepted member) (byNet entry member)

/-- A second node at the same ip. -/
def someSecondNode : ConfNode := ⟨[47, 99, 47], ⟨Service.someTextNode.netAddr.ip, 8124⟩⟩

def somePairChildren : List NodesChild :=
  [.node (some [47, 98, 47]) (some [49, 48, 46, 48, 46, 48, 46, 55]) (some 8123),
    .node (some [47, 99, 47]) (some [49, 48, 46, 48, 46, 48, 46, 55]) (some 8124)]

def somePairConf : ResolveServerConf := Service.someTextConf.addNode someSecondNode (by decide)

/-- Their ports tell the two nodes apart. -/
theorem givenBack_iff_pair :
    createFromFile (some ⟨Service.someTextTree.interface, some somePairChildren⟩) =
        some (⟨some ⟨[49, 48, 46, 48, 46, 48, 46, 49], 9999⟩, none⟩, somePairConf) ∧
      somePairConf.GivenBack Service.someTextNode ∧ somePairConf.GivenBack someSecondNode := by
  have accepted : createFromFile
      (some ⟨Service.someTextTree.interface, some somePairChildren⟩) =
        some (⟨some ⟨[49, 48, 46, 48, 46, 48, 46, 49], 9999⟩, none⟩, somePairConf) := rfl
  have given := (givenBack_iff accepted).mpr (by decide)
  exact ⟨accepted, given Service.someTextNode (by decide), given someSecondNode (by decide)⟩

/-- A node at the ip and port of the first. -/
def someTwinNode : ConfNode := ⟨[47, 99, 47], Service.someTextNode.netAddr⟩

def someTwinChildren : List NodesChild :=
  [.node (some [47, 98, 47]) (some [49, 48, 46, 48, 46, 48, 46, 55]) (some 8123),
    .node (some [47, 99, 47]) (some [49, 48, 46, 48, 46, 48, 46, 55]) (some 8123)]

def someTwinConf : ResolveServerConf := Service.someTextConf.addNode someTwinNode (by decide)

/-- It is given back by its address alone: its daemon is told the address of the first. -/
theorem not_givenBack_twin :
    createFromFile (some ⟨Service.someTextTree.interface, some someTwinChildren⟩) =
        some (⟨some ⟨[49, 48, 46, 48, 46, 48, 46, 49], 9999⟩, none⟩, someTwinConf) ∧
      someTwinNode ∈ entries someTwinChildren ∧ ¬ someTwinConf.GivenBack someTwinNode := by
  refine ⟨rfl, by decide, fun given => ?_⟩
  have found : someTwinConf.getNodeInfoByNetAddress someTwinNode.netAddr =
      some Service.someTextNode := rfl
  have other := given.2.1
  rw [found] at other
  exact absurd other (by decide)

end ResolveServerConf

end Cpmd
