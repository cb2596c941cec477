import Cpmd.ResolveServer

/-! `ResolveServerConf::CreateFromFile`, from the property tree that the XML reader
makes of the file. A result `none` is a null pointer, whether it is returned or an
exception of the property tree is caught. -/

set_option autoImplicit false

namespace Cpmd

open Library

inductive InterfaceType where
  | tcp
  | http
  | unknown (type : String)
deriving DecidableEq

/-- A child of `interface`. An attribute that is missing, or that is no number
where one is asked for, makes `get` throw. -/
inductive InterfaceChild where
  | server (type : Option InterfaceType) (ip : Option (List UInt8)) (port : Option Int32)
  | unknown (name : String)

/-- A child of `nodes`. -/
inductive NodesChild where
  | node (addr ip : Option (List UInt8)) (port : Option Int32)
  | unknown (name : String)

structure PropertyTree where
  interface : Option (List InterfaceChild)
  nodes : Option (List NodesChild)

namespace ResolveServerConf

/-- `service_address_` and `monitor_address_`. -/
structure Interface where
  serviceAddress : Option NetAddress
  monitorAddress : Option NetAddress

/-- The loop over the children of `interface`. -/
def Interface.read (interface : Interface) : List InterfaceChild → Option Interface
  | [] => some interface
  | .unknown _ :: rest => interface.read rest
  | .server none _ _ :: _ => none
  | .server (some .tcp) ip port :: rest =>
      match interface.serviceAddress, ip, port with
      | none, some ip, some port =>
          Interface.read { interface with serviceAddress := some ⟨ip, port⟩ } rest
      | _, _, _ => none
  | .server (some .http) ip port :: rest =>
      match interface.monitorAddress, ip, port with
      | none, some ip, some port =>
          Interface.read { interface with monitorAddress := some ⟨ip, port⟩ } rest
      | _, _, _ => none
  | .server (some (.unknown _)) _ _ :: rest => interface.read rest

def empty : ResolveServerConf where
  nodes := ∅
  cacheNodes := ∅
  keyed := by
    intro nodeAddr node found
    rw [FiniteMap.find_empty] at found
    cases found
  pointed := by
    intro netAddr node found
    rw [FiniteMap.find_empty] at found
    cases found

theorem absent_empty (node : ConfNode) : empty.nodes.find node.nodeAddr = none :=
  FiniteMap.find_empty node.nodeAddr

/-- Both `emplace` calls. The second keeps an entry that is there already. -/
def addNode (conf : ResolveServerConf) (node : ConfNode)
    (absent : conf.nodes.find node.nodeAddr = none) : ResolveServerConf where
  nodes := (conf.nodes.emplace node.nodeAddr node).1
  cacheNodes := (conf.cacheNodes.emplace node.netAddr node).1
  keyed := by
    intro nodeAddr other found
    rw [FiniteMap.find_emplace, absent] at found
    split at found
    · rename_i same
      cases found
      exact same.symm
    · exact conf.keyed found
  pointed := by
    intro netAddr other found
    have own : (conf.nodes.emplace node.nodeAddr node).1.find node.nodeAddr = some node := by
      rw [FiniteMap.find_emplace, if_pos rfl, absent]
      rfl
    have older {netAddr : NetAddress} {other : ConfNode}
        (found : conf.cacheNodes.find netAddr = some other) :
        (conf.nodes.emplace node.nodeAddr node).1.find other.nodeAddr = some other := by
      have listed := conf.pointed found
      rw [FiniteMap.find_emplace, if_neg]
      · exact listed
      · intro same
        rw [same, absent] at listed
        cases listed
    rw [FiniteMap.find_emplace] at found
    split at found
    · cases held : conf.cacheNodes.find node.netAddr with
      | none =>
          rw [held] at found
          cases found
          exact own
      | some earlier =>
          rw [held] at found
          cases found
          exact older held
    · exact older found

/-- The loop over the children of `nodes`. -/
def readNodes (conf : ResolveServerConf) : List NodesChild → Option ResolveServerConf
  | [] => some conf
  | .unknown _ :: rest => conf.readNodes rest
  | .node (some addr) (some ip) (some port) :: rest =>
      match absent : conf.nodes.find (ConfNode.mk addr ⟨ip, port⟩).nodeAddr with
      | some _ => none
      | none => (conf.addNode ⟨addr, ⟨ip, port⟩⟩ absent).readNodes rest
  | .node _ _ _ :: _ => none

/-- `tree` is absent where the file could not be read. -/
def createFromFile (tree : Option PropertyTree) : Option (Interface × ResolveServerConf) :=
  match tree with
  | some ⟨some interface, nodes⟩ =>
      match Interface.read ⟨none, none⟩ interface with
      | some interface =>
          match interface.serviceAddress, nodes with
          | some _, some nodes => (empty.readNodes nodes).map (interface, ·)
          | _, _ => none
      | none => none
  | _ => none

/-- A pointer is stored under the net address of the node it points to. -/
def Indexed (conf : ResolveServerConf) : Prop :=
  ∀ netAddr node, conf.cacheNodes.find netAddr = some node → node.netAddr = netAddr

theorem indexed_addNode {conf : ResolveServerConf} (indexed : conf.Indexed) (node : ConfNode)
    (absent : conf.nodes.find node.nodeAddr = none) : (conf.addNode node absent).Indexed := by
  intro netAddr other found
  change (conf.cacheNodes.emplace node.netAddr node).1.find netAddr = some other at found
  rw [FiniteMap.find_emplace] at found
  split at found
  · rename_i same
    subst same
    cases held : conf.cacheNodes.find node.netAddr with
    | none =>
        rw [held] at found
        cases found
        rfl
    | some earlier =>
        rw [held] at found
        cases found
        exact indexed _ _ held
  · exact indexed _ _ found

/-- The loop over the children of `nodes`, child by child, where it makes `read` in the
end. -/
inductive Reads (read : ResolveServerConf) : ResolveServerConf → List NodesChild → Prop where
  | done : Reads read read []
  | skipped {conf : ResolveServerConf} {name : String} {rest : List NodesChild} :
      Reads read conf rest → Reads read conf (.unknown name :: rest)
  | added {conf : ResolveServerConf} {addr ip : List UInt8} {port : Int32}
      {rest : List NodesChild}
      (absent : conf.nodes.find (ConfNode.mk addr ⟨ip, port⟩).nodeAddr = none) :
      Reads read (conf.addNode ⟨addr, ⟨ip, port⟩⟩ absent) rest →
      Reads read conf (.node (some addr) (some ip) (some port) :: rest)

theorem reads_of_readNodes {conf read : ResolveServerConf} {children : List NodesChild}
    (accepted : conf.readNodes children = some read) : Reads read conf children := by
  induction children generalizing conf with
  | nil =>
      cases accepted
      exact .done
  | cons child rest ih =>
      unfold readNodes at accepted
      split at accepted
      · rename_i same
        cases same
      · rename_i same
        cases same
        exact .skipped (ih accepted)
      · rename_i same
        cases same
        split at accepted
        · cases accepted
        · exact .added _ (ih accepted)
      · cases accepted

theorem Reads.indexed {conf read : ResolveServerConf} {children : List NodesChild}
    (reads : Reads read conf children) (indexed : conf.Indexed) : read.Indexed := by
  induction reads with
  | done => exact indexed
  | skipped _ ih => exact ih indexed
  | added absent _ ih => exact ih (indexed_addNode indexed _ absent)

theorem createFromFile_nodes {tree : Option PropertyTree} {interface : Interface}
    {conf : ResolveServerConf} (accepted : createFromFile tree = some (interface, conf)) :
    ∃ interfaces children, tree = some ⟨some interfaces, some children⟩ ∧
      Reads conf empty children := by
  unfold createFromFile at accepted
  split at accepted
  · split at accepted
    · split at accepted
      · obtain ⟨read, nodes, same⟩ := Option.map_eq_some_iff.mp accepted
        cases same
        exact ⟨_, _, rfl, reads_of_readNodes nodes⟩
      · cases accepted
    · cases accepted
  · cases accepted

theorem indexed_createFromFile {tree : Option PropertyTree} {interface : Interface}
    {conf : ResolveServerConf} (accepted : createFromFile tree = some (interface, conf)) :
    conf.Indexed := by
  obtain ⟨_, children, _, reads⟩ := createFromFile_nodes accepted
  refine reads.indexed ?_
  intro netAddr node found
  cases found

end ResolveServerConf

end Cpmd
