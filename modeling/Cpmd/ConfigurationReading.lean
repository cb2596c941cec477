import Cpmd.ConfigurationIndexes

/-! Which configuration files are accepted, and what is made of each: the readers of
`interface` and `nodes` against a description of the two lists. -/

set_option autoImplicit false

namespace Cpmd

open Library

namespace ResolveServerConf

/-- The address of a server of one type. -/
def InterfaceChild.address (type : InterfaceType) : InterfaceChild → Option NetAddress
  | .server (some found) (some ip) (some port) => if found = type then some ⟨ip, port⟩ else none
  | .server _ _ _ | .unknown _ => none

def addresses (type : InterfaceType) (children : List InterfaceChild) : List NetAddress :=
  children.filterMap (InterfaceChild.address type)

/-- A server has a type, and an ip and a port if the type is one of the two in use. -/
def InterfaceChild.Complete : InterfaceChild → Prop
  | .unknown _ | .server (some (.unknown _)) _ _ => True
  | .server none _ _ => False
  | .server (some .tcp) ip port | .server (some .http) ip port =>
      ip.isSome = true ∧ port.isSome = true

def NodesChild.Complete : NodesChild → Prop
  | .unknown _ => True
  | .node addr ip port => addr.isSome = true ∧ ip.isSome = true ∧ port.isSome = true

/-- A file that lists one address to serve on, at most one for the monitor, and nodes
that all have different addresses, as what is read from it has them. -/
structure Describes (interfaces : List InterfaceChild) (children : List NodesChild)
    (interface : Interface) (conf : ResolveServerConf) : Prop where
  interfaceComplete : ∀ child ∈ interfaces, InterfaceChild.Complete child
  nodesComplete : ∀ child ∈ children, NodesChild.Complete child
  service : ∃ addr, addresses .tcp interfaces = [addr] ∧ interface.serviceAddress = some addr
  monitor : addresses .http interfaces = interface.monitorAddress.toList
  distinct : ((entries children).map ConfNode.nodeAddr).Nodup
  byNode : conf.nodes = FiniteMap.emplaceAll ConfNode.nodeAddr ∅ (entries children)
  byNet : conf.cacheNodes = FiniteMap.emplaceAll ConfNode.netAddr ∅ (entries children)

theorem addresses_cons (type : InterfaceType) (child : InterfaceChild)
    (rest : List InterfaceChild) :
    addresses type (child :: rest) =
      (InterfaceChild.address type child).toList ++ addresses type rest := by
  rw [addresses, List.filterMap_cons]
  cases InterfaceChild.address type child <;> rfl

theorem twice_ne_toList (first second : NetAddress) (rest : List NetAddress)
    (once : Option NetAddress) : first :: second :: rest ≠ once.toList := by
  cases once <;> simp

theorem read_eq_some_iff {children : List InterfaceChild} {interface result : Interface} :
    interface.read children = some result ↔
      (∀ child ∈ children, InterfaceChild.Complete child) ∧
        interface.serviceAddress.toList ++ addresses .tcp children =
          result.serviceAddress.toList ∧
        interface.monitorAddress.toList ++ addresses .http children =
          result.monitorAddress.toList := by
  induction children generalizing interface with
  | nil =>
      obtain ⟨service, monitor⟩ := interface
      obtain ⟨service', monitor'⟩ := result
      cases service <;> cases monitor <;> cases service' <;> cases monitor' <;>
        simp [Interface.read, addresses]
  | cons child rest ih =>
      simp only [addresses_cons, List.forall_mem_cons]
      cases child with
      | unknown name =>
          simpa [Interface.read, InterfaceChild.Complete, InterfaceChild.address] using ih
      | server type ip port =>
          cases type with
          | none => simp [Interface.read, InterfaceChild.Complete]
          | some type =>
              cases type with
              | unknown type =>
                  have other (known : InterfaceType) (different : known ≠ .unknown type) :
                      (InterfaceChild.address known
                        (.server (some (.unknown type)) ip port)).toList = [] := by
                    cases ip <;> cases port <;>
                      simp [InterfaceChild.address, Ne.symm different]
                  rw [other .tcp nofun, other .http nofun]
                  simpa [Interface.read, InterfaceChild.Complete] using ih
              | tcp =>
                  obtain ⟨service, monitor⟩ := interface
                  cases ip <;> cases port <;> cases service <;>
                    simp [Interface.read, InterfaceChild.Complete, InterfaceChild.address, ih,
                      twice_ne_toList]
              | http =>
                  obtain ⟨service, monitor⟩ := interface
                  cases ip <;> cases port <;> cases monitor <;>
                    simp [Interface.read, InterfaceChild.Complete, InterfaceChild.address, ih,
                      twice_ne_toList]

theorem find_addNode_eq_none {conf : ResolveServerConf} {node : ConfNode}
    (absent : conf.nodes.find node.nodeAddr = none) (nodeAddr : UInt32) :
    (conf.addNode node absent).nodes.find nodeAddr = none ↔
      nodeAddr ≠ node.nodeAddr ∧ conf.nodes.find nodeAddr = none := by
  change (conf.nodes.emplace node.nodeAddr node).1.find nodeAddr = none ↔ _
  rw [FiniteMap.find_emplace]
  by_cases own : nodeAddr = node.nodeAddr <;> simp [own]

theorem eq_iff_maps {conf other : ResolveServerConf} :
    conf = other ↔ other.nodes = conf.nodes ∧ other.cacheNodes = conf.cacheNodes := by
  obtain ⟨nodes, cacheNodes, keyed, pointed⟩ := conf
  obtain ⟨nodes', cacheNodes', keyed', pointed'⟩ := other
  simp [eq_comm]

/-- What `readNodes` is to make of the children. -/
def ReadsAll (conf : ResolveServerConf) (children : List NodesChild)
    (result : ResolveServerConf) : Prop :=
  (∀ child ∈ children, NodesChild.Complete child) ∧
    ((entries children).map ConfNode.nodeAddr).Nodup ∧
    (∀ entry ∈ entries children, conf.nodes.find entry.nodeAddr = none) ∧
    result.nodes = conf.nodes.emplaceAll ConfNode.nodeAddr (entries children) ∧
    result.cacheNodes = conf.cacheNodes.emplaceAll ConfNode.netAddr (entries children)

/-- A node goes in if its address is new, and the rest of the loop goes on from there. -/
theorem readNodes_node_iff {rest : List NodesChild} {result : ResolveServerConf}
    (ih : ∀ {conf : ResolveServerConf},
      conf.readNodes rest = some result ↔ ReadsAll conf rest result)
    {conf : ResolveServerConf} {addr ip : List UInt8} {port : Int32} :
    conf.readNodes (.node (some addr) (some ip) (some port) :: rest) = some result ↔
      ReadsAll conf (.node (some addr) (some ip) (some port) :: rest) result := by
  have first : entries (.node (some addr) (some ip) (some port) :: rest) =
      ⟨addr, ⟨ip, port⟩⟩ :: entries rest := rfl
  rw [ReadsAll, first, List.forall_mem_cons, List.forall_mem_cons, List.map_cons,
    List.nodup_cons, readNodes]
  split
  · rename_i found
    simp [found]
  · rename_i absent
    rw [ih, ReadsAll]
    simp only [find_addNode_eq_none]
    constructor
    · intro read
      obtain ⟨complete, distinct, unused, maps⟩ := read
      refine ⟨⟨⟨rfl, rfl, rfl⟩, complete⟩, ⟨fun taken => ?_, distinct⟩,
        ⟨absent, fun entry member => (unused entry member).2⟩, maps⟩
      obtain ⟨entry, member, same⟩ := List.mem_map.mp taken
      exact (unused entry member).1 same
    · intro described
      obtain ⟨⟨_, complete⟩, ⟨apart, distinct⟩, ⟨_, unused⟩, maps⟩ := described
      refine ⟨complete, distinct, fun entry member => ⟨fun same => apart ?_,
        unused entry member⟩, maps⟩
      exact List.mem_map.mpr ⟨entry, member, same⟩

theorem readNodes_eq_some_iff {children : List NodesChild} {conf result : ResolveServerConf} :
    conf.readNodes children = some result ↔ ReadsAll conf children result := by
  induction children generalizing conf with
  | nil => simpa [readNodes, ReadsAll, entries] using eq_iff_maps
  | cons child rest ih =>
      cases child with
      | unknown name =>
          have skipped : entries (.unknown name :: rest) = entries rest := rfl
          rw [ReadsAll, skipped]
          simpa [readNodes, ReadsAll, NodesChild.Complete] using ih
      | node addr ip port =>
          cases addr with
          | none => simp [readNodes, ReadsAll, NodesChild.Complete]
          | some addr =>
              cases ip with
              | none => simp [readNodes, ReadsAll, NodesChild.Complete]
              | some ip =>
                  cases port with
                  | none => simp [readNodes, ReadsAll, NodesChild.Complete]
                  | some port => exact readNodes_node_iff ih

/-- A file is accepted exactly if it is as described, and then read as described. -/
theorem createFromFile_eq_some_iff {tree : Option PropertyTree} {interface : Interface}
    {conf : ResolveServerConf} :
    createFromFile tree = some (interface, conf) ↔
      ∃ interfaces children, tree = some ⟨some interfaces, some children⟩ ∧
        Describes interfaces children interface conf := by
  constructor
  · intro accepted
    unfold createFromFile at accepted
    split at accepted
    · rename_i interfaces nodes
      split at accepted
      · rename_i found read
        split at accepted
        · rename_i service children served
          obtain ⟨listed, readAll, same⟩ := Option.map_eq_some_iff.mp accepted
          obtain ⟨rfl, rfl⟩ := Prod.mk.inj same
          obtain ⟨complete, tcp, http⟩ := read_eq_some_iff.mp read
          obtain ⟨nodesComplete, distinct, _, byNode, byNet⟩ := readNodes_eq_some_iff.mp readAll
          rw [served] at tcp
          exact ⟨interfaces, children, rfl, complete, nodesComplete, ⟨service, tcp, served⟩, http,
            distinct, byNode, byNet⟩
        · cases accepted
      · cases accepted
    · cases accepted
  · intro described
    obtain ⟨interfaces, children, rfl, describes⟩ := described
    obtain ⟨service, tcp, served⟩ := describes.service
    have read : Interface.read ⟨none, none⟩ interfaces = some interface := by
      refine read_eq_some_iff.mpr ⟨describes.interfaceComplete, ?_, describes.monitor⟩
      rw [served]
      exact tcp
    have readAll : readNodes empty children = some conf :=
      readNodes_eq_some_iff.mpr ⟨describes.nodesComplete, describes.distinct,
        fun entry _ => absent_empty entry, describes.byNode, describes.byNet⟩
    simp only [createFromFile, read, served, readAll, Option.map_some]

end ResolveServerConf

end Cpmd
