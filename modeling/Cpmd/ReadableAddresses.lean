import Cpmd.Address
import Cpmd.Library.LastSplit

/-! Readable addresses and the addresses that are made of them: a path that ends in
a slash is a node's, a name without a slash is a client's, and each part of a path
followed by a name is found in one of them. -/

set_option autoImplicit false

namespace Cpmd.Address

open Library

/-- The part of a path that its node address is made of. -/
def nodePart (readableAddress : List UInt8) : List UInt8 := (getNodeAddress readableAddress).1

theorem nodePart_of_node {path : List UInt8} (last : path.getLast? = some slash) :
    nodePart path = path := by
  obtain ⟨before, rfl⟩ := List.getLast?_eq_some_iff.mp last
  simp [nodePart, getNodeAddress, List.take_of_length_le]

theorem nodeAddr_create {path : List UInt8} (divided : slash ∈ path) :
    (create path).nodeAddr = hash (nodePart path) := by
  unfold create
  rw [if_neg (not_not_intro divided)]
  split
  · rename_i last
    rw [nodePart_of_node last]
  · rfl

theorem nodeAddr_create_ne_iff {path : List UInt8} :
    (create path).nodeAddr ≠ kLocalNodeAddress ↔ slash ∈ path ∧ hash (nodePart path) ≠ 0 := by
  by_cases divided : slash ∈ path
  · rw [nodeAddr_create divided]
    simp [divided, kLocalNodeAddress]
  · simp [create, divided]

/-- A readable address cut into the path of a node and the name of a client. -/
structure Splits (readableAddress : List UInt8) (parts : List UInt8 × List UInt8) : Prop where
  whole : parts.1 ++ parts.2 = readableAddress
  node : parts.1.getLast? = some slash
  filled : parts.2 ≠ []
  client : slash ∉ parts.2

variable {readableAddress path name : List UInt8}

theorem splits_getNodeAddress (divided : slash ∈ readableAddress)
    (client : readableAddress.getLast? ≠ some slash) :
    Splits readableAddress (getNodeAddress readableAddress) := by
  have cut : LastSplit.Splits slash readableAddress (getNodeAddress readableAddress) :=
    LastSplit.splits_of_mem divided
  refine ⟨cut.whole, cut.marked, fun nothing => client ?_, cut.unmarked⟩
  have whole := cut.whole
  rw [nothing, List.append_nil] at whole
  rw [← whole]
  exact cut.marked

theorem Splits.eq_getNodeAddress {parts : List UInt8 × List UInt8}
    (splits : Splits readableAddress parts) (divided : slash ∈ readableAddress) :
    parts = getNodeAddress readableAddress :=
  LastSplit.Splits.unique ⟨splits.whole, splits.node, splits.client⟩
    (LastSplit.splits_of_mem divided)

theorem slash_mem_of_node (node : path.getLast? = some slash) : slash ∈ path :=
  List.mem_of_getLast? node

theorem getNodeAddress_append (node : path.getLast? = some slash) (filled : name ≠ [])
    (client : slash ∉ name) : getNodeAddress (path ++ name) = (path, name) := by
  have splits : Splits (path ++ name) (path, name) := ⟨rfl, node, filled, client⟩
  exact (splits.eq_getNodeAddress (List.mem_append_left _ (slash_mem_of_node node))).symm

theorem create_of_node (node : path.getLast? = some slash) : create path = ⟨hash path, 0⟩ := by
  rw [create, if_neg (not_not_intro (slash_mem_of_node node)), if_pos node]

theorem create_of_client (client : slash ∉ name) :
    create name = ⟨kLocalNodeAddress, hash name⟩ := by
  rw [create, if_pos client]

/-- A path with a name behind it has the node address of the one and the client
address of the other. -/
theorem create_append (node : path.getLast? = some slash) (filled : name ≠ [])
    (client : slash ∉ name) :
    create (path ++ name) = ⟨(create path).nodeAddr, (create name).clientAddr⟩ := by
  have divided : slash ∈ path ++ name := List.mem_append_left _ (slash_mem_of_node node)
  have last : (path ++ name).getLast? ≠ some slash := by
    rw [List.getLast?_append_of_ne_nil _ filled]
    exact fun ends => client (slash_mem_of_node ends)
  rw [create, if_neg (not_not_intro divided), if_neg last, getNodeAddress_append node filled client,
    create_of_node node, create_of_client client]

end Cpmd.Address
