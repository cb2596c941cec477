import Cpmd.AddressHash
import Cpmd.Daemon

/-! The node address 0, which stands for clients of the daemon's own node, and the
paths whose hash it is as well. -/

set_option autoImplicit false

namespace Cpmd.Address

/-- The readable address has the reserved node address exactly if it names a local
client. -/
def Reserved (readableAddress : List UInt8) : Prop :=
  (create readableAddress).nodeAddr = kLocalNodeAddress ↔ slash ∉ readableAddress

/-- No daemon of another node takes a message to a path for one to a local client:
it is left to `HandleToRemoteMessage`. -/
def RoutedByNode (readableAddress : List UInt8) : Prop :=
  ∀ (server : Server) (network : Network) (writes : Nat → Bool) (client : UInt32) (m : Message),
    m.remoteAddress = create readableAddress → slash ∈ readableAddress →
    (create readableAddress).nodeAddr ≠ server.selfAddress →
    server.isLocal (server.stamp client m).remoteAddress = false ∧
      server.handleBusMessage network writes client m =
        ((server.handleToRemoteMessage network writes (server.stamp client m)).1,
          (server.handleToRemoteMessage network writes (server.stamp client m)).2.2)

/-- The last word of the part that is hashed for the node address is the one which
the blocks before it and their number call for. -/
def HashedToZero (readableAddress : List UInt8) : Prop :=
  let bytes := key (nodePart readableAddress)
  lastWord bytes = zeroWord (front bytes) bytes.length

theorem nodeAddr_create_eq_zero_iff {readableAddress : List UInt8}
    (divided : slash ∈ readableAddress) :
    (create readableAddress).nodeAddr = kLocalNodeAddress ↔ HashedToZero readableAddress := by
  rw [nodeAddr_create divided]
  exact hash_eq_zero_iff _

theorem reserved_iff (readableAddress : List UInt8) :
    Reserved readableAddress ↔ (slash ∈ readableAddress → ¬ HashedToZero readableAddress) := by
  by_cases divided : slash ∈ readableAddress
  · simp only [Reserved, nodeAddr_create_eq_zero_iff divided, divided, not_true_eq_false,
      iff_false, forall_const]
  · simp [Reserved, create_of_client divided, divided]

theorem routed_of_ne {readableAddress : List UInt8}
    (foreign : (create readableAddress).nodeAddr ≠ kLocalNodeAddress) :
    RoutedByNode readableAddress := by
  intro server network writes client m addressed _ other
  have remote : server.isLocal (server.stamp client m).remoteAddress = false := by
    change server.isLocal m.remoteAddress = false
    rw [addressed]
    exact Bool.or_eq_false_iff.mpr ⟨beq_eq_false_iff_ne.mpr other, beq_eq_false_iff_ne.mpr foreign⟩
  refine ⟨remote, ?_⟩
  simp only [Server.handleBusMessage, remote, Bool.false_eq_true, if_false]

/-- The reserved address is kept apart from a path's, and its messages are routed to
its node, exactly where the path's last word is not the one hashed to 0. -/
theorem reserved_and_routed_iff (readableAddress : List UInt8) :
    (Reserved readableAddress ∧ RoutedByNode readableAddress) ↔
      (slash ∈ readableAddress → ¬ HashedToZero readableAddress) := by
  constructor
  · intro both
    exact (reserved_iff readableAddress).mp both.1
  · intro apart
    refine ⟨(reserved_iff readableAddress).mpr apart, ?_⟩
    by_cases divided : slash ∈ readableAddress
    · refine routed_of_ne fun zero => apart divided ?_
      exact (nodeAddr_create_eq_zero_iff divided).mp zero
    · exact fun _ _ _ _ _ _ path => absurd path divided

/-- The path `/if012m/x`. -/
def someZeroPath : List UInt8 := [47, 105, 102, 48, 49, 50, 109, 47, 120]

/-- The daemon of the node `/b/`. -/
def someOwnServer : Server :=
  { Server.create 8123 Daemon.someResolveServer with selfAddress := (create [47, 98, 47]).nodeAddr }

/-- It is the path of a client of another node, and its messages stay here. -/
theorem not_reserved_zeroPath :
    someZeroPath ≠ [] ∧ ¬ Reserved someZeroPath ∧ ¬ RoutedByNode someZeroPath := by
  have divided : slash ∈ someZeroPath := by decide
  have zero : (create someZeroPath).nodeAddr = kLocalNodeAddress := by decide
  refine ⟨by decide, fun reserved => reserved.mp zero divided, fun routed => ?_⟩
  have foreign : (create someZeroPath).nodeAddr ≠ someOwnServer.selfAddress := by decide
  have remote := (routed someOwnServer ⟨∅, 0, [], []⟩ (fun _ => true) 7
    (Daemon.someMessage.setRemoteAddress (create someZeroPath)) rfl divided foreign).1
  exact absurd remote (by decide)

end Cpmd.Address
