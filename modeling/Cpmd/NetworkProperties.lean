import Cpmd.Network

/-! Which connections lead to which address, as attempts are answered and
connections close. -/

set_option autoImplicit false

namespace Cpmd.Network

open Library

/-- A connection, open or closed, that was made to an address. -/
def Reaches (network : Network) (conn : ConnId) (addr : NetAddress) : Prop :=
  ∃ connection, network.conns.find conn = some connection ∧ connection.peerAddr = addr

@[simp] theorem reaches_close (network : Network) (closing conn : ConnId) (addr : NetAddress) :
    (network.close closing).Reaches conn addr ↔ network.Reaches conn addr := by
  unfold close Reaches
  cases found : network.conns.find closing with
  | none => rfl
  | some connection =>
      dsimp only
      rw [FiniteMap.find_assign]
      by_cases same : conn = closing
      · subst same
        simp [found]
      · rw [if_neg same]

@[simp] theorem reaches_release (network : Network) (gone conn : ConnId) (addr : NetAddress) :
    (network.release gone).Reaches conn addr ↔ conn ≠ gone ∧ network.Reaches conn addr := by
  unfold release Reaches
  simp only [FiniteMap.find_remove]
  by_cases same : conn = gone <;> simp [same]

theorem reaches_accept {network : Network}
    (fresh : ∀ conn addr, network.Reaches conn addr → conn < network.nextId)
    (conn : ConnId) (addr other : NetAddress) :
    (network.accept addr).Reaches conn other ↔
      (conn = network.nextId ∧ addr = other) ∨ network.Reaches conn other := by
  by_cases same : conn = network.nextId
  · subst same
    have unused : ¬ network.Reaches network.nextId other := fun reaches =>
      Nat.lt_irrefl _ (fresh _ _ reaches)
    simp only [unused, or_false, true_and]
    simp [accept, Reaches]
  · simp [accept, Reaches, same]

theorem reaches_release_of_ne {network : Network} {gone : ConnId} {connection : TcpConnection}
    {addr : NetAddress} (found : network.conns.find gone = some connection)
    (elsewhere : addr ≠ connection.peerAddr) (conn : ConnId) :
    (network.release gone).Reaches conn addr ↔ network.Reaches conn addr := by
  rw [reaches_release]
  refine ⟨fun held => held.2, fun held => ⟨?_, held⟩⟩
  intro equal
  subst equal
  obtain ⟨connection', found', peer⟩ := held
  rw [found] at found'
  cases found'
  exact elsewhere peer.symm

theorem reaches_accept_of_ne {network : Network}
    (fresh : ∀ conn addr, network.Reaches conn addr → conn < network.nextId)
    {addr other : NetAddress} (elsewhere : other ≠ addr) (conn : ConnId) :
    (network.accept addr).Reaches conn other ↔ network.Reaches conn other := by
  rw [reaches_accept fresh]
  simp [Ne.symm elsewhere]

theorem fresh_accept {network : Network}
    (fresh : ∀ conn addr, network.Reaches conn addr → conn < network.nextId)
    (addr : NetAddress) (conn : ConnId) (other : NetAddress)
    (reached : (network.accept addr).Reaches conn other) :
    conn < (network.accept addr).nextId := by
  rcases (reaches_accept fresh conn addr other).mp reached with ⟨rfl, _⟩ | old
  · exact Nat.lt_succ_self _
  · exact Nat.lt_succ_of_lt (fresh conn other old)

theorem nextId_close (network : Network) (closing : ConnId) :
    (network.close closing).nextId = network.nextId := by
  unfold close
  cases network.conns.find closing <;> rfl

theorem attempts_close (network : Network) (closing : ConnId) :
    (network.close closing).attempts = network.attempts := by
  unfold close
  cases network.conns.find closing <;> rfl

theorem retries_close (network : Network) (closing : ConnId) :
    (network.close closing).retries = network.retries := by
  unfold close
  cases network.conns.find closing <;> rfl

end Cpmd.Network
