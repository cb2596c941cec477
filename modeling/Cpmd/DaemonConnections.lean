import Cpmd.DaemonProperties
import Cpmd.NetworkProperties

/-! The identities of a daemon's connections: they are never used again, and nothing is
written on one before it is made. -/

set_option autoImplicit false

namespace Cpmd

open Library

/-- A message that is written on a connection to a remote node. -/
def Effect.written : Effect → Option (ConnId × Message)
  | .wrote _ conn m => some (conn, m)
  | .connectTo _ | .registered _ _ | .requested _ _ | .close _ | .connectLater _ => none

theorem Effect.written_eq_some {effect : Effect} {conn : ConnId} {m : Message} :
    effect.written = some (conn, m) ↔ ∃ node, effect = .wrote node conn m := by
  cases effect <;> simp [written]

namespace Network

def Fresh (network : Network) : Prop :=
  ∀ conn addr, network.Reaches conn addr → conn < network.nextId

@[simp] theorem reaches_carryOut (network : Network) (effect : Effect) (conn : ConnId)
    (addr : NetAddress) :
    (network.carryOut effect).Reaches conn addr ↔ network.Reaches conn addr := by
  cases effect with
  | close closing => exact reaches_close network closing conn addr
  | _ => rfl

@[simp] theorem nextId_carryOut (network : Network) (effect : Effect) :
    (network.carryOut effect).nextId = network.nextId := by
  cases effect with
  | close closing => exact nextId_close network closing
  | _ => rfl

@[simp] theorem reaches_carryOutAll (network : Network) (effects : List Effect) (conn : ConnId)
    (addr : NetAddress) :
    (network.carryOutAll effects).Reaches conn addr ↔ network.Reaches conn addr := by
  induction effects generalizing network with
  | nil => rfl
  | cons effect effects ih => exact (ih (network.carryOut effect)).trans (by simp)

@[simp] theorem nextId_carryOutAll (network : Network) (effects : List Effect) :
    (network.carryOutAll effects).nextId = network.nextId := by
  induction effects generalizing network with
  | nil => rfl
  | cons effect effects ih => exact (ih (network.carryOut effect)).trans (by simp)

theorem Fresh.lt_of_isOpen {network : Network} (fresh : network.Fresh) {conn : ConnId}
    (opened : network.isOpen conn = true) : conn < network.nextId := by
  unfold isOpen at opened
  cases found : network.conns.find conn with
  | none => simp [found] at opened
  | some connection => exact fresh conn connection.peerAddr ⟨connection, found, rfl⟩

end Network

namespace Daemon

theorem fresh_receive {network : Network} (fresh : network.Fresh) (event : Event) :
    (receive network event).Fresh ∧ network.nextId ≤ (receive network event).nextId := by
  cases event with
  | connected addr writes => exact ⟨Network.fresh_accept fresh addr, Nat.le_succ _⟩
  | foundClosed conn =>
      refine ⟨fun other addr reached => ?_, Nat.le_of_eq (Network.nextId_close network conn).symm⟩
      rw [receive, Network.nextId_close]
      exact fresh other addr ((Network.reaches_close network conn other addr).mp reached)
  | disconnected conn =>
      refine ⟨fun other addr reached => ?_, Nat.le_refl _⟩
      exact fresh other addr ((Network.reaches_release network conn other addr).mp reached).2
  | busMessage | resolveServerMessage | connectError | retry => exact ⟨fresh, Nat.le_refl _⟩

/-- A step leaves all connections with identities below the next one, which it does not
lower, and writes on connections that are there afterwards. -/
theorem fresh_step {before after : State} {event : Event} {outputs : List Effect}
    (fresh : before.network.Fresh) (stepped : step before event = some (after, outputs)) :
    after.network.Fresh ∧ before.network.nextId ≤ after.network.nextId ∧
      ∀ entry ∈ outputs.filterMap Effect.written, entry.1 < after.network.nextId := by
  have network := step_network stepped
  obtain ⟨kept, later⟩ := fresh_receive fresh event
  have known : after.network.nextId = (receive before.network event).nextId := by
    rw [network, Network.nextId_carryOutAll]
  refine ⟨fun conn addr reached => ?_, known ▸ later, fun entry member => ?_⟩
  · rw [known]
    rw [network, Network.reaches_carryOutAll] at reached
    exact kept conn addr reached
  · obtain ⟨conn, m⟩ := entry
    obtain ⟨effect, did, wrote⟩ := List.mem_filterMap.mp member
    obtain ⟨node, rfl⟩ := Effect.written_eq_some.mp wrote
    cases step_transition stepped with
    | @toRemote _ _ _ _ _ _ _ handles =>
        rw [known]
        cases handles with
        | wrote _ _ _ opened _ =>
            cases List.mem_singleton.mp did
            exact fresh.lt_of_isOpen opened
        | cached _ => cases did
        | requested _ _ requested =>
            rcases requested with rfl | ⟨_, _, _, _, rfl⟩
            · cases did
            · cases List.mem_singleton.mp did
        | connects known _ _ _ => simp [Server.registerNode] at did
    | @nodeConnected addr writes bound _ _ _ _ =>
        obtain ⟨sent, effects, _⟩ := bound.setConnection_spec before.network.nextId writes
        rw [effects] at did
        obtain ⟨_, _, same⟩ := List.mem_map.mp did
        cases same
        exact Nat.lt_succ_self _
    | @resolveServerConnected _ requests _ requested =>
        rcases requested with rfl | rfl
        · cases did
        · cases List.mem_singleton.mp did
    | _ => simp [Server.registerNode] at did

theorem fresh_initial (messageServerPort : Int32) (resolveServerAddress : NetAddress) :
    (State.initial messageServerPort resolveServerAddress).network.Fresh := by
  intro conn addr reached
  obtain ⟨connection, found, _⟩ := reached
  simp [State.initial] at found

theorem fresh_run {guard : State → Event → Prop} {start state : State}
    {history : List (EventMachine.Taken State Event Effect)}
    (run : machine.Run guard start history state) (fresh : start.network.Fresh) :
    state.network.Fresh ∧ start.network.nextId ≤ state.network.nextId ∧
      ∀ entry ∈ (EventMachine.outputs history).filterMap Effect.written,
        entry.1 < state.network.nextId := by
  induction run with
  | nil => exact ⟨fresh, Nat.le_refl _, by simp⟩
  | snoc _ _ stepped ih =>
      obtain ⟨kept, later, below⟩ := ih
      obtain ⟨next, more, written⟩ := fresh_step kept stepped
      refine ⟨next, Nat.le_trans later more, fun entry member => ?_⟩
      rw [EventMachine.outputs_snoc, List.filterMap_append] at member
      rcases List.mem_append.mp member with old | new
      · exact Nat.lt_of_lt_of_le (below entry old) more
      · exact written entry new

end Daemon

end Cpmd
