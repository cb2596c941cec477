import Cpmd.ConnectAttempts
import Mathlib.Logic.Equiv.Basic

/-! The index of nodes by their net addresses while the resolve server gives nodes new
addresses. Entries are found by the address of the connection and removed by that of
the node, which a response changes without looking at the index. -/

set_option autoImplicit false

namespace Cpmd

open Library

/-- The node without its address, as before it was resolved. -/
def Node.forgetAddress (node : Node) : Node :=
  { node with
    netAddress := none
    resolveState := .kNotResolved
    addressed := fun resolved => ResolveState.noConfusion resolved }

namespace Daemon

/-- Nodes that a response gives an address to: it is no other node's address. -/
def Distinct (state : State) : Event → Prop
  | .resolveServerMessage _ (.kResolveResponse resp) =>
      GivesAddress state resp → ∀ node ∈ state.server.nodes.values,
        node.netAddress = some ⟨resp.nodeIp, resp.nodePort⟩ → node.nodeAddress = resp.nodeAddr
  | .resolveServerMessage _ (.other _) | .busMessage _ _ _ | .connected _ _ | .connectError _
  | .foundClosed _ | .disconnected _ | .retry _ => True

/-- No response gives another address to a node that is in the index. -/
def KeepsIndexed (state : State) : Event → Prop
  | .resolveServerMessage _ (.kResolveResponse resp) =>
      GivesAddress state resp → ∀ node ∈ state.server.nodes.find resp.nodeAddr,
        ∀ addr ∈ node.netAddress, state.server.nodesIndex.find addr = some resp.nodeAddr →
          addr = ⟨resp.nodeIp, resp.nodePort⟩
  | .resolveServerMessage _ (.other _) | .busMessage _ _ _ | .connected _ _ | .connectError _
  | .foundClosed _ | .disconnected _ | .retry _ => True

/-- The address whose attempt failed, or whose connection ended. -/
def ended (state : State) : Event → Option NetAddress
  | .connectError addr => some addr
  | .disconnected conn => (state.network.conns.find conn).map TcpConnection.peerAddr
  | .busMessage _ _ _ | .resolveServerMessage _ _ | .connected _ _ | .foundClosed _
  | .retry _ => none

/-- Entries lead to the nodes that have their address, the callbacks of attempts and
connections find their node and its entry, and exactly the entry of what ended is
removed. -/
structure IndexConsistent (state : State) : Prop where
  entries : ∀ addr nodeAddress, state.server.nodesIndex.find addr = some nodeAddress →
    ∃ node, state.server.nodes.find nodeAddress = some node ∧ node.netAddress = some addr
  connected : ∀ addr writes, addr ∈ state.network.attempts →
    (step state (.connected addr writes)).isSome = true
  connectError : ∀ addr, addr ∈ state.network.attempts →
    (step state (.connectError addr)).isSome = true
  disconnected : ∀ conn connection, state.network.conns.find conn = some connection →
    connection.closed = true → (step state (.disconnected conn)).isSome = true
  removes : ∀ event after outputs addr, ended state event = some addr →
    addr ≠ state.server.resolveServerAddress → step state event = some (after, outputs) →
    ∀ other, after.server.nodesIndex.find other =
      if other = addr then none else state.server.nodesIndex.find other

variable {book : UInt32 → NetAddress}

/-- A node that is in no entry can be given any address that no other node has. -/
theorem Linked.rebook {state : State} (linked : Linked book state) (nodeAddress : UInt32)
    (addr : NetAddress)
    (others : ∀ other node, state.server.nodes.find other = some node → other ≠ nodeAddress →
      node.netAddress ≠ some addr)
    (own : ∀ node, state.server.nodes.find nodeAddress = some node →
      node.netAddress = none ∨ node.netAddress = some addr)
    (injective : Function.Injective book) :
    Linked (Equiv.swap (book nodeAddress) addr ∘ book) state where
  addressed := by
    intro other node held found has
    have inBook := linked.addressed other node held found has
    rw [Function.comp_apply]
    by_cases same : other = nodeAddress
    · subst same
      rw [Equiv.swap_apply_left]
      rcases own node found with nowhere | there
      · rw [has] at nowhere
        cases nowhere
      · exact Option.some.inj (has.symm.trans there)
    · rw [← inBook, Equiv.swap_apply_of_ne_of_ne]
      · intro taken
        exact same (injective (inBook.symm.trans taken))
      · intro taken
        exact others other node found same (taken ▸ has)
  indexed := linked.indexed
  fresh := linked.fresh
  postponed := linked.postponed
  links := linked.links
  marked := linked.marked

/-- The state in which a node has no address yet. -/
def forget (state : State) (node : Node) : State :=
  ⟨state.server.putNode node.forgetAddress, state.network⟩

theorem find_forget (state : State) (node : Node) (nodeAddress : UInt32) :
    (forget state node).server.nodes.find nodeAddress =
      if nodeAddress = node.nodeAddress then some node.forgetAddress
      else state.server.nodes.find nodeAddress :=
  Server.find_putNode _ _ _

theorem Linked.forget {state : State} (linked : Linked book state) {node : Node}
    (found : state.server.nodes.find node.nodeAddress = some node)
    (unindexed : ∀ addr, state.server.nodesIndex.find addr ≠ some node.nodeAddress) :
    Linked book (forget state node) where
  addressed := by
    intro nodeAddress other addr held has
    rw [find_forget] at held
    split at held
    · cases held
      cases has
    · exact linked.addressed nodeAddress other addr held has
  indexed := by
    intro addr nodeAddress indexed
    obtain ⟨holder, held, has⟩ := linked.indexed addr nodeAddress indexed
    refine ⟨holder, ?_, has⟩
    rw [find_forget, if_neg]
    · exact held
    · intro equal
      subst equal
      exact unindexed addr indexed
  fresh := linked.fresh
  postponed := linked.postponed
  links := by
    intro addr different
    obtain ⟨link, represents⟩ := linked.links addr different
    refine ⟨link, represents.transfer rfl rfl (fun _ => Iff.rfl) ?_⟩
    intro nodeAddress other _ held
    rw [find_forget]
    by_cases same : nodeAddress = node.nodeAddress
    · rw [same, found] at held
      cases held
      exact ⟨node.forgetAddress, if_pos same, rfl⟩
    · exact ⟨other, by rw [if_neg same, held], rfl⟩
  marked := by
    intro nodeAddress other indexed held
    rw [find_forget, if_neg] at held
    · exact linked.marked nodeAddress other indexed held
    · rintro rfl
      exact unindexed _ indexed

/-- A good answer overwrites whatever the node's address was. -/
theorem step_forget {state : State} {conn : ConnId} {resp : ResolveResponse} {node : Node}
    (found : state.server.nodes.find resp.nodeAddr = some node)
    (kind : resp.type = .kUpdateCache) (good : resp.code = .kOk) :
    step (forget state node) (.resolveServerMessage conn (.kResolveResponse resp)) =
      step state (.resolveServerMessage conn (.kResolveResponse resp)) := by
  have keyed := state.server.keyed found
  have updated : (forget state node).server.updatedNode resp = state.server.updatedNode resp := by
    simp [Server.updatedNode, Server.findNode, find_forget, keyed, found, good,
      Node.forgetAddress, Node.setNetAddress]
  have put (other : Node) (same : other.nodeAddress = node.nodeAddress) :
      (forget state node).server.putNode other = state.server.putNode other := by
    simp [forget, Server.putNode, Node.forgetAddress, same, FiniteMap.assign_assign]
  have answered : (forget state node).server.updateNodeAddressCache state.network resp =
      state.server.updateNodeAddressCache state.network resp := by
    have same := put (state.server.updatedNode resp) (by rw [Server.nodeAddress_updatedNode, keyed])
    simp only [Server.updateNodeAddressCache, updated, same]
  have network : (forget state node).network = state.network := rfl
  simp only [step, Server.handleResolveServerMessage, kind, network]
  cases state.network.conns.find conn with
  | none => rfl
  | some connection =>
      exact congrArg (fun handled =>
        if state.server.isResolveServerAddress connection.peerAddr then
          some (settle state.network handled)
        else none) answered

theorem Settled.forget {state : State} {conn : ConnId} {resp : ResolveResponse} {node : Node}
    (settled : Settled state (.resolveServerMessage conn (.kResolveResponse resp)))
    (found : state.server.nodes.find resp.nodeAddr = some node) :
    Settled (forget state node) (.resolveServerMessage conn (.kResolveResponse resp)) := by
  intro kind good other held waits disconnected
  rw [find_forget, state.server.keyed found, if_pos rfl] at held
  cases held
  exact settled kind good node found waits disconnected

/-- The step lemma: what a response gives a node becomes its entry in the book. -/
theorem Linked.refreshed {state after : State} {event : Event} {outputs : List Effect}
    (linked : Linked book state) (injective : Function.Injective book)
    (distinct : Distinct state event) (keeps : KeepsIndexed state event)
    (settled : Settled state event) (stepped : step state event = some (after, outputs)) :
    ∃ refreshed : UInt32 → NetAddress, Function.Injective refreshed ∧ Linked refreshed after := by
  by_cases given : ∃ conn resp, event = .resolveServerMessage conn (.kResolveResponse resp) ∧
      GivesAddress state resp
  · obtain ⟨conn, resp, rfl, given⟩ := given
    have rebooked : Function.Injective
        (Equiv.swap (book resp.nodeAddr) ⟨resp.nodeIp, resp.nodePort⟩ ∘ book) :=
      (Equiv.injective _).comp injective
    have follows (from_ : State) : Follows
        (Equiv.swap (book resp.nodeAddr) ⟨resp.nodeIp, resp.nodePort⟩ ∘ book) from_
        (.resolveServerMessage conn (.kResolveResponse resp)) :=
      fun _ => (Equiv.swap_apply_left _ _).symm
    have others (other : UInt32) (node : Node)
        (held : state.server.nodes.find other = some node) (foreign : other ≠ resp.nodeAddr) :
        node.netAddress ≠ some ⟨resp.nodeIp, resp.nodePort⟩ := by
      intro taken
      apply foreign
      rw [← state.server.keyed held]
      exact distinct given node (FiniteMap.mem_values.mpr ⟨other, held⟩) taken
    refine ⟨_, rebooked, ?_⟩
    by_cases unmoved : ∀ node, state.server.nodes.find resp.nodeAddr = some node →
        node.netAddress = none ∨ node.netAddress = some ⟨resp.nodeIp, resp.nodePort⟩
    · have moved := linked.rebook resp.nodeAddr _ others unmoved injective
      exact (moved.preserved rebooked (follows state) settled stepped).1
    · -- the node had another address, under which it is in no entry
      push Not at unmoved
      obtain ⟨node, found, _, elsewhere⟩ := unmoved
      have keyed := state.server.keyed found
      have unindexed (addr : NetAddress) :
          state.server.nodesIndex.find addr ≠ some node.nodeAddress := by
        intro entry
        rw [keyed] at entry
        obtain ⟨holder, held, has⟩ := linked.indexed addr _ entry
        rw [found] at held
        cases held
        rw [keeps given node found addr has entry] at has
        exact elsewhere has
      have good : resp.code = .kOk := by
        rcases given.2 with good | missing
        · exact good
        · rw [found] at missing
          cases missing
      have forgotten := linked.forget (by rw [keyed, found]) unindexed
      have moved := forgotten.rebook resp.nodeAddr ⟨resp.nodeIp, resp.nodePort⟩
        (fun other holder held foreign => by
          rw [find_forget, keyed, if_neg foreign] at held
          exact others other holder held foreign)
        (fun holder held => by
          rw [find_forget, keyed, if_pos rfl] at held
          cases held
          exact .inl rfl) injective
      exact (moved.preserved rebooked (follows _) (settled.forget found)
        ((step_forget found given.1 good).trans stepped)).1
  · refine ⟨book, injective, (linked.preserved injective ?_ settled stepped).1⟩
    cases event with
    | resolveServerMessage conn m =>
        cases m with
        | other type => trivial
        | kResolveResponse resp => exact fun gives => absurd ⟨conn, resp, rfl, gives⟩ given
    | busMessage | connected | connectError | foundClosed | disconnected | retry => trivial

theorem Linked.index_some {state : State} (linked : Linked book state) {addr : NetAddress}
    (different : addr ≠ state.server.resolveServerAddress)
    (busy : addr ∈ state.network.attempts ∨ ∃ conn, state.network.Reaches conn addr) :
    ∃ node, state.server.findNodeByNetAddress addr = some node ∧ node.netAddress = some addr ∧
      state.server.nodesIndex.find addr = some node.nodeAddress := by
  have entry : ∃ nodeAddress, state.server.nodesIndex.find addr = some nodeAddress := by
    obtain ⟨link, represents⟩ := linked.links addr different
    cases represents with
    | idle _ none unreached =>
        rcases busy with waiting | ⟨conn, reached⟩
        · exact absurd (List.count_pos_iff.mpr waiting) (by omega)
        · exact absurd reached (unreached conn)
    | attempting indexed _ _ => exact ⟨_, indexed⟩
    | held indexed _ _ _ _ => exact ⟨_, indexed⟩
  obtain ⟨nodeAddress, indexed⟩ := entry
  obtain ⟨node, found, has⟩ := linked.indexed addr nodeAddress indexed
  have keyed := state.server.keyed found
  subst keyed
  exact ⟨node, Server.findNodeByNetAddress_eq_some.mpr ⟨indexed, found⟩, has, indexed⟩

theorem isSome_unRegisterNode {server : Server} {node changed : Node} {addr : NetAddress}
    (has : changed.netAddress = some addr)
    (indexed : server.nodesIndex.find addr = some node.nodeAddress) :
    ((server.putNode changed).unRegisterNode changed).isSome = true := by
  have entry : (server.putNode changed).nodesIndex.find addr = some node.nodeAddress := indexed
  simp [Server.unRegisterNode, has, entry]

theorem Linked.index_givesUp {state : State} (linked : Linked book state) {addr : NetAddress}
    (change : Node → Node) {server : Server}
    (sameAddress : ∀ node, (change node).netAddress = node.netAddress)
    (given : state.server.GivesUp addr change server) (other : NetAddress) :
    server.nodesIndex.find other =
      if other = addr then none else state.server.nodesIndex.find other := by
  obtain ⟨_, _, _, rfl⟩ := linked.gaveUp change sameAddress given
  exact FiniteMap.find_remove _ _ _

theorem Linked.indexConsistent {state : State} (linked : Linked book state) :
    IndexConsistent state where
  entries := linked.indexed
  connected := by
    intro addr writes waiting
    simp only [step, if_pos waiting, Option.isSome_map, Server.onConnectedToRemote]
    split
    · rfl
    · rename_i other
      obtain ⟨node, found, _, _⟩ := linked.index_some (fun same => other (beq_iff_eq.mpr same))
        (.inl waiting)
      simp [Server.onConnectedToRemoteNode, found]
  connectError := by
    intro addr waiting
    simp only [step, if_pos waiting, Option.isSome_map, Server.onConnectToRemoteError]
    split
    · rfl
    · rename_i other
      obtain ⟨node, found, has, indexed⟩ :=
        linked.index_some (fun same => other (beq_iff_eq.mpr same)) (.inl waiting)
      have unregistered := @isSome_unRegisterNode state.server node (node.setConnecting false)
        addr has indexed
      obtain ⟨after, released⟩ := Option.isSome_iff_exists.mp unregistered
      simp [Server.onConnectToRemoteNodeError, found, released]
  disconnected := by
    intro conn connection there closed
    simp only [step, there, if_pos closed, Option.isSome_map, Server.onConnectToRemoteClose]
    split
    · rfl
    · rename_i other
      obtain ⟨node, found, has, indexed⟩ :=
        linked.index_some (fun same => other (beq_iff_eq.mpr same))
          (.inr ⟨conn, connection, there, rfl⟩)
      have unregistered := @isSome_unRegisterNode state.server node node.clearConnection
        connection.peerAddr has indexed
      obtain ⟨after, released⟩ := Option.isSome_iff_exists.mp unregistered
      simp [Server.onRemoteNodeDisconnected, found, released]
  removes := by
    intro event after outputs addr ends different stepped other
    cases step_transition stepped with
    | nodeFailed _ _ given =>
        cases ends
        exact linked.index_givesUp (Node.setConnecting · false) (fun _ => rfl) given other
    | nodeLost there _ _ given =>
        rw [ended, there] at ends
        cases ends
        exact linked.index_givesUp Node.clearConnection (fun _ => rfl) given other
    | resolveServerFailed _ =>
        cases ends
        exact absurd rfl different
    | resolveServerLost there _ peer =>
        rw [ended, there] at ends
        cases ends
        exact absurd peer different
    | _ => cases ends

/-- In a run in which no node in the index is given another address, and nodes are
connected to only when nothing about their last connection is pending, the index stays
consistent. -/
theorem indexConsistent_run {messageServerPort : Int32} {resolveServerAddress : NetAddress}
    {history : List (EventMachine.Taken State Event Effect)} {state : State}
    (run : machine.Run
      (fun state event => Distinct state event ∧ KeepsIndexed state event ∧ Settled state event)
      (State.initial messageServerPort resolveServerAddress) history state) :
    IndexConsistent state := by
  have linked : ∃ book, Function.Injective book ∧ Linked book state := by
    refine run.state_invariant (fun state => ∃ book, Function.Injective book ∧ Linked book state)
      ⟨someBook, someBook_injective, linked_initial _ _ _⟩ ?_
    intro before event outputs after state condition stepped
    obtain ⟨book, injective, linked⟩ := state
    obtain ⟨distinct, keeps, settled⟩ := condition
    exact linked.refreshed injective distinct keeps settled stepped
  obtain ⟨book, _, linked⟩ := linked
  exact linked.indexConsistent

instance (state : State) : ∀ event, Decidable (Distinct state event)
  | .resolveServerMessage _ (.kResolveResponse resp) => inferInstanceAs (Decidable (_ →
      ∀ node ∈ state.server.nodes.values, _ → node.nodeAddress = resp.nodeAddr))
  | .resolveServerMessage _ (.other _) | .busMessage _ _ _ | .connected _ _ | .connectError _
  | .foundClosed _ | .disconnected _ | .retry _ => inferInstanceAs (Decidable True)

instance (state : State) : ∀ event, Decidable (KeepsIndexed state event)
  | .resolveServerMessage _ (.kResolveResponse resp) => inferInstanceAs (Decidable (_ →
      ∀ node ∈ state.server.nodes.find resp.nodeAddr, ∀ addr ∈ node.netAddress, _ → _))
  | .resolveServerMessage _ (.other _) | .busMessage _ _ _ | .connected _ _ | .connectError _
  | .foundClosed _ | .disconnected _ | .retry _ => inferInstanceAs (Decidable True)

/-- The node has moved to another port. -/
def someRefresh : ResolveServerMessage :=
  .kResolveResponse ⟨.kOk, .kUpdateCache, 9, 8124, LittleEndian.bytes 9, [47, 97, 47]⟩

/-- A node gets another address while there is no connection to it, and is connected
to there. -/
theorem indexConsistent_run_moved :
    ∃ history state, machine.Run
        (fun state event => Distinct state event ∧ KeepsIndexed state event ∧ Settled state event)
        (State.initial 8123 someResolveServer) history state ∧
      state.server.nodesIndex.find ⟨LittleEndian.bytes 9, 8124⟩ = some 9 ∧
      IndexConsistent state := by
  obtain ⟨history, state, run, moved⟩ := EventMachine.exists_run_of_any machine
    (fun state event => Distinct state event ∧ KeepsIndexed state event ∧ Settled state event)
    (State.initial 8123 someResolveServer)
    [.connected someResolveServer (fun _ => true), .busMessage 1 someMessage (fun _ => true),
      .resolveServerMessage 0 someAnswer, .connected someNodeAddr (fun _ => true),
      .foundClosed 1, .disconnected 1, .resolveServerMessage 0 someRefresh,
      .busMessage 1 someMessage (fun _ => true)]
    (fun reached => decide
      (reached.2.server.nodesIndex.find ⟨LittleEndian.bytes 9, 8124⟩ = some 9)) (by decide)
  exact ⟨history, state, run, of_decide_eq_true moved, indexConsistent_run run⟩

/-- A node gets another address while it is connected. Its entry stays under the old
one, and is not found when the connection ends. -/
theorem not_indexConsistent_moved :
    ∃ history state, machine.Run (fun state event => Distinct state event ∧ Settled state event)
        (State.initial 8123 someResolveServer) history state ∧
      ¬ IndexConsistent state ∧ state.server.nodesIndex.find someNodeAddr = some 9 ∧
      (state.server.nodes.find 9).bind Node.netAddress ≠ some someNodeAddr ∧
      (state.network.conns.find 1).any TcpConnection.closed = true ∧
      step state (.disconnected 1) = none := by
  obtain ⟨history, state, run, stale⟩ := EventMachine.exists_run_of_any machine
    (fun state event => Distinct state event ∧ Settled state event)
    (State.initial 8123 someResolveServer)
    [.connected someResolveServer (fun _ => true), .busMessage 1 someMessage (fun _ => true),
      .resolveServerMessage 0 someAnswer, .connected someNodeAddr (fun _ => true),
      .resolveServerMessage 0 someRefresh, .foundClosed 1]
    (fun reached => decide (reached.2.server.nodesIndex.find someNodeAddr = some 9 ∧
      (reached.2.server.nodes.find 9).bind Node.netAddress ≠ some someNodeAddr ∧
      (reached.2.network.conns.find 1).any TcpConnection.closed = true ∧
      (step reached.2 (.disconnected 1)).isNone = true)) (by decide)
  obtain ⟨indexed, elsewhere, closed, unhandled⟩ := of_decide_eq_true stale
  refine ⟨history, state, run, fun consistent => ?_, indexed, elsewhere, closed,
    Option.isNone_iff_eq_none.mp unhandled⟩
  obtain ⟨node, found, has⟩ := consistent.entries someNodeAddr 9 indexed
  rw [found] at elsewhere
  exact elsewhere has

end Daemon

end Cpmd
