import Cpmd.DaemonProperties
import Cpmd.NetworkProperties

/-! The link to a remote address: idle, being attempted, or held by one
connection. This is what the index of nodes, the outstanding attempts, the
connections and the nodes' own pointers are meant to agree on. -/

set_option autoImplicit false

namespace Cpmd.Daemon

open Library

inductive Link where
  | idle
  | attempting
  | held (conn : ConnId)

/-- The parts of a state that concern an address agree on its link. -/
inductive Represents (state : State) (addr : NetAddress) : Link → Prop where
  | idle :
      state.server.nodesIndex.find addr = none → state.network.attempts.count addr = 0 →
      (∀ conn, ¬ state.network.Reaches conn addr) → Represents state addr .idle
  | attempting {nodeAddress : UInt32} :
      state.server.nodesIndex.find addr = some nodeAddress →
      state.network.attempts.count addr = 1 →
      (∀ conn, ¬ state.network.Reaches conn addr) → Represents state addr .attempting
  | held {nodeAddress : UInt32} {node : Node} {conn : ConnId} :
      state.server.nodesIndex.find addr = some nodeAddress →
      state.server.nodes.find nodeAddress = some node → node.weakConn = some conn →
      state.network.attempts.count addr = 0 →
      (∀ other, state.network.Reaches other addr ↔ other = conn) →
      Represents state addr (.held conn)

theorem Represents.transfer {state after : State} {addr : NetAddress} {link : Link}
    (represents : Represents state addr link)
    (index : after.server.nodesIndex.find addr = state.server.nodesIndex.find addr)
    (attempts : after.network.attempts.count addr = state.network.attempts.count addr)
    (reaches : ∀ conn, after.network.Reaches conn addr ↔ state.network.Reaches conn addr)
    (pointers : ∀ nodeAddress node, state.server.nodesIndex.find addr = some nodeAddress →
      state.server.nodes.find nodeAddress = some node →
      ∃ moved, after.server.nodes.find nodeAddress = some moved ∧
        moved.weakConn = node.weakConn) : Represents after addr link := by
  cases represents with
  | idle unindexed none unreached =>
      exact .idle (index.trans unindexed) (attempts.trans none)
        (fun conn => (reaches conn).not.mpr (unreached conn))
  | attempting indexed one unreached =>
      exact .attempting (index.trans indexed) (attempts.trans one)
        (fun conn => (reaches conn).not.mpr (unreached conn))
  | held indexed found bound none reached =>
      obtain ⟨moved, kept, same⟩ := pointers _ _ indexed found
      exact .held (index.trans indexed) kept (same.trans bound) (attempts.trans none)
        (fun other => (reaches other).trans (reached other))

/-- Each node has the address the book gives it, each indexed address is that of
its node, and every address but the resolve server's has a link. Of a node that is indexed
under that one nothing more is heard: it stays marked as connecting. -/
structure Linked (book : UInt32 → NetAddress) (state : State) : Prop where
  addressed : ∀ nodeAddress node addr, state.server.nodes.find nodeAddress = some node →
    node.netAddress = some addr → addr = book nodeAddress
  indexed : ∀ addr nodeAddress, state.server.nodesIndex.find addr = some nodeAddress →
    ∃ node, state.server.nodes.find nodeAddress = some node ∧ node.netAddress = some addr
  fresh : ∀ conn addr, state.network.Reaches conn addr → conn < state.network.nextId
  postponed : ∀ addr ∈ state.network.retries, addr = state.server.resolveServerAddress
  links : ∀ addr, addr ≠ state.server.resolveServerAddress →
    ∃ link, Represents state addr link
  marked : ∀ nodeAddress node,
    state.server.nodesIndex.find state.server.resolveServerAddress = some nodeAddress →
    state.server.nodes.find nodeAddress = some node → node.connecting = true

theorem linked_initial (book : UInt32 → NetAddress) (messageServerPort : Int32)
    (resolveServerAddress : NetAddress) :
    Linked book (State.initial messageServerPort resolveServerAddress) where
  addressed := by
    intro nodeAddress node addr found
    simp [State.initial, Server.create] at found
  indexed := by
    intro addr nodeAddress found
    simp [State.initial, Server.create] at found
  fresh := by
    intro conn addr pending
    obtain ⟨connection, found, _⟩ := pending
    simp [State.initial] at found
  postponed := by simp [State.initial]
  links := by
    intro addr different
    refine ⟨.idle, .idle ?_ ?_ ?_⟩
    · simp [State.initial, Server.create]
    · exact List.count_eq_zero.mpr (by simpa [State.initial, Server.create] using different)
    · intro conn pending
      obtain ⟨connection, found, _⟩ := pending
      simp [State.initial] at found
  marked := by
    intro nodeAddress node indexed
    simp [State.initial, Server.create] at indexed

variable {book : UInt32 → NetAddress}

theorem Linked.book_indexed {state : State} (linked : Linked book state) {addr : NetAddress}
    {nodeAddress : UInt32} (indexed : state.server.nodesIndex.find addr = some nodeAddress) :
    addr = book nodeAddress := by
  obtain ⟨node, found, own⟩ := linked.indexed addr nodeAddress indexed
  exact linked.addressed nodeAddress node addr found own

theorem Linked.index_ne {state : State} (linked : Linked book state) {left right : NetAddress}
    {leftNode rightNode : UInt32}
    (leftIndexed : state.server.nodesIndex.find left = some leftNode)
    (rightIndexed : state.server.nodesIndex.find right = some rightNode)
    (different : left ≠ right) : leftNode ≠ rightNode := by
  intro equal
  subst equal
  exact different ((linked.book_indexed leftIndexed).trans
    (linked.book_indexed rightIndexed).symm)

/-- A node is changed but keeps its address, or gets the one the book gives it,
and keeps its pointer to a connection and its mark. -/
theorem Linked.putNode {state : State} (linked : Linked book state) {node : Node}
    (addressed : ∀ addr, node.netAddress = some addr → addr = book node.nodeAddress)
    (kept : ∀ old, state.server.nodes.find node.nodeAddress = some old →
      (old.netAddress = none ∨ node.netAddress = old.netAddress) ∧
        node.weakConn = old.weakConn ∧ (old.connecting = true → node.connecting = true)) :
    Linked book ⟨state.server.putNode node, state.network⟩ where
  addressed := by
    intro nodeAddress other addr found own
    rw [Server.find_putNode] at found
    split at found
    · rename_i same
      cases found
      rw [same]
      exact addressed addr own
    · exact linked.addressed nodeAddress other addr found own
  indexed := by
    intro addr nodeAddress indexed
    obtain ⟨old, found, own⟩ := linked.indexed addr nodeAddress indexed
    rw [Server.find_putNode]
    by_cases same : nodeAddress = node.nodeAddress
    · rw [if_pos same]
      subst same
      rcases (kept old found).1 with nowhere | stays
      · rw [nowhere] at own
        cases own
      · exact ⟨node, rfl, stays.trans own⟩
    · rw [if_neg same]
      exact ⟨old, found, own⟩
  fresh := linked.fresh
  postponed := linked.postponed
  links := by
    intro addr different
    obtain ⟨link, represents⟩ := linked.links addr different
    refine ⟨link, represents.transfer rfl rfl (fun _ => Iff.rfl) ?_⟩
    intro nodeAddress old _ found
    rw [Server.find_putNode]
    by_cases same : nodeAddress = node.nodeAddress
    · rw [if_pos same]
      subst same
      exact ⟨node, rfl, (kept old found).2.1⟩
    · rw [if_neg same]
      exact ⟨old, found, rfl⟩
  marked := by
    intro nodeAddress other indexed found
    rw [Server.find_putNode] at found
    split at found
    · rename_i same
      obtain ⟨old, held, _⟩ := linked.indexed _ nodeAddress indexed
      cases found
      rw [same] at held
      exact (kept old held).2.2 (linked.marked nodeAddress old indexed (same ▸ held))
    · exact linked.marked nodeAddress other indexed found

/-- Who may be registered under an address: there is no entry, and no attempt or connection
either unless it is the resolve server's. -/
structure Free (state : State) (addr : NetAddress) : Prop where
  unindexed : state.server.nodesIndex.find addr = none
  idle : addr ≠ state.server.resolveServerAddress → Represents state addr .idle

/-- A node is registered, and is marked if the address is the resolve server's. -/
theorem Linked.connect {state : State} (linked : Linked book state) (node : Node)
    {addr : NetAddress} (found : state.server.nodes.find node.nodeAddress = some node)
    (own : node.netAddress = some addr) (free : Free state addr)
    (mark : addr = state.server.resolveServerAddress → node.connecting = true) :
    Linked book ⟨{ state.server with
        nodesIndex := (state.server.nodesIndex.emplace addr node.nodeAddress).1 },
      state.network.carryOut (.connectTo addr)⟩ where
  addressed := linked.addressed
  indexed := by
    intro other nodeAddress indexed
    rw [FiniteMap.find_emplace, free.unindexed] at indexed
    split at indexed
    · rename_i same
      cases indexed
      rw [same]
      exact ⟨node, found, own⟩
    · exact linked.indexed other nodeAddress indexed
  fresh := linked.fresh
  postponed := linked.postponed
  links := by
    intro other different
    by_cases same : other = addr
    · subst same
      cases free.idle different with
      | idle unindexed none unreached =>
          have indexed : (state.server.nodesIndex.emplace other node.nodeAddress).1.find other =
              some node.nodeAddress := by
            rw [FiniteMap.find_emplace, if_pos rfl, unindexed]
            rfl
          refine ⟨.attempting, .attempting indexed ?_ unreached⟩
          simp [Network.carryOut, none]
    · obtain ⟨link, represents⟩ := linked.links other different
      refine ⟨link, represents.transfer ?_ ?_ (fun _ => Iff.rfl)
        (fun _ old _ held => ⟨old, held, rfl⟩)⟩
      · rw [FiniteMap.find_emplace, if_neg same]
      · simp [Network.carryOut, Ne.symm same]
  marked := by
    intro nodeAddress other indexed held
    rw [FiniteMap.find_emplace, free.unindexed] at indexed
    split at indexed
    · rename_i same
      cases indexed
      cases found.symm.trans held
      exact mark same.symm
    · exact linked.marked nodeAddress other indexed held

theorem Linked.attempting {state : State} (linked : Linked book state) {addr : NetAddress}
    (waiting : addr ∈ state.network.attempts)
    (different : addr ≠ state.server.resolveServerAddress) :
    Represents state addr .attempting := by
  obtain ⟨link, represents⟩ := linked.links addr different
  have some := List.count_pos_iff.mpr waiting
  cases represents with
  | idle _ none _ => omega
  | attempting indexed one unreached => exact .attempting indexed one unreached
  | held _ _ _ none _ => omega

theorem Linked.nodeConnected {state : State} (linked : Linked book state) {node : Node}
    {addr : NetAddress} (writes : Nat → Bool) (waiting : addr ∈ state.network.attempts)
    (different : addr ≠ state.server.resolveServerAddress)
    (indexed : state.server.nodesIndex.find addr = some node.nodeAddress)
    (found : state.server.nodes.find node.nodeAddress = some node) :
    Linked book ⟨state.server.putNode (node.setConnection state.network.nextId writes).1,
      state.network.accept addr⟩ := by
  obtain ⟨keyed, sameAddress, bound⟩ := node.setConnection_frame state.network.nextId writes
  have find (nodeAddress : UInt32) :
      (state.server.putNode (node.setConnection state.network.nextId writes).1).nodes.find
        nodeAddress = if nodeAddress = node.nodeAddress then
          some (node.setConnection state.network.nextId writes).1
        else state.server.nodes.find nodeAddress := by
    rw [Server.find_putNode, keyed]
  refine ⟨?_, ?_, Network.fresh_accept linked.fresh addr, linked.postponed, ?_, ?_⟩
  · intro nodeAddress other target held own
    rw [find] at held
    split at held
    · rename_i same
      cases held
      rw [same]
      exact linked.addressed _ node target found (sameAddress.symm.trans own)
    · exact linked.addressed nodeAddress other target held own
  · intro target nodeAddress entry
    obtain ⟨old, held, own⟩ := linked.indexed target nodeAddress entry
    rw [find]
    by_cases same : nodeAddress = node.nodeAddress
    · subst same
      rw [found] at held
      cases held
      rw [if_pos rfl]
      exact ⟨_, rfl, sameAddress.trans own⟩
    · rw [if_neg same]
      exact ⟨old, held, own⟩
  · intro target elsewhere
    by_cases same : target = addr
    · subst same
      cases linked.attempting waiting elsewhere with
      | attempting _ one unreached =>
          refine ⟨.held state.network.nextId, .held indexed ?_ bound ?_ ?_⟩
          · rw [find, if_pos rfl]
          · simp only [Network.accept, List.count_erase_self]
            omega
          · intro conn
            rw [Network.reaches_accept linked.fresh]
            simp [unreached]
    · obtain ⟨link, represents⟩ := linked.links target elsewhere
      refine ⟨link, represents.transfer rfl (List.count_erase_of_ne same)
        (Network.reaches_accept_of_ne linked.fresh same) ?_⟩
      intro nodeAddress old entry held
      rw [find, if_neg (linked.index_ne entry indexed same)]
      exact ⟨old, held, rfl⟩
  · intro nodeAddress other entry held
    rw [find, if_neg (linked.index_ne entry indexed (Ne.symm different))] at held
    exact linked.marked nodeAddress other entry held

theorem Linked.gaveUp {state : State} (linked : Linked book state) {addr : NetAddress}
    (change : Node → Node) {server : Server}
    (sameAddress : ∀ node, (change node).netAddress = node.netAddress)
    (given : state.server.GivesUp addr change server) :
    ∃ node, state.server.nodesIndex.find addr = some node.nodeAddress ∧
      state.server.nodes.find node.nodeAddress = some node ∧
      server = { state.server.putNode (change node) with
        nodesIndex := state.server.nodesIndex.remove addr } := by
  obtain ⟨node, netAddress, indexed, found, own, rfl⟩ := given
  obtain ⟨holder, held, has⟩ := linked.indexed addr _ indexed
  rw [found] at held
  cases held
  rw [sameAddress, has] at own
  cases own
  exact ⟨node, indexed, found, rfl⟩

/-- A node gives up the address it was found at, whose link is idle from then on. -/
theorem Linked.givesUp {state : State} (linked : Linked book state) {addr : NetAddress}
    (change : Node → Node) {server : Server} {network : Network}
    (keyed : ∀ node, (change node).nodeAddress = node.nodeAddress)
    (sameAddress : ∀ node, (change node).netAddress = node.netAddress)
    (given : state.server.GivesUp addr change server)
    (different : addr ≠ state.server.resolveServerAddress)
    (nextId : network.nextId = state.network.nextId)
    (retries : network.retries = state.network.retries)
    (gone : network.attempts.count addr = 0 ∧ ∀ conn, ¬ network.Reaches conn addr)
    (others : ∀ other, other ≠ addr →
      network.attempts.count other = state.network.attempts.count other ∧
        ∀ conn, network.Reaches conn other ↔ state.network.Reaches conn other) :
    Linked book ⟨server, network⟩ := by
  obtain ⟨node, indexed, found, rfl⟩ := linked.gaveUp change sameAddress given
  have find (nodeAddress : UInt32) :
      (state.server.putNode (change node)).nodes.find nodeAddress =
        if nodeAddress = node.nodeAddress then some (change node)
        else state.server.nodes.find nodeAddress := by
    rw [Server.find_putNode, keyed]
  refine ⟨?_, ?_, ?_, ?_, ?_, ?_⟩
  · intro nodeAddress other target held owns
    change (state.server.putNode (change node)).nodes.find nodeAddress = _ at held
    rw [find] at held
    split at held
    · rename_i here
      cases held
      rw [here]
      rw [sameAddress] at owns
      exact linked.addressed _ node target found owns
    · exact linked.addressed nodeAddress other target held owns
  · intro target nodeAddress entry
    change (state.server.nodesIndex.remove addr).find target = _ at entry
    rw [FiniteMap.find_remove] at entry
    split at entry
    · cases entry
    · rename_i elsewhere
      obtain ⟨old, held, owns⟩ := linked.indexed target nodeAddress entry
      refine ⟨old, ?_, owns⟩
      change (state.server.putNode (change node)).nodes.find nodeAddress = _
      rw [find, if_neg (linked.index_ne entry indexed elsewhere)]
      exact held
  · intro conn target reached
    dsimp only at reached ⊢
    rw [nextId]
    by_cases here : target = addr
    · subst here
      exact absurd reached (gone.2 conn)
    · exact linked.fresh conn target (((others target here).2 conn).mp reached)
  · intro target postponed
    dsimp only at postponed
    rw [retries] at postponed
    exact linked.postponed target postponed
  · intro target elsewhere
    by_cases here : target = addr
    · subst here
      refine ⟨.idle, .idle ?_ gone.1 gone.2⟩
      change (state.server.nodesIndex.remove target).find target = none
      rw [FiniteMap.find_remove, if_pos rfl]
    · obtain ⟨link, represents⟩ := linked.links target elsewhere
      obtain ⟨count, reaches⟩ := others target here
      refine ⟨link, represents.transfer ?_ count reaches ?_⟩
      · change (state.server.nodesIndex.remove addr).find target = _
        rw [FiniteMap.find_remove, if_neg here]
      · intro nodeAddress old entry held
        refine ⟨old, ?_, rfl⟩
        change (state.server.putNode (change node)).nodes.find nodeAddress = _
        rw [find, if_neg (linked.index_ne entry indexed here)]
        exact held
  · intro nodeAddress other entry held
    change (state.server.nodesIndex.remove addr).find state.server.resolveServerAddress = _
      at entry
    change (state.server.putNode (change node)).nodes.find nodeAddress = _ at held
    rw [FiniteMap.find_remove, if_neg (Ne.symm different)] at entry
    rw [find, if_neg (linked.index_ne entry indexed (Ne.symm different))] at held
    exact linked.marked nodeAddress other entry held

end Cpmd.Daemon
