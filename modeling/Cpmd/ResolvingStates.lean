import Cpmd.DaemonProperties
import Cpmd.Library.Observer

/-! The nodes that count as being resolved, and the lookups that were written to the
resolve server and have not been answered. -/

set_option autoImplicit false

namespace Cpmd

open Library

/-- Whether a node is known and in state `kResolving`. -/
def Server.awaits (server : Server) (nodeAddress : UInt32) : Bool :=
  server.has Node.resolving nodeAddress

/-- A `kLookupNode` request that was written: the connection and the node asked for. -/
def Effect.lookup : Effect → Option (ConnId × UInt32)
  | .requested conn req =>
      match req.type with
      | .kLookupNode => some (conn, req.peerAddr)
      | .kInitializeSelf | .unknown _ => none
  | .connectTo _ | .registered _ _ | .wrote _ _ _ | .close _ | .connectLater _ => none

namespace Server

theorem HandlesToRemote.awaits {server after : Server} {network : Network}
    {writes : Nat → Bool} {m : Message} {droped : Option Message} {effects : List Effect}
    (handles : server.HandlesToRemote network writes m (after, droped, effects))
    (resolvedOnce : (server.nodeOrNew m.remoteAddress.nodeAddr).notResolved ≠ true)
    (nodeAddress : UInt32) : after.awaits nodeAddress = server.awaits nodeAddress := by
  cases handles with
  | @wrote node conn found _ _ _ _ =>
      apply has_putNode_same
      rw [server.keyed found, has_of_find _ found]
  | @cached node found =>
      subst found
      apply has_putNode_same
      rw [Node.nodeAddress_cacheMessage, nodeAddress_nodeOrNew]
      exact test_nodeOrNew Node.resolving (fun _ => rfl) _ _
  | requested found unresolved _ =>
      rw [found] at resolvedOnce
      exact absurd unresolved resolvedOnce
  | @connects node known found _ _ =>
      change (server.putNode (node.setConnecting true)).has Node.resolving nodeAddress = _
      apply has_putNode_same
      rw [Node.nodeAddress_setConnecting, server.keyed found, has_of_find _ found]
      rfl

theorem HandlesToRemote.resolveServerConn {server after : Server} {network : Network}
    {writes : Nat → Bool} {m : Message} {droped : Option Message} {effects : List Effect}
    (handles : server.HandlesToRemote network writes m (after, droped, effects)) :
    after.resolveServerConn = server.resolveServerConn := by
  cases handles <;> rfl

/-- A node that is not resolved is looked up where the request can be written; it
counts as being resolved wherever there is a connection to write it on. -/
theorem awaits_handleToUnresolved {server : Server} {node : Node}
    (network : Network) (writes : Nat → Bool) (m : Message) (unresolved : node.notResolved = true)
    (known : node.resolving = server.awaits node.nodeAddress) (nodeAddress : UInt32) :
    (server.handleToUnresolved network writes node m).1.awaits nodeAddress = true ↔
      server.awaits nodeAddress = true ∨
        (nodeAddress = node.nodeAddress ∧ server.resolveServerConn.isSome = true) := by
  have idle : node.resolving = false := by
    simp only [Node.notResolved, beq_iff_eq] at unresolved
    simp [Node.resolving, unresolved]
  unfold handleToUnresolved
  cases server.resolveServerConn with
  | none =>
      have same : (server.putNode (node.cacheMessage m).1).awaits nodeAddress =
          server.awaits nodeAddress := by
        apply has_putNode_same
        exact known
      simp [same]
  | some conn =>
      dsimp only
      rw [awaits, has_putNode, Node.nodeAddress_cacheMessage, Node.nodeAddress_setResolveState]
      by_cases own : nodeAddress = node.nodeAddress
      · simp [own, Node.resolving, Node.cacheMessage, Node.setResolveState]
      · simp [own, awaits]

/-- A response takes a node out of `kResolving` if it is good, and else leaves it there. -/
theorem awaits_updatedNode (server : Server) (resp : ResolveResponse) (nodeAddress : UInt32) :
    (server.putNode (server.updatedNode resp)).awaits nodeAddress = true ↔
      server.awaits nodeAddress = true ∧ ¬ (nodeAddress = resp.nodeAddr ∧ resp.code = .kOk) := by
  rw [awaits, has_putNode, nodeAddress_updatedNode]
  by_cases own : nodeAddress = resp.nodeAddr
  · subst own
    rw [if_pos rfl, awaits, has, updatedNode, findNode]
    cases server.nodes.find resp.nodeAddr with
    | none => simp [Node.resolving, Node.setNetAddress]
    | some old =>
        by_cases good : resp.code = .kOk
        · simp [good, Node.resolving, Node.setNetAddress]
        · by_cases resolved : old.resolved = true
          · have settled : old.resolveState = .kResolved := by simpa [Node.resolved] using resolved
            simp [good, resolved, settled, Node.resolving, Node.setResolveState]
          · simp [good, resolved]
  · simp [own, awaits]

theorem mem_lookups_handleToUnresolved (server : Server) (network : Network)
    (writes : Nat → Bool) (node : Node) (m : Message) (entry : ConnId × UInt32) :
    entry ∈ (server.handleToUnresolved network writes node m).2.2.filterMap Effect.lookup ↔
      (server.resolveServerConn = some entry.1 ∧ entry.2 = node.nodeAddress) ∧
        network.isOpen entry.1 = true ∧ writes 0 = true := by
  obtain ⟨conn, nodeAddress⟩ := entry
  unfold handleToUnresolved
  cases held : server.resolveServerConn with
  | none => simp
  | some current =>
      dsimp only
      rw [reqeustNodeNetAddress, held]
      dsimp only
      by_cases same : current = conn
      · subst same
        by_cases sends : (network.isOpen current && writes 0) = true
        · rw [if_pos sends]
          simpa [Effect.lookup] using fun _ => Bool.and_eq_true_iff.mp sends
        · rw [if_neg sends]
          simpa using fun _ => sends
      · split <;> simp [Effect.lookup, same, Ne.symm same]

theorem HandlesToRemote.lookups {server after : Server} {network : Network}
    {writes : Nat → Bool} {m : Message} {droped : Option Message} {effects : List Effect}
    (handles : server.HandlesToRemote network writes m (after, droped, effects))
    (resolvedOnce : (server.nodeOrNew m.remoteAddress.nodeAddr).notResolved ≠ true) :
    effects.filterMap Effect.lookup = [] := by
  cases handles with
  | requested found unresolved _ =>
      rw [found] at resolvedOnce
      exact absurd unresolved resolvedOnce
  | wrote | cached | connects => rfl

end Server

namespace Daemon

/-- A `kUpdateCache` response answers a lookup of its node on its connection. -/
def stillPending (pending : List (ConnId × UInt32)) : Event → List (ConnId × UInt32)
  | .resolveServerMessage conn (.kResolveResponse resp) =>
      if resp.type = .kUpdateCache then pending.erase (conn, resp.nodeAddr) else pending
  | .resolveServerMessage _ (.other _) | .busMessage _ _ _ | .connected _ _ | .connectError _
  | .foundClosed _ | .disconnected _ | .retry _ => pending

def noteLookups (pending : List (ConnId × UInt32))
    (taken : EventMachine.Taken State Event Effect) : List (ConnId × UInt32) :=
  stillPending pending taken.event ++ taken.outputs.filterMap Effect.lookup

/-- The lookups of a run that were written and have not been answered. -/
def pendingLookups (history : List (EventMachine.Taken State Event Effect)) :
    List (ConnId × UInt32) :=
  EventMachine.noted noteLookups [] history

/-- Each node in state `kResolving` has a lookup pending on the current connection to
the resolve server. -/
def Awaited (pending : List (ConnId × UInt32)) (state : State) : Prop :=
  ∀ nodeAddress, state.server.awaits nodeAddress = true →
    ∃ conn, state.server.resolveServerConn = some conn ∧ (conn, nodeAddress) ∈ pending

/-- A lookup that is to be made can be written, or is pending already; a bad answer
on the current connection leaves another lookup of a `kResolving` node pending; and
no node is in that state when the connection ends or is replaced. -/
def KeepsAwaited (pending : List (ConnId × UInt32))
    (taken : EventMachine.Taken State Event Effect) : Prop :=
  match taken.event with
  | .busMessage _ m writes =>
      taken.before.server.isLocal m.remoteAddress = false →
        (taken.before.server.nodeOrNew m.remoteAddress.nodeAddr).notResolved = true →
        ∀ conn ∈ taken.before.server.resolveServerConn,
          (taken.before.network.isOpen conn = true ∧ writes 0 = true) ∨
            (conn, m.remoteAddress.nodeAddr) ∈ pending
  | .resolveServerMessage conn (.kResolveResponse resp) =>
      resp.type = .kUpdateCache → resp.code ≠ .kOk →
        taken.before.server.awaits resp.nodeAddr = true →
        taken.before.server.resolveServerConn = some conn →
        (conn, resp.nodeAddr) ∈ pending.erase (conn, resp.nodeAddr)
  | .connected addr _ =>
      addr = taken.before.server.resolveServerAddress →
        ∀ node ∈ taken.before.server.nodes.values, node.resolving = false
  | .disconnected conn =>
      ∀ connection ∈ taken.before.network.conns.find conn,
        connection.peerAddr = taken.before.server.resolveServerAddress →
        ∀ node ∈ taken.before.server.nodes.values, node.resolving = false
  | .resolveServerMessage _ (.other _) | .connectError _ | .foundClosed _ | .retry _ => True

theorem Awaited.keep {pending later : List (ConnId × UInt32)} {state after : State}
    (awaited : Awaited pending state)
    (same : ∀ nodeAddress, after.server.awaits nodeAddress = state.server.awaits nodeAddress)
    (conn : after.server.resolveServerConn = state.server.resolveServerConn)
    (kept : pending ⊆ later) : Awaited later after := by
  intro nodeAddress awaits
  rw [same] at awaits
  obtain ⟨current, held, member⟩ := awaited nodeAddress awaits
  exact ⟨current, conn.trans held, kept member⟩

theorem awaits_of_values {server : Server}
    (settled : ∀ node ∈ server.nodes.values, node.resolving = false) (nodeAddress : UInt32) :
    server.awaits nodeAddress = false := by
  refine Bool.eq_false_iff.mpr fun awaits => ?_
  obtain ⟨node, found, resolving⟩ := Server.has_iff.mp awaits
  rw [settled node (FiniteMap.mem_values.mpr ⟨nodeAddress, found⟩)] at resolving
  cases resolving

theorem Awaited.ask {pending : List (ConnId × UInt32)} {before after : State} {client : UInt32}
    {m : Message} {writes : Nat → Bool} {outputs : List Effect}
    (awaited : Awaited pending before)
    (stepped : step before (.busMessage client m writes) = some (after, outputs))
    (admits : KeepsAwaited pending ⟨before, .busMessage client m writes, outputs, after⟩) :
    Awaited (pending ++ outputs.filterMap Effect.lookup) after := by
  simp only [step, Server.handleBusMessage, Option.some.injEq] at stepped
  split at stepped
  · cases stepped
    exact awaited.keep (fun _ => rfl) rfl (List.subset_append_left _ _)
  · rename_i remote
    have handles := before.server.handleToRemoteMessage_handles before.network writes
      (before.server.stamp client m)
    rcases outcome : before.server.handleToRemoteMessage before.network writes
      (before.server.stamp client m) with ⟨server, droped, effects⟩
    rw [outcome] at handles stepped
    cases stepped
    by_cases unresolved :
        (before.server.nodeOrNew m.remoteAddress.nodeAddr).notResolved = true
    · have handled := @Server.handleToRemoteMessage_of_notResolved before.server
        (before.server.stamp client m) unresolved before.network writes
      rw [outcome] at handled
      have about := before.server.nodeAddress_nodeOrNew m.remoteAddress.nodeAddr
      have known := Server.test_nodeOrNew Node.resolving (fun _ => rfl) before.server
        m.remoteAddress.nodeAddr
      have awaits_iff := Server.awaits_handleToUnresolved before.network writes
        (before.server.stamp client m) unresolved (by rw [about]; exact known)
      have lookups := before.server.mem_lookups_handleToUnresolved before.network writes
        (before.server.nodeOrNew m.remoteAddress.nodeAddr) (before.server.stamp client m)
      rw [about] at awaits_iff lookups
      change (server, droped, effects) = before.server.handleToUnresolved before.network writes
        (before.server.nodeOrNew m.remoteAddress.nodeAddr) (before.server.stamp client m) at handled
      rw [← handled] at awaits_iff lookups
      intro nodeAddress awaits
      have conn : server.resolveServerConn = before.server.resolveServerConn :=
        handles.resolveServerConn
      change ∃ current, server.resolveServerConn = some current ∧
        (current, nodeAddress) ∈ pending ++ effects.filterMap Effect.lookup
      rw [conn]
      rcases (awaits_iff nodeAddress).mp awaits with old | ⟨rfl, present⟩
      · obtain ⟨current, held, member⟩ := awaited nodeAddress old
        exact ⟨current, held, List.mem_append_left _ member⟩
      · obtain ⟨current, held⟩ := Option.isSome_iff_exists.mp present
        refine ⟨current, held, ?_⟩
        rcases admits (Bool.eq_false_iff.mpr remote) unresolved current held with sent | member
        · exact List.mem_append_right _ ((lookups _).mpr ⟨⟨held, rfl⟩, sent⟩)
        · exact List.mem_append_left _ member
    · exact awaited.keep (handles.awaits unresolved) handles.resolveServerConn
        (List.subset_append_left _ _)

theorem Awaited.update {pending : List (ConnId × UInt32)} {before after : State} {conn : ConnId}
    {resp : ResolveResponse} {outputs : List Effect} (awaited : Awaited pending before)
    (kind : resp.type = .kUpdateCache)
    (admits : KeepsAwaited pending
      ⟨before, .resolveServerMessage conn (.kResolveResponse resp), outputs, after⟩)
    (updated : ∀ nodeAddress, after.server.awaits nodeAddress =
      (before.server.putNode (before.server.updatedNode resp)).awaits nodeAddress)
    (current : after.server.resolveServerConn = before.server.resolveServerConn) :
    Awaited (pending.erase (conn, resp.nodeAddr)) after := by
  intro nodeAddress awaits
  rw [updated, Server.awaits_updatedNode] at awaits
  obtain ⟨old, unanswered⟩ := awaits
  obtain ⟨other, held, member⟩ := awaited nodeAddress old
  refine ⟨other, current.trans held, ?_⟩
  by_cases own : (other, nodeAddress) = (conn, resp.nodeAddr)
  · cases own
    exact admits kind (fun good => unanswered ⟨rfl, good⟩) old held
  · exact (List.mem_erase_of_ne own).mpr member

theorem Awaited.preserved {pending : List (ConnId × UInt32)} {before after : State}
    {event : Event} {outputs : List Effect} (awaited : Awaited pending before)
    (admits : KeepsAwaited pending ⟨before, event, outputs, after⟩)
    (stepped : step before event = some (after, outputs)) :
    Awaited (noteLookups pending ⟨before, event, outputs, after⟩) after := by
  have more : pending ⊆ pending ++ outputs.filterMap Effect.lookup := List.subset_append_left _ _
  cases step_transition stepped with
  | toLocal | toRemote => exact awaited.ask stepped admits
  | refused => exact awaited.keep (fun _ => rfl) rfl more
  | @ignored conn m other =>
      have still : stillPending pending (.resolveServerMessage conn m) = pending := by
        cases m with
        | other type => rfl
        | kResolveResponse resp => exact if_neg (other resp rfl)
      unfold noteLookups
      rw [still]
      exact awaited.keep (fun _ => rfl) rfl more
  | @selfUpdated conn resp kind _ =>
      have still : stillPending pending (.resolveServerMessage conn (.kResolveResponse resp)) =
          pending := if_neg (by rw [kind]; decide)
      unfold noteLookups
      rw [still]
      exact awaited.keep (fun _ => rfl) rfl more
  | @cacheUpdated conn resp kind _ | @cacheUpdatedConnecting conn resp _ kind _ _ =>
      have still : stillPending pending (.resolveServerMessage conn (.kResolveResponse resp)) =
          pending.erase (conn, resp.nodeAddr) := if_pos kind
      have left := awaited.update kind admits (fun _ => rfl) rfl
      unfold noteLookups
      rw [still]
      exact left.keep (fun _ => rfl) rfl (List.subset_append_left _ _)
  | resolveServerConnected _ _ =>
      intro nodeAddress awaits
      have settled := awaits_of_values (admits rfl) nodeAddress
      exact absurd (settled.symm.trans awaits) (by decide)
  | resolveServerLost found _ peer =>
      intro nodeAddress awaits
      have settled := awaits_of_values (admits _ found peer) nodeAddress
      exact absurd (settled.symm.trans awaits) (by decide)
  | @nodeConnected addr writes node _ _ _ found =>
      refine awaited.keep (Server.has_putNode_same ?_) rfl more
      rw [(node.setConnection_frame _ _).1, Server.has_of_find _ found, Node.resolving,
        (node.setConnection_flags _ _).2]
      rfl
  | nodeFailed _ _ given =>
      refine awaited.keep (given.has (fun _ => rfl) (fun _ => rfl)) ?_ more
      obtain ⟨_, _, _, _, _, rfl⟩ := given
      rfl
  | nodeLost _ _ _ given =>
      refine awaited.keep (given.has (fun _ => rfl) (fun _ => rfl)) ?_ more
      obtain ⟨_, _, _, _, _, rfl⟩ := given
      rfl
  | resolveServerFailed | foundClosed | retried => exact awaited.keep (fun _ => rfl) rfl more

theorem awaited_initial (messageServerPort : Int32) (resolveServerAddress : NetAddress) :
    Awaited [] (State.initial messageServerPort resolveServerAddress) := by
  intro nodeAddress awaits
  simp [State.initial, Server.create, Server.awaits, Server.has] at awaits

/-- In a run whose steps meet the condition, no node waits for an answer that is not
to come. -/
theorem awaited_run {messageServerPort : Int32} {resolveServerAddress : NetAddress}
    {history : List (EventMachine.Taken State Event Effect)} {state : State}
    (run : machine.Run (fun _ _ => True)
      (State.initial messageServerPort resolveServerAddress) history state)
    (keeps : EventMachine.Admitted noteLookups KeepsAwaited [] history) :
    Awaited (pendingLookups history) state :=
  run.noted_invariant keeps Awaited (awaited_initial messageServerPort resolveServerAddress)
    (fun _ _ awaited _ admits stepped => awaited.preserved admits stepped)

instance (pending : List (ConnId × UInt32)) : ∀ taken, Decidable (KeepsAwaited pending taken)
  | ⟨before, .busMessage _ m writes, _, _⟩ => inferInstanceAs (Decidable (_ → _ →
      ∀ conn ∈ before.server.resolveServerConn,
        (before.network.isOpen conn = true ∧ writes 0 = true) ∨
          (conn, m.remoteAddress.nodeAddr) ∈ pending))
  | ⟨_, .resolveServerMessage _ (.kResolveResponse _), _, _⟩ =>
      inferInstanceAs (Decidable (_ → _ → _ → _ → _))
  | ⟨before, .connected _ _, _, _⟩ =>
      inferInstanceAs (Decidable (_ → ∀ node ∈ before.server.nodes.values, _))
  | ⟨before, .disconnected conn, _, _⟩ => inferInstanceAs (Decidable
      (∀ connection ∈ before.network.conns.find conn,
        connection.peerAddr = before.server.resolveServerAddress →
          ∀ node ∈ before.server.nodes.values, node.resolving = false))
  | ⟨_, .resolveServerMessage _ (.other _), _, _⟩ | ⟨_, .connectError _, _, _⟩
  | ⟨_, .foundClosed _, _, _⟩ | ⟨_, .retry _, _, _⟩ => inferInstanceAs (Decidable True)

/-- The resolve server does not know the node. -/
def someFailure : ResolveServerMessage :=
  .kResolveResponse ⟨.kNodeNotFound, .kUpdateCache, 9, 0, [], []⟩

/-- The resolve server is lost, connected to again, and then asked for a node. -/
theorem awaited_run_lookup :
    ∃ history state, machine.Run (fun _ _ => True) (State.initial 8123 someResolveServer)
        history state ∧ state.server.awaits 9 = true ∧ Awaited (pendingLookups history) state := by
  obtain ⟨history, state, run, both⟩ := EventMachine.exists_run_of_any
    machine (fun _ _ => True) (State.initial 8123 someResolveServer)
    [.connected someResolveServer (fun _ => true), .foundClosed 0, .disconnected 0,
      .retry someResolveServer, .connected someResolveServer (fun _ => true),
      .busMessage 1 someMessage (fun _ => true)]
    (fun reached => decide (reached.2.server.awaits 9 = true ∧
      EventMachine.Admitted noteLookups KeepsAwaited [] reached.1)) (by decide)
  obtain ⟨awaits, keeps⟩ := of_decide_eq_true both
  exact ⟨history, state, run, awaits, awaited_run run keeps⟩

/-- The resolve server does not know a node. Nothing is pending, yet the node stays
in `kResolving`, and its next message only waits. -/
theorem not_awaited_refused :
    ∃ history state, machine.Run (fun _ _ => True) (State.initial 8123 someResolveServer)
        history state ∧ pendingLookups history = [] ∧ ¬ Awaited (pendingLookups history) state ∧
      (step state (.busMessage 1 someMessage (fun _ => true))).map Prod.snd = some [] := by
  obtain ⟨history, state, run, stale⟩ := EventMachine.exists_run_of_any
    machine (fun _ _ => True) (State.initial 8123 someResolveServer)
    [.connected someResolveServer (fun _ => true), .busMessage 1 someMessage (fun _ => true),
      .resolveServerMessage 0 someFailure]
    (fun reached => decide (pendingLookups reached.1 = [] ∧
      reached.2.server.awaits 9 = true ∧
      (step reached.2 (.busMessage 1 someMessage (fun _ => true))).map Prod.snd = some []))
    (by decide)
  obtain ⟨none, awaits, waits⟩ := of_decide_eq_true stale
  refine ⟨history, state, run, none, fun awaited => ?_, waits⟩
  obtain ⟨conn, _, member⟩ := awaited 9 awaits
  rw [none] at member
  cases member

end Daemon

end Cpmd
