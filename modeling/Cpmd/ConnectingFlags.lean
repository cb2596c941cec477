import Cpmd.DaemonProperties
import Cpmd.NetworkProperties
import Cpmd.Library.Observer

/-! The flag by which a node counts as being connected to, and the connect attempts
that were made for it and have not been answered. -/

set_option autoImplicit false

namespace Cpmd

open Library

/-- Whether a node is known and marked as connecting. -/
def Server.marked (server : Server) (nodeAddress : UInt32) : Bool :=
  server.has Node.connecting nodeAddress

theorem Server.marked_updatedNode (server : Server) (resp : ResolveResponse)
    (nodeAddress : UInt32) :
    (server.putNode (server.updatedNode resp)).marked nodeAddress =
      server.marked nodeAddress := by
  apply has_putNode_same
  rw [nodeAddress_updatedNode]
  rcases server.updatedNode_cases resp with ⟨old, found, _, same⟩ |
    ⟨old, found, _, _, same | same⟩ | ⟨missing, same⟩
  · rw [same, has_of_find _ found]
    rfl
  · rw [same, has_of_find _ found]
    rfl
  · rw [same, has_of_find _ found]
  · rw [same, has, missing]
    rfl

/-- Only where a message makes the server connect is the node's flag set. -/
theorem Server.HandlesToRemote.marked {server after : Server} {network : Network}
    {writes : Nat → Bool} {m : Message} {droped : Option Message} {effects : List Effect}
    (handles : server.HandlesToRemote network writes m (after, droped, effects)) :
    ((∀ addr, .connectTo addr ∉ effects) ∧
      ∀ nodeAddress, after.marked nodeAddress = server.marked nodeAddress) ∨
    ((∃ addr, .connectTo addr ∈ effects) ∧ ∀ nodeAddress, after.marked nodeAddress =
      (nodeAddress == m.remoteAddress.nodeAddr || server.marked nodeAddress)) := by
  cases handles with
  | @wrote node conn found _ _ _ _ =>
      refine .inl ⟨by simp, has_putNode_same ?_⟩
      rw [server.keyed found, has_of_find _ found]
  | @cached node found =>
      subst found
      refine .inl ⟨by simp, has_putNode_same ?_⟩
      rw [Node.nodeAddress_cacheMessage, nodeAddress_nodeOrNew]
      exact test_nodeOrNew Node.connecting (fun _ => rfl) _ _
  | @requested node requests found _ requested =>
      subst found
      refine .inl ⟨?_, has_putNode_same ?_⟩
      · rcases requested with rfl | ⟨_, _, _, _, rfl⟩ <;> simp
      · rw [Node.nodeAddress_cacheMessage, Node.nodeAddress_setResolveState,
          nodeAddress_nodeOrNew]
        exact test_nodeOrNew Node.connecting (fun _ => rfl) _ _
  | @connects node known found _ _ =>
      refine .inr ⟨⟨_, List.mem_cons_of_mem _ (List.mem_singleton.mpr rfl)⟩, fun nodeAddress => ?_⟩
      rw [Server.marked, has_putNode, Node.nodeAddress_setConnecting, server.keyed found]
      by_cases own : nodeAddress = m.remoteAddress.nodeAddr
      · simp [own, Node.setConnecting]
      · simp only [if_neg own, beq_eq_false_iff_ne.mpr own, Bool.false_or]
        rfl

def Effect.target : Effect → Option NetAddress
  | .connectTo addr => some addr
  | .registered _ _ | .wrote _ _ _ | .requested _ _ | .close _ | .connectLater _ => none

theorem Network.attempts_carryOutAll (network : Network) (effects : List Effect) :
    (network.carryOutAll effects).attempts =
      network.attempts ++ effects.filterMap Effect.target := by
  induction effects generalizing network with
  | nil => simp [carryOutAll]
  | cons effect effects ih =>
      have rest := ih (network.carryOut effect)
      unfold carryOutAll at rest ⊢
      rw [List.foldl_cons, rest]
      cases effect with
      | connectTo addr => simp [carryOut, Effect.target]
      | close conn =>
          rw [List.filterMap_cons_none rfl, carryOut, attempts_close]
      | registered | wrote | requested | connectLater =>
          rw [List.filterMap_cons_none rfl]
          rfl

namespace Daemon

/-- The node that an event is about. -/
def Event.node : Event → Option UInt32
  | .busMessage _ m _ => some m.remoteAddress.nodeAddr
  | .resolveServerMessage _ (.kResolveResponse resp) => some resp.nodeAddr
  | .resolveServerMessage _ (.other _) | .connected _ _ | .connectError _ | .foundClosed _
  | .disconnected _ | .retry _ => none

/-- The address whose attempt an event answers. -/
def Event.answers : Event → Option NetAddress
  | .connected addr _ | .connectError addr => some addr
  | .busMessage _ _ _ | .resolveServerMessage _ _ | .foundClosed _ | .disconnected _
  | .retry _ => none

def Event.fails : Event → Bool
  | .connectError _ => true
  | .busMessage _ _ _ | .resolveServerMessage _ _ | .connected _ _ | .foundClosed _
  | .disconnected _ | .retry _ => false

/-- A `ConnectTo` without an answer so far, and the node it was issued for. -/
structure Attempt where
  node : Option UInt32
  addr : NetAddress
deriving DecidableEq

/-- Attempts to one address are answered in the order in which they were made. -/
def unanswered (outstanding : List Attempt) (event : Event) : List Attempt :=
  match event.answers with
  | some addr => outstanding.eraseP (·.addr == addr)
  | none => outstanding

def noteAttempts (outstanding : List Attempt)
    (taken : EventMachine.Taken State Event Effect) : List Attempt :=
  unanswered outstanding taken.event ++
    (taken.outputs.filterMap Effect.target).map (Attempt.mk taken.event.node)

/-- The attempts of a run that are outstanding at its end. -/
def outstanding (resolveServerAddress : NetAddress)
    (history : List (EventMachine.Taken State Event Effect)) : List Attempt :=
  EventMachine.noted noteAttempts [⟨none, resolveServerAddress⟩] history

theorem map_addr_unanswered (attempts : List Attempt) (network : Network) (event : Event)
    (same : attempts.map Attempt.addr = network.attempts) :
    (unanswered attempts event).map Attempt.addr = (receive network event).attempts := by
  have answered (addr : NetAddress) :
      (attempts.eraseP (·.addr == addr)).map Attempt.addr = network.attempts.erase addr := by
    rw [← same, List.erase_eq_eraseP', List.eraseP_map]
    rfl
  cases event with
  | connected addr writes | connectError addr => exact answered addr
  | foundClosed conn => exact same.trans (Network.attempts_close _ _).symm
  | busMessage | resolveServerMessage | disconnected | retry => exact same

theorem outstanding_addrs {messageServerPort : Int32} {resolveServerAddress : NetAddress}
    {guard : State → Event → Prop} {history : List (EventMachine.Taken State Event Effect)}
    {state : State}
    (run : machine.Run guard (State.initial messageServerPort resolveServerAddress) history
      state) :
    (outstanding resolveServerAddress history).map Attempt.addr = state.network.attempts := by
  induction run with
  | nil => rfl
  | snoc _ _ stepped ih =>
      unfold outstanding at ih ⊢
      rw [EventMachine.noted_snoc, step_network stepped, Network.attempts_carryOutAll,
        noteAttempts, List.map_append, List.map_map, map_addr_unanswered _ _ _ ih]
      congr 1
      exact List.map_id _

/-- The failure of an attempt by which `OnConnectToRemoteNodeError` finds this node. -/
def FailsFor (nodeAddress : UInt32) (state : State) (event : Event) : Prop :=
  event.fails = true ∧ ∃ addr ∈ event.answers, addr ≠ state.server.resolveServerAddress ∧
    state.server.nodesIndex.find addr = some nodeAddress

/-- A message makes the daemon connect to this node. -/
def ConnectsFor (nodeAddress : UInt32) (event : Event) (outputs : List Effect) : Prop :=
  (∃ client m writes, event = .busMessage client m writes) ∧ event.node = some nodeAddress ∧
    ∃ addr, .connectTo addr ∈ outputs

theorem marked_iff_of_same {state after : State} {event : Event} {outputs : List Effect}
    {nodeAddress : UInt32}
    (same : after.server.marked nodeAddress = state.server.marked nodeAddress)
    (unconnected : ¬ ConnectsFor nodeAddress event outputs)
    (unfailed : ¬ FailsFor nodeAddress state event) :
    after.server.marked nodeAddress = true ↔
      ConnectsFor nodeAddress event outputs ∨
        (state.server.marked nodeAddress = true ∧ ¬ FailsFor nodeAddress state event) := by
  simp [same, unconnected, unfailed]

theorem not_failsFor {nodeAddress : UInt32} {state : State} {event : Event}
    (succeeds : event.fails = false) : ¬ FailsFor nodeAddress state event := by
  intro failed
  rw [failed.1] at succeeds
  cases succeeds

theorem not_connectsFor {nodeAddress : UInt32} {event : Event} {outputs : List Effect}
    (other : ∀ client m writes, event ≠ .busMessage client m writes) :
    ¬ ConnectsFor nodeAddress event outputs := by
  intro connects
  obtain ⟨⟨client, m, writes, same⟩, _⟩ := connects
  exact other client m writes same

/-- The flag is set in one place and cleared in one. -/
theorem Transition.marked_iff {state after : State} {event : Event} {outputs : List Effect}
    (transition : Transition state event after outputs) (nodeAddress : UInt32) :
    after.server.marked nodeAddress = true ↔
      ConnectsFor nodeAddress event outputs ∨
        (state.server.marked nodeAddress = true ∧ ¬ FailsFor nodeAddress state event) := by
  cases transition with
  | toLocal _ =>
      refine marked_iff_of_same rfl ?_ (not_failsFor rfl)
      intro refused
      obtain ⟨_, _, addr, ⟨⟩⟩ := refused
  | @toRemote client m writes _ _ _ _ handles =>
      rcases handles.marked with ⟨silent, same⟩ | ⟨connects, marks⟩
      · refine marked_iff_of_same (same nodeAddress) ?_ (not_failsFor rfl)
        intro refused
        obtain ⟨_, _, addr, member⟩ := refused
        exact silent addr member
      · have unfailed : ¬ FailsFor nodeAddress state (.busMessage client m writes) :=
          not_failsFor rfl
        have about : (Event.busMessage client m writes).node = some nodeAddress ↔
            nodeAddress = m.remoteAddress.nodeAddr := by
          rw [eq_comm (a := nodeAddress)]
          exact Option.some_inj
        simp [marks, ConnectsFor, about, connects, unfailed]
  | refused | ignored | selfUpdated | resolveServerConnected | foundClosed | resolveServerLost
  | retried => exact marked_iff_of_same rfl (not_connectsFor (by simp)) (not_failsFor rfl)
  | cacheUpdated _ _ | cacheUpdatedConnecting _ _ _ _ =>
      exact marked_iff_of_same (state.server.marked_updatedNode _ nodeAddress)
        (not_connectsFor (by simp)) (not_failsFor rfl)
  | @nodeConnected addr writes node _ _ _ found =>
      refine marked_iff_of_same ?_ (not_connectsFor (by simp)) (not_failsFor rfl)
      apply Server.has_putNode_same
      rw [(node.setConnection_frame _ _).1, (node.setConnection_flags _ _).1,
        Server.has_of_find _ found]
  | resolveServerFailed _ =>
      refine marked_iff_of_same rfl (not_connectsFor (by simp)) ?_
      intro answered
      obtain ⟨_, addr, ⟨⟩, different, _⟩ := answered
      exact different rfl
  | @nodeFailed addr server _ different given =>
      obtain ⟨node, netAddress, indexed, found, _, rfl⟩ := given
      have failed : FailsFor nodeAddress state (.connectError addr) ↔
          nodeAddress = node.nodeAddress := by
        simp [FailsFor, Event.fails, Event.answers, different, indexed, eq_comm]
      change (state.server.putNode (node.setConnecting false)).marked nodeAddress = true ↔ _
      rw [Server.marked, Server.has_putNode, Node.nodeAddress_setConnecting, failed]
      by_cases own : nodeAddress = node.nodeAddress
      · simp [own, Node.setConnecting, ConnectsFor]
      · simp [own, ConnectsFor, Server.marked]
  | @nodeLost conn connection server _ _ _ given =>
      exact marked_iff_of_same (given.has (fun _ => rfl) (fun _ => rfl) nodeAddress)
        (not_connectsFor (by simp)) (not_failsFor rfl)

/-- Each node marked as connecting has an attempt outstanding that was made for it. -/
def Flagged (attempts : List Attempt) (state : State) : Prop :=
  ∀ nodeAddress, state.server.marked nodeAddress = true →
    ∃ attempt ∈ attempts, attempt.node = some nodeAddress

/-- An attempt made for a node that is marked as connecting is answered by a failure
that clears the mark, or was not the only one outstanding for the node. -/
def KeepsFlags (attempts : List Attempt)
    (taken : EventMachine.Taken State Event Effect) : Prop :=
  ∀ addr ∈ taken.event.answers, ∀ attempt ∈ attempts.find? (·.addr == addr),
    ∀ nodeAddress ∈ attempt.node, taken.before.server.marked nodeAddress = true →
      FailsFor nodeAddress taken.before taken.event ∨
        ∃ other ∈ attempts.eraseP (·.addr == addr), other.node = some nodeAddress

theorem mem_unanswered_of_node {attempts : List Attempt} {event : Event} {attempt : Attempt}
    (member : attempt ∈ attempts) :
    attempt ∈ unanswered attempts event ∨
      ∃ addr ∈ event.answers, attempts.find? (·.addr == addr) = some attempt := by
  unfold unanswered
  cases event.answers with
  | none => exact .inl member
  | some addr =>
      rcases List.exists_or_eq_self_of_eraseP (·.addr == addr) attempts with
        kept | ⟨first, before, behind, others, matching, split, left⟩
      · dsimp only
        exact .inl (kept.symm ▸ member)
      · dsimp only
        rw [left]
        rw [split, List.mem_append, List.mem_cons] at member
        rcases member with early | own | late
        · exact .inl (List.mem_append_left _ early)
        · subst own
          refine .inr ⟨addr, rfl, ?_⟩
          rw [split, List.find?_append, List.find?_eq_none.mpr others, Option.none_or]
          exact List.find?_cons_of_pos matching
        · exact .inl (List.mem_append_right _ late)

theorem mem_noteAttempts {attempts : List Attempt}
    {taken : EventMachine.Taken State Event Effect} {attempt : Attempt} :
    attempt ∈ noteAttempts attempts taken ↔ attempt ∈ unanswered attempts taken.event ∨
      (attempt.node = taken.event.node ∧ .connectTo attempt.addr ∈ taken.outputs) := by
  have target (effect : Effect) :
      effect.target = some attempt.addr ↔ effect = .connectTo attempt.addr := by
    cases effect <;> simp [Effect.target]
  obtain ⟨node, addr⟩ := attempt
  rw [noteAttempts, List.mem_append]
  simp only [List.mem_map, List.mem_filterMap, Attempt.mk.injEq]
  constructor
  · intro attempted
    rcases attempted with kept | ⟨_, ⟨effect, member, made⟩, rfl, rfl⟩
    · exact .inl kept
    · exact .inr ⟨rfl, (target effect).mp made ▸ member⟩
  · intro attempted
    rcases attempted with kept | ⟨rfl, member⟩
    · exact .inl kept
    · exact .inr ⟨addr, ⟨_, member, rfl⟩, rfl, rfl⟩

/-- The step rule, exact: from a state in which all flags are justified, the step
leaves them so if and only if it meets the condition. -/
theorem Flagged.step_iff {attempts : List Attempt}
    {taken : EventMachine.Taken State Event Effect} (flagged : Flagged attempts taken.before)
    (stepped : step taken.before taken.event = some (taken.after, taken.outputs)) :
    Flagged (noteAttempts attempts taken) taken.after ↔ KeepsFlags attempts taken := by
  have marked_iff := (step_transition stepped).marked_iff
  constructor
  · intro still addr answers attempt first nodeAddress own marked
    by_cases fails : FailsFor nodeAddress taken.before taken.event
    · exact .inl fails
    · obtain ⟨other, member, same⟩ := still nodeAddress
        ((marked_iff nodeAddress).mpr (.inr ⟨marked, fails⟩))
      refine .inr ⟨other, ?_, same⟩
      rcases mem_noteAttempts.mp member with kept | ⟨about, _⟩
      · rwa [unanswered, Option.mem_def.mp answers] at kept
      · exfalso
        rw [about] at same
        cases event : taken.event <;> simp [event, Event.answers, Event.node] at answers same
  · intro keeps nodeAddress marked
    rcases (marked_iff nodeAddress).mp marked with ⟨_, about, addr, connects⟩ | ⟨old, unfailed⟩
    · exact ⟨⟨some nodeAddress, addr⟩, mem_noteAttempts.mpr (.inr ⟨about.symm, connects⟩), rfl⟩
    · obtain ⟨attempt, member, own⟩ := flagged nodeAddress old
      rcases mem_unanswered_of_node member with kept | ⟨addr, answers, first⟩
      · exact ⟨attempt, mem_noteAttempts.mpr (.inl kept), own⟩
      · rcases keeps addr answers attempt first nodeAddress own old with
          fails | ⟨other, left, same⟩
        · exact absurd fails unfailed
        · refine ⟨other, mem_noteAttempts.mpr (.inl ?_), same⟩
          rwa [unanswered, Option.mem_def.mp answers]

theorem flagged_initial (messageServerPort : Int32) (resolveServerAddress : NetAddress) :
    Flagged [⟨none, resolveServerAddress⟩]
      (State.initial messageServerPort resolveServerAddress) := by
  intro nodeAddress marked
  simp [State.initial, Server.create, Server.marked, Server.has] at marked

/-- A resolved node with no connection and no attempt is connected to for the next
message. -/
theorem Flagged.connects {attempts : List Attempt} {state : State}
    (flagged : Flagged attempts state) {nodeAddress : UInt32} {node : Node}
    (found : state.server.nodes.find nodeAddress = some node) (known : node.resolved = true)
    (disconnected : node.connected state.network = false)
    (idle : ∀ attempt ∈ attempts, attempt.node ≠ some nodeAddress) (client : UInt32)
    {m : Message} (writes : Nat → Bool) (remote : state.server.isLocal m.remoteAddress = false)
    (about : m.remoteAddress.nodeAddr = nodeAddress) :
    ∃ after outputs addr, step state (.busMessage client m writes) = some (after, outputs) ∧
      node.netAddress = some addr ∧ .connectTo addr ∈ outputs := by
  have unmarked : node.connecting = false := by
    rw [← Server.has_of_find Node.connecting found]
    refine Bool.eq_false_iff.mpr fun marked => ?_
    obtain ⟨attempt, member, own⟩ := flagged nodeAddress marked
    exact idle attempt member own
  subst about
  have handled := @Server.handleToRemoteMessage_of_idle state.server state.network
    (state.server.stamp client m) node writes found known disconnected unmarked
  refine ⟨_, _, node.addressOf known, rfl, (Option.some_get _).symm, ?_⟩
  simp [Server.handleBusMessage, remote, handled]

/-- In a run in which no successful answer is the last for a node marked as
connecting, no such mark is stale, and nodes that were lost are connected to again. -/
theorem flagged_run {messageServerPort : Int32} {resolveServerAddress : NetAddress}
    {history : List (EventMachine.Taken State Event Effect)} {state : State}
    (run : machine.Run (fun _ _ => True)
      (State.initial messageServerPort resolveServerAddress) history state)
    (keeps : EventMachine.Admitted noteAttempts KeepsFlags [⟨none, resolveServerAddress⟩]
      history) :
    Flagged (outstanding resolveServerAddress history) state ∧
      ∀ nodeAddress node, state.server.nodes.find nodeAddress = some node →
        node.resolved = true → node.connected state.network = false →
        (∀ attempt ∈ outstanding resolveServerAddress history,
          attempt.node ≠ some nodeAddress) →
        ∀ client m writes, state.server.isLocal m.remoteAddress = false →
          m.remoteAddress.nodeAddr = nodeAddress →
          ∃ after outputs addr, step state (.busMessage client m writes) = some (after, outputs) ∧
            node.netAddress = some addr ∧ .connectTo addr ∈ outputs := by
  have flagged : Flagged (outstanding resolveServerAddress history) state :=
    run.noted_invariant keeps Flagged (flagged_initial messageServerPort resolveServerAddress)
      (fun _ _ flagged _ admits stepped => (flagged.step_iff stepped).mpr admits)
  refine ⟨flagged, ?_⟩
  intro nodeAddress node found known disconnected idle client m writes remote about
  exact flagged.connects found known disconnected idle client writes remote about

instance (nodeAddress : UInt32) (state : State) (event : Event) :
    Decidable (FailsFor nodeAddress state event) :=
  inferInstanceAs (Decidable (_ ∧ ∃ addr ∈ event.answers, _ ∧ _))

instance (attempts : List Attempt) (taken : EventMachine.Taken State Event Effect) :
    Decidable (KeepsFlags attempts taken) :=
  -- not by running through all node addresses, of which there are finitely many
  letI _ofNode (node : Option UInt32) (holds : UInt32 → Prop) [DecidablePred holds] :
      Decidable (∀ nodeAddress ∈ node, holds nodeAddress) := Option.decidableForallMem node
  inferInstanceAs (Decidable (∀ addr ∈ taken.event.answers,
    ∀ attempt ∈ attempts.find? (·.addr == addr), ∀ nodeAddress ∈ attempt.node,
      taken.before.server.marked nodeAddress = true →
        FailsFor nodeAddress taken.before taken.event ∨
          ∃ other ∈ attempts.eraseP (·.addr == addr), other.node = some nodeAddress))

/-- A node is looked up, connected to and lost; an attempt made for a message fails,
and the next message makes another. -/
def lostAndFailed : List Event :=
  [.connected someResolveServer (fun _ => true), .busMessage 1 someMessage (fun _ => true),
    .resolveServerMessage 0 someAnswer, .connected someNodeAddr (fun _ => true),
    .foundClosed 1, .disconnected 1, .busMessage 1 someMessage (fun _ => true),
    .connectError someNodeAddr, .busMessage 1 someMessage (fun _ => true)]

theorem flagged_run_failed :
    ∃ history state, machine.Run (fun _ _ => True) (State.initial 8123 someResolveServer)
        history state ∧ state.server.marked 9 = true ∧
      Flagged (outstanding someResolveServer history) state := by
  obtain ⟨history, state, run, both⟩ := EventMachine.exists_run_of_any
    machine (fun _ _ => True) (State.initial 8123 someResolveServer) lostAndFailed
    (fun reached => decide (reached.2.server.marked 9 = true ∧
      EventMachine.Admitted noteAttempts KeepsFlags [⟨none, someResolveServer⟩] reached.1))
    (by decide +kernel)
  obtain ⟨marked, keeps⟩ := of_decide_eq_true both
  exact ⟨history, state, run, marked, (flagged_run run keeps).1⟩

/-- A second connection to a node is made for a message, and lost. The node still
counts as being connected to, and its next message only waits. -/
theorem not_flagged_reconnected :
    ∃ history state, machine.Run (fun _ _ => True) (State.initial 8123 someResolveServer)
        history state ∧ state.network.attempts = [] ∧
      ¬ Flagged (outstanding someResolveServer history) state ∧
      (step state (.busMessage 1 someMessage (fun _ => true))).map Prod.snd = some [] := by
  obtain ⟨history, state, run, stale⟩ := EventMachine.exists_run_of_any
    machine (fun _ _ => True) (State.initial 8123 someResolveServer)
    [.connected someResolveServer (fun _ => true), .busMessage 1 someMessage (fun _ => true),
      .resolveServerMessage 0 someAnswer, .connected someNodeAddr (fun _ => true),
      .foundClosed 1, .disconnected 1, .busMessage 1 someMessage (fun _ => true),
      .connected someNodeAddr (fun _ => true), .foundClosed 2, .disconnected 2]
    (fun reached => decide (reached.2.network.attempts = [] ∧
      reached.2.server.marked 9 = true ∧
      (step reached.2 (.busMessage 1 someMessage (fun _ => true))).map Prod.snd = some []))
    (by decide)
  obtain ⟨none, marked, waits⟩ := of_decide_eq_true stale
  refine ⟨history, state, run, none, fun flagged => ?_, waits⟩
  obtain ⟨attempt, member, _⟩ := flagged 9 marked
  have made : attempt.addr ∈ (outstanding someResolveServer history).map Attempt.addr :=
    List.mem_map_of_mem member
  rw [outstanding_addrs run, none] at made
  cases made

end Daemon

end Cpmd
