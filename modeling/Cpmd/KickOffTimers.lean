import Cpmd.LookupAuthentication

/-! The timers of `KickOffNode`, and the connections they are bound to. -/

set_option autoImplicit false

namespace Cpmd.Service

open Library

/-- No request is processed on a connection that is closed. -/
def RequestsOpen (state : State) : Event → Prop
  | .request conn _ _ => ∀ connection ∈ state.conns.find conn, connection.closed = false
  | _ => True

/-- The connection's context is the id of a timer that is pending and bound to it. -/
def AwaitsKickOff (state : State) (conn : Nat) (connection : ServiceConnection) : Prop :=
  ∃ timer, connection.context = .timerId timer ∧ state.timers.find timer = some conn

/-- The connection's context is a node address, and no timer is bound to it. -/
def SafeFromKickOff (state : State) (conn : Nat) (connection : ServiceConnection) : Prop :=
  (∃ nodeAddr, connection.context = .nodeAddr nodeAddr) ∧
    ∀ timer, state.timers.find timer ≠ some conn

/-- What a step does to the timers. -/
inductive Retimes (before : State) : Event → State → Prop where
  | started {peerAddr : NetAddress} {after : State} :
      after.timers = before.timers.assign before.nextTimer before.nextConn →
      after.nextTimer = before.nextTimer + 1 → Retimes before (.newConnection peerAddr) after
  | kept {event : Event} {after : State} :
      (∀ timer, event ≠ .kickOff timer) →
      (∀ conn connection, before.conns.find conn = some connection →
        ∃ moved, after.conns.find conn = some moved ∧ moved.context = connection.context) →
      after.timers = before.timers → after.nextTimer = before.nextTimer →
      Retimes before event after
  | removed {conn timer : Nat} {req : ResolveRequest} {written : Bool} {after : State}
      {connection : ServiceConnection} {nodeAddr : UInt32} :
      before.conns.find conn = some connection → connection.context = .timerId timer →
      after.conns =
        before.conns.assign conn { connection with context := .nodeAddr nodeAddr } →
      after.timers = before.timers.remove timer → after.nextTimer = before.nextTimer →
      Retimes before (.request conn req written) after
  | fired {conn timer : Nat} {connection : ServiceConnection} {after : State} :
      before.timers.find timer = some conn → before.conns.find conn = some connection →
      after.conns = before.conns.assign conn { connection with closed := true } →
      after.timers = before.timers.remove timer → after.nextTimer = before.nextTimer →
      Retimes before (.kickOff timer) after

theorem contexts_assign {conns : FiniteMap Nat ServiceConnection} {other : Nat}
    {known : ServiceConnection} (moved : ServiceConnection) (there : conns.find other = some known)
    (same : moved.context = known.context) (conn : Nat) (connection : ServiceConnection)
    (found : conns.find conn = some connection) :
    ∃ kept, (conns.assign other moved).find conn = some kept ∧
      kept.context = connection.context := by
  rw [FiniteMap.find_assign]
  split
  · rename_i own
    rw [own, there] at found
    cases found
    exact ⟨moved, rfl, same⟩
  · exact ⟨connection, found, rfl⟩

theorem step_retimes {before after : State} {event : Event} {outputs : List Replied}
    (stepped : step before event = some (after, outputs)) : Retimes before event after := by
  cases event with
  | newConnection peerAddr =>
      cases stepped
      exact .started rfl rfl
  | request conn req written =>
      simp only [step] at stepped
      split at stepped
      · cases stepped
      · rename_i connection found
        split at stepped
        · cases stepped
        · rename_i handled returned
          cases stepped
          rcases ResolveServer.onMessage_cases returned with
            ⟨node, timer, _, _, held, rfl⟩ | ⟨_, context, timer, _, _⟩
          · simp only [Bool.not_true, Bool.or_false]
            exact .removed found held rfl rfl rfl
          · rw [timer]
            exact .kept (by simp) (contexts_assign _ found context) rfl rfl
  | kickOff timer =>
      simp only [step] at stepped
      split at stepped
      · cases stepped
      · rename_i conn pending
        split at stepped
        · cases stepped
        · rename_i connection found
          cases stepped
          exact .fired pending found rfl rfl rfl
  | foundClosed conn =>
      simp only [step] at stepped
      split at stepped
      · cases stepped
      · rename_i connection found
        cases stepped
        exact .kept (by simp) (contexts_assign _ found rfl) rfl rfl
  | close conn =>
      simp only [step] at stepped
      split at stepped
      · cases stepped
      · rename_i connection found
        split at stepped
        · cases stepped
          exact .kept (by simp) (contexts_assign _ found rfl) rfl rfl
        · cases stepped

/-- A pending timer is bound to a connection whose context is its id, and an open
connection with a timer id has that timer pending. -/
structure Timed (state : State) : Prop where
  occupied : ∀ conn connection, state.conns.find conn = some connection →
    connection.context ≠ .none
  numbered : ∀ timer conn, state.timers.find timer = some conn → timer < state.nextTimer
  bound : ∀ timer conn, state.timers.find timer = some conn →
    ∃ connection, state.conns.find conn = some connection ∧
      connection.context = .timerId timer
  pending : ∀ conn connection timer, state.conns.find conn = some connection →
    connection.closed = false → connection.context = .timerId timer →
    state.timers.find timer = some conn

theorem timed_initial (conf : ResolveServerConf) : Timed (State.initial conf) where
  occupied := by simp [State.initial]
  numbered := by simp [State.initial]
  bound := by simp [State.initial]
  pending := by simp [State.initial]

theorem Timed.numbered_step {before after : State} {event : Event} (timed : Timed before)
    (retimes : Retimes before event after) {timer conn : Nat}
    (found : after.timers.find timer = some conn) : timer < after.nextTimer := by
  cases retimes with
  | started timers next =>
      rw [timers, FiniteMap.find_assign] at found
      rw [next]
      split at found
      · rename_i newest
        rw [newest]
        exact Nat.lt_succ_self _
      · exact Nat.lt_succ_of_lt (timed.numbered timer conn found)
  | kept _ _ timers next =>
      rw [timers] at found
      rw [next]
      exact timed.numbered timer conn found
  | removed _ _ _ timers next | fired _ _ _ timers next =>
      rw [timers, FiniteMap.find_remove] at found
      rw [next]
      split at found
      · cases found
      · exact timed.numbered timer conn found

theorem Timed.bound_step {before after : State} {event : Event} {outputs : List Replied}
    (timed : Timed before) (fresh : Fresh before)
    (stepped : step before event = some (after, outputs)) {timer conn : Nat}
    (found : after.timers.find timer = some conn) :
    ∃ connection, after.conns.find conn = some connection ∧
      connection.context = .timerId timer := by
  cases step_retimes stepped with
  | started timers _ =>
      cases stepped
      rw [FiniteMap.find_assign] at found
      simp only [FiniteMap.find_assign]
      split at found
      · rename_i newest
        cases found
        exact ⟨_, if_pos rfl, by rw [newest]⟩
      · obtain ⟨connection, there, context⟩ := timed.bound timer conn found
        rw [if_neg (Nat.ne_of_lt (fresh conn connection there))]
        exact ⟨connection, there, context⟩
  | kept _ contexts timers _ =>
      rw [timers] at found
      obtain ⟨connection, there, context⟩ := timed.bound timer conn found
      obtain ⟨moved, held, same⟩ := contexts conn connection there
      exact ⟨moved, held, same.trans context⟩
  | @removed other last _ _ _ known _ held own conns timers _ =>
      rw [timers, FiniteMap.find_remove] at found
      split at found
      · cases found
      · rename_i different
        obtain ⟨connection, there, context⟩ := timed.bound timer conn found
        rw [conns, FiniteMap.find_assign, if_neg]
        · exact ⟨connection, there, context⟩
        · intro same
          subst same
          rw [held] at there
          cases there
          rw [own] at context
          cases context
          exact different rfl
  | @fired _ _ known _ _ held conns timers _ =>
      rw [timers, FiniteMap.find_remove] at found
      split at found
      · cases found
      · obtain ⟨connection, there, context⟩ := timed.bound timer conn found
        rw [conns]
        obtain ⟨moved, kept, same⟩ :=
          contexts_assign { known with closed := true } held rfl conn connection there
        exact ⟨moved, kept, same.trans context⟩

/-- The timer of a connection that stays open, and is not initialised, stays. -/
theorem Timed.pending_step {before after : State} {event : Event} (timed : Timed before)
    (allowed : RequestsOpen before event) (retimes : Retimes before event after)
    {conn timer : Nat} {connection : ServiceConnection}
    (pending : before.timers.find timer = some conn)
    (found : after.conns.find conn = some connection) (opened : connection.closed = false)
    (context : connection.context = .timerId timer) :
    after.timers.find timer = some conn := by
  cases retimes with
  | started timers _ =>
      rw [timers, FiniteMap.find_assign,
        if_neg (Nat.ne_of_lt (timed.numbered timer conn pending))]
      exact pending
  | kept _ _ timers _ =>
      rw [timers]
      exact pending
  | @removed other last _ _ _ known nodeAddr held own conns timers _ =>
      rw [timers, FiniteMap.find_remove, if_neg]
      · exact pending
      · intro same
        subst same
        have theirs := timed.pending other known timer held (allowed known held) own
        rw [pending] at theirs
        cases theirs
        rw [conns, FiniteMap.find_assign, if_pos rfl] at found
        cases found
        cases context
  | @fired other last known _ bound held conns timers _ =>
      rw [timers, FiniteMap.find_remove, if_neg]
      · exact pending
      · intro same
        subst same
        rw [pending] at bound
        cases bound
        rw [conns, FiniteMap.find_assign, if_pos rfl] at found
        cases found
        cases opened

theorem Timed.preserved {before after : State} {event : Event} {outputs : List Replied}
    (timed : Timed before) (fresh : Fresh before) (allowed : RequestsOpen before event)
    (stepped : step before event = some (after, outputs)) : Timed after := by
  have transition := step_transition stepped
  have retimes := step_retimes stepped
  refine ⟨transition.occupied timed.occupied, fun _ _ => timed.numbered_step retimes,
    fun _ _ => timed.bound_step fresh stepped,
    fun conn connection timer found opened context => ?_⟩
  rcases transition.origin found with ⟨peerAddr, rfl, rfl, rfl⟩ | ⟨old, held, same, _, shut⟩ |
    ⟨_, _, _, _, _, _, _, _, _, _, new, _, _⟩
  · cases stepped
    cases context
    rw [FiniteMap.find_assign, if_pos rfl]
  · have before : old.closed = false := by
      rcases shut opened with stayed | ⟨_, _, rfl⟩
      · exact stayed
      · exact allowed old held
    exact timed.pending_step allowed retimes
      (timed.pending conn old timer held before (same ▸ context)) found opened context
  · rw [new] at context
    cases context

section

variable {history : List (EventMachine.Taken State Event Replied)} {state : State}
  {conn timer : Nat} {nodeAddr : UInt32} {connection : ServiceConnection}

theorem Contexts.not_initialized (contexts : Contexts history state)
    (found : state.conns.find conn = some connection)
    (context : connection.context = .timerId timer) : ¬ Initialized history conn nodeAddr := by
  intro initialized
  obtain ⟨holder, held, own⟩ := (contexts.initialized conn nodeAddr).mp initialized
  rw [found] at held
  cases held
  rw [context] at own
  cases own

theorem Timed.not_bound (timed : Timed state) (contexts : Contexts history state)
    (initialized : Initialized history conn nodeAddr) : state.timers.find timer ≠ some conn := by
  intro pending
  obtain ⟨connection, found, context⟩ := timed.bound timer conn pending
  exact contexts.not_initialized found context initialized

theorem Timed.safeFromKickOff (timed : Timed state) (contexts : Contexts history state)
    (found : state.conns.find conn = some connection)
    (initialized : Initialized history conn nodeAddr) : SafeFromKickOff state conn connection := by
  obtain ⟨holder, held, context⟩ := (contexts.initialized conn nodeAddr).mp initialized
  rw [found] at held
  cases held
  exact ⟨⟨nodeAddr, context⟩, fun timer => timed.not_bound contexts initialized⟩

theorem Timed.awaitsKickOff (timed : Timed state) (contexts : Contexts history state)
    (found : state.conns.find conn = some connection) (opened : connection.closed = false)
    (uninitialized : ∀ nodeAddr, ¬ Initialized history conn nodeAddr) :
    AwaitsKickOff state conn connection := by
  cases context : connection.context with
  | none => exact absurd context (timed.occupied conn connection found)
  | timerId timer =>
      exact ⟨timer, context, timed.pending conn connection timer found opened context⟩
  | nodeAddr nodeAddr =>
      have initialized := (contexts.initialized conn nodeAddr).mpr ⟨connection, found, context⟩
      exact absurd initialized (uninitialized nodeAddr)

/-- No timer closes a connection that was initialised. -/
theorem Timed.find_kickOff {after : State} {outputs : List Replied} (timed : Timed state)
    (contexts : Contexts history state)
    (stepped : step state (.kickOff timer) = some (after, outputs))
    (initialized : Initialized history conn nodeAddr) :
    after.conns.find conn = state.conns.find conn := by
  cases step_retimes stepped with
  | fired pending _ conns _ _ =>
      rw [conns, FiniteMap.find_assign, if_neg]
      intro same
      subst same
      exact timed.not_bound contexts initialized pending
  | kept silent _ _ _ => exact absurd rfl (silent timer)

end

/-- An open connection waits for its own timer and was not initialised, or it was and
no timer is bound to it. So no timer closes a connection that was initialised, and
one that was not has its timer. -/
theorem kickOff_run {conf : ResolveServerConf}
    {history : List (EventMachine.Taken State Event Replied)} {state : State}
    (run : machine.Run RequestsOpen (State.initial conf) history state) :
    (∀ conn connection, state.conns.find conn = some connection → connection.closed = false →
      Xor (AwaitsKickOff state conn connection ∧
          ∀ nodeAddr, ¬ Initialized history conn nodeAddr)
        (SafeFromKickOff state conn connection)) ∧
      (∀ timer after outputs conn nodeAddr,
        step state (.kickOff timer) = some (after, outputs) →
        Initialized history conn nodeAddr → after.conns.find conn = state.conns.find conn) ∧
      (∀ conn connection, state.conns.find conn = some connection → connection.closed = false →
        (∀ nodeAddr, ¬ Initialized history conn nodeAddr) →
        AwaitsKickOff state conn connection) := by
  have invariant : Contexts history state ∧ Timed state := by
    refine run.invariant (fun history state => Contexts history state ∧ Timed state)
      ⟨contexts_initial conf, timed_initial conf⟩ ?_
    intro history before event outputs after holds allowed stepped
    exact ⟨holds.1.preserved stepped, holds.2.preserved holds.1.fresh allowed stepped⟩
  obtain ⟨contexts, timed⟩ := invariant
  refine ⟨fun conn connection found opened => ?_,
    fun _ _ _ _ _ stepped => timed.find_kickOff contexts stepped,
    fun _ _ => timed.awaitsKickOff contexts⟩
  by_cases initialized : ∃ nodeAddr, Initialized history conn nodeAddr
  · obtain ⟨nodeAddr, initialized⟩ := initialized
    have safe := timed.safeFromKickOff contexts found initialized
    exact .inr ⟨safe, fun awaits => awaits.2 nodeAddr initialized⟩
  · have uninitialized := not_exists.mp initialized
    have awaits := timed.awaitsKickOff contexts found opened uninitialized
    refine .inl ⟨⟨awaits, uninitialized⟩, fun safe => ?_⟩
    obtain ⟨timer, _, pending⟩ := awaits
    exact safe.2 timer pending

instance (state : State) : ∀ event, Decidable (RequestsOpen state event)
  | .request conn _ _ => inferInstanceAs
      (Decidable (∀ connection ∈ state.conns.find conn, connection.closed = false))
  | .newConnection _ | .kickOff _ | .foundClosed _ | .close _ => inferInstanceAs (Decidable True)

/-- One connection is initialised in time, the other kicked off. -/
theorem kickOff_run_expired :
    ∃ history state after outputs,
      machine.Run RequestsOpen (State.initial someConf) history state ∧
      Initialized history 0 someConfNode.nodeAddr ∧
      step state (.kickOff 1) = some (after, outputs) ∧
      after.conns.find 0 = state.conns.find 0 ∧
      AwaitsKickOff state 1 ⟨somePeerAddr, .timerId 1, false, false⟩ := by
  obtain ⟨history, state, run, reached⟩ := EventMachine.exists_run_of_any
    machine RequestsOpen (State.initial someConf)
    [.newConnection somePeerAddr, .newConnection somePeerAddr, .request 0 someInitialize true]
    (fun reached => decide (reached.2.conns.find 0 =
        some ⟨somePeerAddr, .nodeAddr someConfNode.nodeAddr, false, false⟩ ∧
      reached.2.conns.find 1 = some ⟨somePeerAddr, .timerId 1, false, false⟩ ∧
      reached.2.timers.find 1 = some 1)) (by decide)
  obtain ⟨first, second, pending⟩ := of_decide_eq_true reached
  have contexts := run.invariant Contexts (contexts_initial someConf)
    (fun _ _ _ _ _ holds _ stepped => holds.preserved stepped)
  have initialized : Initialized history 0 someConfNode.nodeAddr :=
    (contexts.initialized 0 _).mpr ⟨_, first, rfl⟩
  have fires : ∃ after outputs, step state (.kickOff 1) = some (after, outputs) := by
    simp only [step, pending, second]
    exact ⟨_, _, rfl⟩
  obtain ⟨after, outputs, fired⟩ := fires
  obtain ⟨conditions, untouched, waiting⟩ := kickOff_run run
  refine ⟨history, state, after, outputs, run, initialized, fired,
    untouched 1 after outputs 0 _ fired initialized, waiting 1 _ second rfl ?_⟩
  intro nodeAddr other
  obtain ⟨connection, found, context⟩ := (contexts.initialized 1 nodeAddr).mp other
  rw [second] at found
  cases found
  cases context

end Cpmd.Service
