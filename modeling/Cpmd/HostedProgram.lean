import Cpmd.HandShake
import Cpmd.Library.QueueProgram
import Cpmd.LocalRouting

/-! Programs of clients together with the host they run on: what the one side writes to the
buses between them is what the other reads. -/

set_option autoImplicit false

namespace Cpmd.Hosted

open Library

/-- What each of some parties runs, and the key that its client is registered at. -/
structure Population (Party : Type) (Program Round Made : Party → Type) where
  program : ∀ party, QueueProgram (Program party) (Round party) (Made party) (List UInt8)
  key : Party → UInt32
  partyAt : UInt32 → Option Party
  partyAt_key : ∀ party, partyAt (key party) = some party

variable {Party : Type} {Program Round Made : Party → Type}

structure State (Program : Party → Type) where
  host : Host
  program : ∀ party, Program party

inductive Event (Round : Party → Type) where
  | host (event : Host.Event)
  | round (party : Party) (round : Round party)

inductive Output (Made : Party → Type) where
  | routed (entry : Host.Routed)
  | made (party : Party) (output : Made party)

/-- A program, with its buses as they are on the host. -/
def State.view (population : Population Party Program Round Made) (party : Party)
    (state : State Program) : Program party :=
  (population.program party).withOutput
    ((population.program party).withInput (state.program party)
      (state.host.posted (population.key party)))
    (state.host.pending (population.key party))

/-- What only a party's own program does to its buses. -/
def Population.owns (population : Population Party Program Round Made) : Host.Event → Bool
  | .submit key _ | .receive key => (population.partyAt key).isSome
  | .handShake _ _ _ | .daemon _ | .remoteMessage _ _ _ | .busMessage _ _ => false

/-- What a round that reads so many records and writes these is for the host. -/
def busEvents (key : UInt32) (read : Nat) (written : List (List UInt8)) : List Host.Event :=
  List.replicate read (.receive key) ++ written.map (.submit key)

variable [DecidableEq Party]

def step (population : Population Party Program Round Made) (state : State Program) :
    Event Round → Option (State Program × List (Output Made))
  | .host event =>
      if population.owns event then none
      else
        (Host.step state.host event).map fun stepped =>
          (⟨stepped.1, state.program⟩, stepped.2.map .routed)
  | .round party round =>
      match (population.program party).round (state.view population party) round with
      | none => none
      | some (after, outputs) =>
          let key := population.key party
          let read := (state.host.posted key).length -
            ((population.program party).input after).length
          let written := ((population.program party).output after).drop
            (state.host.pending key).length
          (Host.machine.run? (fun _ _ => True) state.host (busEvents key read written)).map
            fun ran =>
              (⟨ran.2, Function.update state.program party after⟩, outputs.map (.made party))

def machine (population : Population Party Program Round Made) :
    EventMachine (State Program) (Event Round) (Output Made) :=
  ⟨step population⟩

omit [DecidableEq Party] in
def logOf (outputs : List (Output Made)) : List Host.Routed :=
  outputs.filterMap fun
    | .routed entry => some entry
    | .made _ _ => none

def madeIn (party : Party) (outputs : List (Output Made)) : List (Made party) :=
  outputs.filterMap fun
    | .routed _ => none
    | .made other output => if own : other = party then some (own ▸ output) else none

def Event.roundOf (party : Party) : Event Round → Option (Round party)
  | .host _ => none
  | .round other taken => if own : other = party then some (own ▸ taken) else none

def roundsOf (party : Party)
    (history : List (EventMachine.Taken (State Program) (Event Round) (Output Made))) :
    List (Round party) :=
  history.filterMap fun taken => taken.event.roundOf party

section Outputs

variable (party : Party)

omit [DecidableEq Party] in
@[simp] theorem logOf_append (first second : List (Output Made)) :
    logOf (first ++ second) = logOf first ++ logOf second :=
  List.filterMap_append

@[simp] theorem madeIn_append (first second : List (Output Made)) :
    madeIn party (first ++ second) = madeIn party first ++ madeIn party second :=
  List.filterMap_append

omit [DecidableEq Party] in
@[simp] theorem logOf_routed (log : List Host.Routed) :
    logOf (log.map (.routed : Host.Routed → Output Made)) = log := by
  rw [logOf, List.filterMap_map]
  exact List.filterMap_some

@[simp] theorem madeIn_routed (log : List Host.Routed) :
    madeIn party (log.map (.routed : Host.Routed → Output Made)) = [] := by
  rw [madeIn, List.filterMap_map]
  exact List.filterMap_none log

omit [DecidableEq Party] in
@[simp] theorem logOf_made (outputs : List (Made party)) :
    logOf (outputs.map (Output.made party)) = [] := by
  rw [logOf, List.filterMap_map]
  exact List.filterMap_none outputs

@[simp] theorem madeIn_made (outputs : List (Made party)) :
    madeIn party (outputs.map (Output.made party)) = outputs := by
  rw [madeIn, List.filterMap_map]
  refine (List.filterMap_congr fun output _ => ?_).trans List.filterMap_some
  exact dif_pos rfl

variable {party} in
theorem madeIn_others {other : Party} (different : other ≠ party) (outputs : List (Made other)) :
    madeIn party (outputs.map (Output.made other)) = [] := by
  rw [madeIn, List.filterMap_map]
  refine (List.filterMap_congr fun output _ => ?_).trans (List.filterMap_none outputs)
  exact dif_neg different

theorem roundsOf_own {state after : State Program} {round : Round party}
    {outputs : List (Output Made)} :
    roundsOf party [⟨state, .round party round, outputs, after⟩] = [round] := by
  rw [roundsOf, List.filterMap_cons_some (dif_pos rfl)]
  rfl

variable {party} in
theorem roundsOf_others {other : Party} (different : other ≠ party)
    {state after : State Program} {round : Round other} {outputs : List (Output Made)} :
    roundsOf party [⟨state, .round other round, outputs, after⟩] = [] := by
  rw [roundsOf, List.filterMap_cons_none (dif_neg different)]
  rfl

end Outputs

/-- A round reads from the front of the one bus, and writes behind what is on the other. -/
structure Orderly {State Round Output : Type}
    (program : QueueProgram State Round Output (List UInt8)) : Prop where
  reads : ∀ {before round after produced}, program.round before round = some (after, produced) →
    program.input after <:+ program.input before
  writes : ∀ {before round after produced}, program.round before round = some (after, produced) →
    program.output before <+: program.output after

section Buses

variable {key : UInt32} {host after last : Host} {outputs : List Host.Routed}
  {history : List (EventMachine.Taken Host Host.Event Host.Routed)}

/-- Between these states only the one client's buses differ. -/
structure OthersKept (key : UInt32) (before after : Host) : Prop where
  posted : ∀ other, other ≠ key → after.posted other = before.posted other
  pending : ∀ other, other ≠ key → after.pending other = before.pending other

theorem OthersKept.refl (host : Host) : OthersKept key host host :=
  ⟨fun _ _ => rfl, fun _ _ => rfl⟩

theorem OthersKept.trans {first second third : Host} (before : OthersKept key first second)
    (after : OthersKept key second third) : OthersKept key first third where
  posted := fun other elsewhere =>
    (after.posted other elsewhere).trans (before.posted other elsewhere)
  pending := fun other elsewhere =>
    (after.pending other elsewhere).trans (before.pending other elsewhere)

theorem othersKept_putClient (host : Host) (key : UInt32) (client : LocalClient) :
    OthersKept key host (host.putClient key client) where
  posted := fun other elsewhere => by rw [Host.posted_putClient, if_neg elsewhere]
  pending := fun other elsewhere => by rw [Host.pending_putClient, if_neg elsewhere]

theorem step_receive (stepped : Host.step host (.receive key) = some (after, outputs)) :
    after.posted key = (host.posted key).drop 1 ∧ after.pending key = host.pending key ∧
      OthersKept key host after ∧ outputs = [] := by
  cases Host.step_transition stepped with
  | @received _ client found =>
      rw [Host.posted_putClient, Host.pending_putClient, if_pos rfl, if_pos rfl,
        Host.posted_of_find found, Host.pending_of_find found]
      exact ⟨rfl, rfl, othersKept_putClient host key _, rfl⟩

theorem step_submit {record : List UInt8}
    (stepped : Host.step host (.submit key record) = some (after, outputs)) :
    after.posted key = host.posted key ∧ after.pending key = host.pending key ++ [record] ∧
      OthersKept key host after ∧ outputs = [] := by
  cases Host.step_transition stepped with
  | @submitted _ _ client found =>
      rw [Host.leave, Host.posted_putClient, Host.pending_putClient, if_pos rfl, if_pos rfl,
        Host.posted_of_find found, Host.pending_of_find found]
      exact ⟨rfl, rfl, othersKept_putClient host key _, rfl⟩

/-- What these events do to the buses. By induction on the records written, and then on the
number of those read before. -/
theorem run?_busEvents {read : Nat} {written : List (List UInt8)}
    (executed : Host.machine.run? (fun _ _ => True) host (busEvents key read written) =
      some (history, last)) :
    last.posted key = (host.posted key).drop read ∧
      last.pending key = host.pending key ++ written ∧ OthersKept key host last ∧
      EventMachine.outputs history = [] := by
  induction read generalizing host history with
  | zero =>
      rw [busEvents, List.replicate_zero, List.nil_append] at executed
      induction written generalizing host history with
      | nil =>
          cases executed
          exact ⟨rfl, (List.append_nil _).symm, .refl _, rfl⟩
      | cons record written ih =>
          obtain ⟨next, outputs, later, stepped, remaining, rfl⟩ :=
            EventMachine.run?_cons_eq_some executed
          obtain ⟨posted, pending, kept, silent⟩ := step_submit stepped
          obtain ⟨left, joined, others, rest⟩ := ih remaining
          refine ⟨left.trans (by rw [posted]), ?_, kept.trans others, ?_⟩
          · rw [joined, pending, List.append_assoc, List.singleton_append]
          · exact (congrArg₂ (· ++ ·) silent rest).trans rfl
  | succ read ih =>
      rw [busEvents, List.replicate_succ, List.cons_append] at executed
      obtain ⟨next, outputs, later, stepped, remaining, rfl⟩ :=
        EventMachine.run?_cons_eq_some executed
      obtain ⟨posted, pending, kept, silent⟩ := step_receive stepped
      obtain ⟨left, joined, others, rest⟩ := ih remaining
      refine ⟨?_, joined.trans (by rw [pending]), kept.trans others, ?_⟩
      · rw [left, posted, List.drop_drop, Nat.add_comm]
      · exact (congrArg₂ (· ++ ·) silent rest).trans rfl

/-- The buses are left as the round has left them. -/
theorem buses_of_round {unread written : List (List UInt8)} (front : unread <:+ host.posted key)
    (behind : host.pending key <+: written)
    (executed : Host.machine.run? (fun _ _ => True) host (busEvents key
      ((host.posted key).length - unread.length) (written.drop (host.pending key).length)) =
      some (history, last)) :
    last.posted key = unread ∧ last.pending key = written ∧ OthersKept key host last ∧
      EventMachine.outputs history = [] := by
  obtain ⟨posted, pending, others, silent⟩ := run?_busEvents executed
  exact ⟨posted.trans (List.suffix_iff_eq_drop.mp front).symm,
    pending.trans (List.prefix_iff_eq_append.mp behind), others, silent⟩

end Buses

variable {population : Population Party Program Round Made} {party : Party}

section Views

omit [DecidableEq Party]

theorem input_view (state : State Program) :
    (population.program party).input (state.view population party) =
      state.host.posted (population.key party) := by
  rw [State.view, QueueProgram.input_withOutput, QueueProgram.input_withInput]

theorem output_view (state : State Program) :
    (population.program party).output (state.view population party) =
      state.host.pending (population.key party) := by
  rw [State.view, QueueProgram.output_withOutput]

theorem view_of_unused {state : State Program} {initial : Program party}
    (unused : state.host.posted (population.key party) = [] ∧
      state.host.pending (population.key party) = [])
    (opened : state.program party = initial)
    (input : (population.program party).input initial = [])
    (output : (population.program party).output initial = []) :
    state.view population party = initial := by
  rw [State.view, opened, unused.1, ← input, QueueProgram.withInput_input, unused.2, ← output,
    QueueProgram.withOutput_output]

/-- What others do on the host changes no more of what the program sees than its buses. -/
theorem view_of_buses (state : State Program) (host : Host) :
    State.view population party ⟨host, state.program⟩ =
      (population.program party).withOutput
        ((population.program party).withInput (state.view population party)
          (host.posted (population.key party)))
        (host.pending (population.key party)) := by
  rw [State.view, State.view, QueueProgram.withInput_withOutput,
    QueueProgram.withInput_withInput, QueueProgram.withOutput_withOutput]

theorem key_injective (population : Population Party Program Round Made) :
    Function.Injective population.key := by
  intro first second same
  have found := population.partyAt_key first
  rw [same, population.partyAt_key] at found
  exact (Option.some.inj found).symm

end Views

theorem view_of_left {host : Host} {program : ∀ party, Program party} {left : Program party}
    (posted : host.posted (population.key party) = (population.program party).input left)
    (pending : host.pending (population.key party) = (population.program party).output left) :
    State.view population party ⟨host, Function.update program party left⟩ = left := by
  simp only [State.view, Function.update_self]
  rw [posted, pending, QueueProgram.withInput_input, QueueProgram.withOutput_output]

theorem view_of_others {state : State Program} {host : Host} {own : Party} {left : Program own}
    (elsewhere : own ≠ party) (kept : OthersKept (population.key own) state.host host) :
    State.view population party ⟨host, Function.update state.program own left⟩ =
      state.view population party := by
  have different : population.key party ≠ population.key own :=
    fun same => elsewhere (key_injective population same).symm
  simp only [State.view, Function.update_of_ne elsewhere.symm]
  rw [kept.posted _ different, kept.pending _ different]

/-- A run seen from both sides: the host goes through a run of its own with this log, and
the program through one in which it gets the records that the log says were written for it,
and gives away those that the log says were read. -/
structure Splits (population : Population Party Program Round Made) (party : Party)
    (start : State Program)
    (history : List (EventMachine.Taken (State Program) (Event Round) (Output Made)))
    (state : State Program) : Prop where
  host : ∃ onHost, Host.machine.Run (fun _ _ => True) start.host onHost state.host ∧
    EventMachine.outputs onHost = logOf (EventMachine.outputs history)
  program : ∃ taken, (population.program party).Goes (start.view population party)
      (Host.writtenFor (population.key party) (logOf (EventMachine.outputs history))) taken
      (roundsOf party history) (madeIn party (EventMachine.outputs history))
      (state.view population party) ∧
    Host.readFrom (population.key party) (logOf (EventMachine.outputs history)) =
      taken.filterMap ClientInfo.checkRecord

theorem Splits.refl (state : State Program) : Splits population party state [] state :=
  ⟨⟨[], .nil, rfl⟩, ⟨[], .refl _, rfl⟩⟩

theorem Splits.trans {first second third : State Program}
    {history later : List (EventMachine.Taken (State Program) (Event Round) (Output Made))}
    (before : Splits population party first history second)
    (after : Splits population party second later third) :
    Splits population party first (history ++ later) third := by
  obtain ⟨⟨onHost, run, logged⟩, ⟨taken, goes, read⟩⟩ := before
  obtain ⟨⟨further, next, goesOn⟩, ⟨gone, more, readOn⟩⟩ := after
  refine ⟨⟨onHost ++ further, run.append next, ?_⟩, ⟨taken ++ gone, ?_, ?_⟩⟩
  · rw [EventMachine.outputs_append, EventMachine.outputs_append, logged, goesOn, logOf_append]
  · rw [EventMachine.outputs_append, logOf_append, Host.writtenFor_append, madeIn_append,
      roundsOf, List.filterMap_append]
    exact goes.trans more
  · rw [EventMachine.outputs_append, logOf_append, Host.readFrom_append, read, readOn,
      List.filterMap_append]

section Others

omit [DecidableEq Party]

theorem key_ne_of_free {key : UInt32} (free : (population.partyAt key).isSome = false) :
    key ≠ population.key party := by
  intro own
  rw [own, population.partyAt_key] at free
  cases free

theorem offered_of_others {host after : Host} {event : Host.Event} {log : List Host.Routed}
    (registered : (host.identities (population.key party)).isSome = true)
    (others : population.owns event = false) :
    Host.offered (population.key party) ⟨host, event, log, after⟩ = [] := by
  cases event with
  | submit other record =>
      have different : other ≠ population.key party := key_ne_of_free others
      simp only [Host.offered, if_neg different]
  | handShake restoreOrCreate data out =>
      rw [Host.offered, if_neg]
      intro absent
      rw [absent] at registered
      cases registered
  | daemon _ | remoteMessage _ _ _ | busMessage _ _ | receive _ => rfl

/-- What others do is for the program that records come and go. -/
theorem goes_of_others {state : State Program} {event : Host.Event} {after : Host}
    {log : List Host.Routed} (keyed : Host.Keyed state.host)
    (registered : (state.host.identities (population.key party)).isSome = true)
    (others : population.owns event = false)
    (stepped : Host.step state.host event = some (after, log)) :
    ∃ taken, (population.program party).Goes (state.view population party)
        (Host.writtenFor (population.key party) log) taken [] []
        (State.view population party ⟨after, state.program⟩) ∧
      Host.readFrom (population.key party) log = taken.filterMap ClientInfo.checkRecord := by
  have written : after.posted (population.key party) =
      state.host.posted (population.key party) ++
        Host.writtenFor (population.key party) log := by
    refine Host.step_writes keyed stepped registered fun own => ?_
    subst own
    exact key_ne_of_free others rfl
  obtain ⟨taken, split, read⟩ := Host.step_reads keyed stepped (population.key party)
  rw [offered_of_others registered others, List.append_nil] at split
  refine ⟨taken, ?_, read⟩
  have come := (population.program party).goes_arrivals (state.view population party)
    (Host.writtenFor (population.key party) log)
  have waiting : (population.program party).output ((population.program party).withInput
      (state.view population party)
      ((population.program party).input (state.view population party) ++
        Host.writtenFor (population.key party) log)) =
      taken ++ after.pending (population.key party) := by
    rw [QueueProgram.output_withInput, output_view, split]
  have gone := (population.program party).goes_takes _ waiting
  have both := come.trans gone
  rw [List.append_nil, List.nil_append, List.nil_append, input_view, ← written,
    ← view_of_buses] at both
  exact both

end Others

theorem splits_host {state : State Program} {event : Host.Event} {after : Host}
    {log : List Host.Routed} (keyed : Host.Keyed state.host)
    (registered : (state.host.identities (population.key party)).isSome = true)
    (others : population.owns event = false)
    (stepped : Host.step state.host event = some (after, log)) :
    Splits population party state
      [⟨state, .host event, log.map .routed, ⟨after, state.program⟩⟩]
      ⟨after, state.program⟩ := by
  have outputs : EventMachine.outputs [(⟨state, .host event, log.map .routed,
      ⟨after, state.program⟩⟩ : EventMachine.Taken (State Program) (Event Round)
        (Output Made))] = log.map .routed := List.append_nil _
  refine ⟨⟨[⟨state.host, event, log, after⟩], EventMachine.Run.single trivial stepped, ?_⟩, ?_⟩
  · rw [outputs, logOf_routed]
    exact List.append_nil _
  · rw [outputs, logOf_routed, madeIn_routed]
    exact goes_of_others keyed registered others stepped

theorem splits_round (orderly : ∀ party, Orderly (population.program party))
    {state after : State Program} {own : Party} {round : Round own}
    {outputs : List (Output Made)}
    (stepped : step population state (.round own round) = some (after, outputs)) :
    Splits population party state [⟨state, .round own round, outputs, after⟩] after := by
  have produced : EventMachine.outputs [(⟨state, .round own round, outputs, after⟩ :
      EventMachine.Taken (State Program) (Event Round) (Output Made))] = outputs :=
    List.append_nil _
  simp only [step] at stepped
  split at stepped
  · cases stepped
  · rename_i left made rounded
    obtain ⟨⟨history, host⟩, executed, same⟩ := Option.map_eq_some_iff.mp stepped
    cases same
    have front := (orderly own).reads rounded
    have behind := (orderly own).writes rounded
    rw [input_view] at front
    rw [output_view] at behind
    obtain ⟨posted, pending, kept, silent⟩ := buses_of_round front behind executed
    refine ⟨⟨history, EventMachine.run?_sound executed, by rw [silent, produced, logOf_made]⟩,
      ⟨[], ?_, ?_⟩⟩
    · rw [produced, logOf_made]
      by_cases mine : own = party
      · subst mine
        rw [roundsOf_own, madeIn_made, view_of_left posted pending]
        exact .of_round rounded
      · rw [roundsOf_others mine, madeIn_others mine, view_of_others mine kept]
        exact .refl _
    · rw [produced, logOf_made]
      rfl

theorem kept_of_run {start host : Host}
    {history : List (EventMachine.Taken Host Host.Event Host.Routed)} (keyed : Host.Keyed start)
    (run : Host.machine.Run (fun _ _ => True) start history host) :
    Host.Keyed host ∧ ∀ key, (start.identities key).isSome = true →
      host.identities key = start.identities key := by
  refine run.state_invariant (fun host => Host.Keyed host ∧ ∀ key,
    (start.identities key).isSome = true → host.identities key = start.identities key)
    ⟨keyed, fun _ _ => rfl⟩ fun before event outputs after holds _ stepped => ?_
  obtain ⟨keyed, same⟩ := holds
  refine ⟨keyed.preserved stepped, fun key registered => ?_⟩
  have before := same key registered
  rw [(Host.step_keeps keyed stepped).1 key (by rw [before, registered]), before]

/-- The run rule of programs on their host. -/
theorem splits_run (orderly : ∀ party, Orderly (population.program party))
    {guard : State Program → Event Round → Prop} {start state : State Program}
    {history : List (EventMachine.Taken (State Program) (Event Round) (Output Made))}
    (keyed : Host.Keyed start.host)
    (registered : (start.host.identities (population.key party)).isSome = true)
    (run : (machine population).Run guard start history state) :
    Splits population party start history state := by
  induction run with
  | nil => exact .refl start
  | @snoc history before event outputs after _ _ stepped ih =>
      refine ih.trans ?_
      cases event with
      | round own round => exact splits_round orderly stepped
      | host event =>
          obtain ⟨hostHistory, hostRun, _⟩ := ih.host
          obtain ⟨keyedBefore, same⟩ := kept_of_run keyed hostRun
          simp only [machine, step] at stepped
          split at stepped
          · cases stepped
          · rename_i others
            obtain ⟨⟨next, log⟩, handled, settled⟩ := Option.map_eq_some_iff.mp stepped
            cases settled
            exact splits_host keyedBefore (by rw [same _ registered, registered])
              (by simpa using others) handled

end Cpmd.Hosted
