import Cpmd.ClientMain
import Cpmd.HostedProgram

/-! The client on its host, with itself as the target, as it is by default. Whether it
succeeds tells whether the daemon has lost a message. -/

set_option autoImplicit false

namespace Cpmd.ClientMain

open Library
open Chat (receivedOf)

def ownAddress (name : List UInt8) : Address := Address.create name

def population (name : List UInt8) (messageNum : Int) :
    Hosted.Population Unit (fun _ => Stage) (fun _ => Bool) (fun _ => Output) where
  program := fun _ => main (ownAddress name) messageNum
  key := fun _ => (ownAddress name).clientAddr
  partyAt := fun key => if key = (ownAddress name).clientAddr then some () else none
  partyAt_key := fun _ => if_pos rfl

abbrev OnHost : Type := Hosted.State fun _ : Unit => Stage

abbrev Made : Type := Hosted.Output fun _ : Unit => Output

abbrev History : Type :=
  List (EventMachine.Taken OnHost (Hosted.Event fun _ : Unit => Bool) Made)

/-- Nobody else on the host, and no other node, writes to this client. -/
def Alone (key : UInt32) (log : List Host.Routed) : Prop :=
  ∀ entry ∈ log, (key, true) ∈ entry.writes → entry.source = some key

/-- The client's messages that its bus had no room for on their way back. -/
def dropped (key : UInt32) (log : List Host.Routed) : List Host.Routed :=
  log.filter fun entry => entry.source = some key ∧ entry.writes = [(key, false)]

def ownOutputs (outputs : List Made) : List Output := Hosted.madeIn () outputs

/-- What the client has sent is what it has received, what waits on either of its buses, and
what was dropped; and it succeeds once it has sent something and nothing is missing. -/
structure SelfTest (name : List UInt8) (messageNum : Int) (outputs : List Made)
    (state : OnHost) : Prop where
  sent : sentIn (ownOutputs outputs) =
    List.replicate (sentIn (ownOutputs outputs)).length (testMessage (ownAddress name))
  bounded : (sentIn (ownOutputs outputs)).length ≤ messageNum.toNat
  returned : ∀ m ∈ receivedIn (ownOutputs outputs), m.contents = msg
  balance : (sentIn (ownOutputs outputs)).length =
    (receivedIn (ownOutputs outputs)).length +
      (state.host.posted (ownAddress name).clientAddr).length +
      (dropped (ownAddress name).clientAddr (Hosted.logOf outputs)).length +
      (state.host.pending (ownAddress name).clientAddr).length
  succeeds : (state.program ()).result = some true ↔
    sentIn (ownOutputs outputs) ≠ [] ∧ state.host.posted (ownAddress name).clientAddr = [] ∧
      dropped (ownAddress name).clientAddr (Hosted.logOf outputs) = [] ∧
      state.host.pending (ownAddress name).clientAddr = []
  fails : (state.program ()).result ≠ some false

theorem orderly (targetAddress : Address) (messageNum : Int) :
    Hosted.Orderly (main targetAddress messageNum) where
  reads := fun rounded => input_round rounded
  writes := fun rounded => ⟨_, (posts_round rounded).symm⟩

section Log

variable {log : List Host.Routed}

/-- The daemon stamps the client's messages, and tries to write each back to it. -/
def Returns (name : List UInt8) (log : List Host.Routed) : Prop :=
  ∀ entry ∈ log, entry.source = some (ownAddress name).clientAddr →
    (∃ source, entry.handled = (testMessage (ownAddress name)).setSourceAddress source) ∧
      (∃ written, entry.writes = [((ownAddress name).clientAddr, written)]) ∧
      ∃ behind, entry.bytes = entry.handled.image behind

theorem Returns.received {name : List UInt8} (returns : Returns name log)
    (alone : Alone (ownAddress name).clientAddr log) :
    ∀ record ∈ Host.writtenFor (ownAddress name).clientAddr log, ∃ m,
      receivedOf record = some m ∧ m.contents = msg := by
  intro record member
  obtain ⟨entry, wrote, rfl⟩ := List.mem_map.mp member
  obtain ⟨logged, wrote⟩ := List.mem_filter.mp wrote
  obtain ⟨⟨source, stamped⟩, _, behind, bytes⟩ :=
    returns entry logged (alone entry logged (of_decide_eq_true wrote))
  rw [bytes, stamped]
  exact ⟨_, receivedOf_testMessage _ source behind, (testMessage_carries _ source).contents_eq⟩

/-- What the daemon takes from the client it writes back or drops. By induction on the log. -/
theorem Returns.length_readFrom {name : List UInt8} (returns : Returns name log)
    (alone : Alone (ownAddress name).clientAddr log) :
    (Host.readFrom (ownAddress name).clientAddr log).length =
      (Host.writtenFor (ownAddress name).clientAddr log).length +
        (dropped (ownAddress name).clientAddr log).length := by
  simp only [Host.readFrom, Host.writtenFor, dropped, List.length_map]
  induction log with
  | nil => rfl
  | cons entry log ih =>
      have rest := ih (fun other member => returns other (List.mem_cons_of_mem _ member))
        fun other member => alone other (List.mem_cons_of_mem _ member)
      by_cases own : entry.source = some (ownAddress name).clientAddr
      · obtain ⟨_, ⟨written, writes⟩, _⟩ := returns entry List.mem_cons_self own
        cases written <;> simp [own, writes] at rest ⊢ <;> omega
      · have others : ((ownAddress name).clientAddr, true) ∉ entry.writes :=
          fun wrote => own (alone entry List.mem_cons_self wrote)
        simpa [own, others] using rest

end Log

section Runs

variable {messageServerPort : Int32} {resolveServerAddress : NetAddress}
  {busLocation : List UInt8} {earlier : List (EventMachine.Taken Host Host.Event Host.Routed)}
  {name : List UInt8} {messageNum : Int} {start state : OnHost} {history : History}

theorem nodeAddr_ownAddress (plain : Address.slash ∉ name) : (ownAddress name).nodeAddr = 0 := by
  rw [ownAddress, Address.create, if_pos plain]
  rfl

theorem returns_of_run {host last : Host}
    {onHost : List (EventMachine.Taken Host Host.Event Host.Routed)} (keyed : Host.Keyed host)
    (plain : Address.slash ∉ name)
    (registered : (host.identities (ownAddress name).clientAddr).isSome = true)
    (run : Host.machine.Run (fun _ _ => True) host onHost last)
    (copies : ∀ m ∈ Host.readFrom (ownAddress name).clientAddr (EventMachine.outputs onHost),
      m = testMessage (ownAddress name)) : Returns name (EventMachine.outputs onHost) := by
  intro entry logged source
  have given : entry.given = testMessage (ownAddress name) :=
    copies _ (List.mem_map_of_mem (List.mem_filter.mpr ⟨logged, beq_iff_eq.mpr source⟩))
  obtain ⟨taken, member, routed⟩ := List.mem_flatMap.mp logged
  obtain ⟨_, before, _, stepped⟩ := run.of_mem member
  obtain ⟨keyedThere, same⟩ := Hosted.kept_of_run keyed before
  have sound := Host.step_sound keyedThere stepped entry routed
  have stamped := sound.stamped _ source
  rw [given] at stamped
  have remote : entry.handled.remoteAddress = ownAddress name := by
    rw [stamped]
    rfl
  have offered := Host.step_offered stepped entry routed
    (.inr ⟨by simp [source], by rw [remote]; exact nodeAddr_ownAddress plain⟩)
  rw [remote, same _ registered] at offered
  obtain ⟨written, writes⟩ := offered registered
  refine ⟨⟨_, stamped⟩, ⟨written, writes⟩, sound.written.resolve_left fun silent => ?_⟩
  rw [writes] at silent
  cases silent

/-- The client's side of a run that it began with unused buses. -/
theorem client_of_splits
    (splits : Hosted.Splits (population name messageNum) () start history state)
    (unused : start.host.posted (ownAddress name).clientAddr = [] ∧
      start.host.pending (ownAddress name).clientAddr = [])
    (opened : start.program () = .sending ⟨[], []⟩ 0) :
    ∃ onClient, ∃ stage : Stage,
      (main (ownAddress name) messageNum).machine.Run (fun _ _ => True) (.sending ⟨[], []⟩ 0)
        onClient stage ∧
      QueueProgram.arrivedIn onClient = Host.writtenFor (ownAddress name).clientAddr
        (Hosted.logOf (EventMachine.outputs history)) ∧
      Host.readFrom (ownAddress name).clientAddr (Hosted.logOf (EventMachine.outputs history)) =
        ((main (ownAddress name) messageNum).takenIn onClient).filterMap
          ClientInfo.checkRecord ∧
      EventMachine.outputs onClient = ownOutputs (EventMachine.outputs history) ∧
      stage.client = ⟨state.host.posted (ownAddress name).clientAddr,
        state.host.pending (ownAddress name).clientAddr⟩ ∧
      stage.result = (state.program ()).result := by
  obtain ⟨_, ⟨_, ⟨onClient, run, arrived, rfl, _, made⟩, read⟩⟩ := splits
  have fresh : Hosted.State.view (population name messageNum) () start =
      .sending ⟨[], []⟩ 0 := Hosted.view_of_unused unused opened rfl rfl
  rw [fresh] at run
  refine ⟨onClient, _, run, arrived, read, made, ?_, ?_⟩
  · simp only [Hosted.State.view, population, main]
    cases state.program () <;> rfl
  · simp [Hosted.State.view, population, main]

theorem selfTest_of_splits (keyed : Host.Keyed start.host) (plain : Address.slash ∉ name)
    (registered : (start.host.identities (ownAddress name).clientAddr).isSome = true)
    (splits : Hosted.Splits (population name messageNum) () start history state)
    (unused : start.host.posted (ownAddress name).clientAddr = [] ∧
      start.host.pending (ownAddress name).clientAddr = [])
    (opened : start.program () = .sending ⟨[], []⟩ 0)
    (alone : Alone (ownAddress name).clientAddr (Hosted.logOf (EventMachine.outputs history))) :
    SelfTest name messageNum (EventMachine.outputs history) state := by
  obtain ⟨onHost, hostRun, logged⟩ := splits.host
  obtain ⟨onClient, stage, run, arrived, read, made, buses, result⟩ :=
    client_of_splits splits unused opened
  obtain ⟨sent, bounded, counter⟩ := counts_run run
  obtain ⟨copies, taken⟩ := taken_run run
  rw [← read] at copies
  have returns : Returns name (Hosted.logOf (EventMachine.outputs history)) := by
    rw [← logged] at copies ⊢
    refine returns_of_run keyed plain registered hostRun fun m member => ?_
    rw [copies] at member
    exact List.eq_of_mem_replicate member
  have whole := returns.received alone
  rw [← arrived] at whole
  have good : ∀ record ∈ QueueProgram.arrivedIn onClient, (receivedOf record).isSome = true := by
    intro record came
    obtain ⟨m, received, _⟩ := whole record came
    rw [received]
    rfl
  have fails := (receives_run rfl run good).2
  obtain ⟨came, heard⟩ := received_run run good
  have succeeds := counter.succeeds_iff fails
  have back := returns.length_readFrom alone
  rw [copies, List.length_replicate, ← arrived, came] at back
  rw [made] at sent bounded succeeds taken back heard
  rw [buses] at taken back
  rw [result] at succeeds fails
  dsimp only at taken back
  have balance : (sentIn (ownOutputs (EventMachine.outputs history))).length =
      (receivedIn (ownOutputs (EventMachine.outputs history))).length +
        (state.host.posted (ownAddress name).clientAddr).length +
        (dropped (ownAddress name).clientAddr
          (Hosted.logOf (EventMachine.outputs history))).length +
        (state.host.pending (ownAddress name).clientAddr).length := by
    omega
  refine ⟨sent, bounded, fun m member => ?_, balance, ?_, fails⟩
  · obtain ⟨record, listed, received⟩ := heard m member
    obtain ⟨_, known, contents⟩ := whole record listed
    rw [received] at known
    cases known
    exact contents
  · rw [succeeds]
    simp only [ne_eq, ← List.length_eq_zero_iff]
    omega

/-- Whatever else happens on the host and between the nodes, as long as nobody else writes to
the client. -/
theorem selfTest_run (plain : Address.slash ∉ name)
    (before : Host.machine.Run (fun _ _ => True)
      (Host.initial messageServerPort resolveServerAddress busLocation) earlier start.host)
    (registered : (start.host.identities (ownAddress name).clientAddr).isSome = true)
    (unused : start.host.posted (ownAddress name).clientAddr = [] ∧
      start.host.pending (ownAddress name).clientAddr = [])
    (opened : start.program () = .sending ⟨[], []⟩ 0)
    (run : (Hosted.machine (population name messageNum)).Run (fun _ _ => True) start history state)
    (alone : Alone (ownAddress name).clientAddr (Hosted.logOf (EventMachine.outputs history))) :
    SelfTest name messageNum (EventMachine.outputs history) state := by
  have keyed := Host.keyed_run before
  have splits : Hosted.Splits (population name messageNum) () start history state :=
    Hosted.splits_run (fun _ => orderly _ _) keyed registered run
  exact selfTest_of_splits keyed plain registered splits unused opened alone

/-- A client `a`, whose handshake is done. -/
def someStart : OnHost where
  host := ((Host.machine.run? (fun _ _ => True)
    (Host.initial 8123 Daemon.someResolveServer [47, 116, 109, 112])
    [Host.handShakeOf [97]]).map Prod.snd).getD
      (Host.initial 8123 Daemon.someResolveServer [47, 116, 109, 112])
  program := fun _ => .sending ⟨[], []⟩ 0

/-- Two messages are sent, and come back. -/
def someTest : List (Hosted.Event fun _ : Unit => Bool) :=
  [.round () true, .round () true, .round () true,
    .host (.busMessage (fun _ _ _ => true) fun _ _ => []), .round () true, .round () true]

theorem selfTest_run_someTest :
    ∃ history : History, ∃ state, (state.program ()).result = some true ∧
      SelfTest [97] 2 (EventMachine.outputs history) state := by
  have began : (Host.machine.run? (fun _ _ => True)
      (Host.initial 8123 Daemon.someResolveServer [47, 116, 109, 112])
      [Host.handShakeOf [97]]).isSome = true := by decide +kernel
  obtain ⟨⟨earlier, host⟩, executed⟩ := Option.isSome_iff_exists.mp began
  have same : someStart.host = host := by
    rw [someStart, executed]
    rfl
  obtain ⟨history, state, run, ended⟩ := EventMachine.exists_run_of_any
    (Hosted.machine (population [97] 2)) (fun _ _ => True) someStart someTest
    (fun reached => decide ((reached.2.program ()).result = some true ∧
      ∀ entry ∈ Hosted.logOf (EventMachine.outputs reached.1),
        entry.source = some (ownAddress [97]).clientAddr)) (by decide +kernel)
  obtain ⟨succeeded, sources⟩ := of_decide_eq_true ended
  exact ⟨history, state, succeeded, selfTest_run (by decide)
    (same ▸ EventMachine.run?_sound executed) (by decide +kernel) (by decide +kernel) rfl run
    fun entry logged _ => sources entry logged⟩

end Runs

end Cpmd.ClientMain
