import Cpmd.ChatRoom

/-! The client that sends some messages to a target and then waits until as many have come
back. -/

set_option autoImplicit false

namespace Cpmd.ClientMain

open Library
open Chat (receivedOf receivedOf_image receiveMessage_cases)

/-- `"Long live the queen!"` -/
def msg : List UInt8 :=
  [76, 111, 110, 103, 32, 108, 105, 118, 101, 32, 116, 104, 101, 32, 113, 117, 101, 101, 110, 33]

/-- The one message that is sent again and again. It holds all of its data, so that nothing
behind it is sent. -/
def testMessage (targetAddress : Address) : Message :=
  let m := Message.default.setRemoteAddress targetAddress
  (m.setData msg).getD m

/-- The two loops with their `num`, which is exact here, and what `main` has returned:
whether it is `EXIT_SUCCESS`. -/
inductive Stage where
  | sending (client : ClientImpl) (num : Int)
  | waiting (client : ClientImpl) (num : Int)
  | returned (client : ClientImpl) (success : Bool)

namespace Stage

def client : Stage → ClientImpl
  | .sending client _ | .waiting client _ | .returned client _ => client

def withClient (stage : Stage) (client : ClientImpl) : Stage :=
  match stage with
  | .sending _ num => .sending client num
  | .waiting _ num => .waiting client num
  | .returned _ success => .returned client success

def result : Stage → Option Bool
  | .sending _ _ | .waiting _ _ => none
  | .returned _ success => some success

@[simp] theorem result_withClient (stage : Stage) (client : ClientImpl) :
    (stage.withClient client).result = stage.result := by
  cases stage <;> rfl

end Stage

inductive Output where
  | sent (m : Message)
  | received (m : Message)

/-- A round of the loop that is under way, with the outcome of the `Write` made in it. -/
def round (targetAddress : Address) (messageNum : Int) :
    Stage → Bool → Option (Stage × List Output)
  | .sending client num, written =>
      if num < messageNum then
        let m := testMessage targetAddress
        let sent := client.sendMessage m [] written
        if sent.2 ≠ .kOk ∧ sent.2 ≠ .kBusFull then some (.returned sent.1 false, [])
        else if sent.2 = .kBusFull then some (.waiting sent.1 num, [])
        else some (.sending sent.1 (num + 1), [.sent m])
      else some (.waiting client num, [])
  | .waiting client num, _ =>
      let received := client.receiveMessage
      match received.2 with
      | (.kOk, some m) =>
          if num - 1 = 0 then some (.returned received.1 true, [.received m])
          else some (.waiting received.1 (num - 1), [.received m])
      | (.kBusEmpty, _) => some (.waiting received.1 num, [])
      | _ => some (.returned received.1 false, [])
  | .returned _ _, _ => none

def main (targetAddress : Address) (messageNum : Int) :
    QueueProgram Stage Bool Output (List UInt8) where
  input := fun stage => stage.client.input
  output := fun stage => stage.client.output
  withInput := fun stage records => stage.withClient { stage.client with input := records }
  withOutput := fun stage records => stage.withClient { stage.client with output := records }
  round := round targetAddress messageNum
  input_withInput := fun stage _ => by cases stage <;> rfl
  output_withInput := fun stage _ => by cases stage <;> rfl
  input_withOutput := fun stage _ => by cases stage <;> rfl
  output_withOutput := fun stage _ => by cases stage <;> rfl
  withInput_input := fun stage => by cases stage <;> rfl
  withOutput_output := fun stage => by cases stage <;> rfl
  withInput_withInput := fun stage _ _ => by cases stage <;> rfl
  withOutput_withOutput := fun stage _ _ => by cases stage <;> rfl
  withInput_withOutput := fun stage _ _ => by cases stage <;> rfl

def Output.message : Output → List Message
  | .sent m => [m]
  | .received _ => []

def Output.heard : Output → List Message
  | .sent _ => []
  | .received m => [m]

def sentIn (outputs : List Output) : List Message := outputs.flatMap Output.message

def receivedIn (outputs : List Output) : List Message := outputs.flatMap Output.heard

/-- What a round can do. -/
inductive Rounds (targetAddress : Address) (messageNum : Int) :
    Stage → Stage → List Output → Prop where
  | sent {client num} (more : num < messageNum) :
      Rounds targetAddress messageNum (.sending client num)
        (.sending (Chat.posting client [testMessage targetAddress]) (num + 1))
        [.sent (testMessage targetAddress)]
  | sentAll {client num} :
      Rounds targetAddress messageNum (.sending client num) (.waiting client num) []
  | idle {client num} (empty : client.input = []) :
      Rounds targetAddress messageNum (.waiting client num) (.waiting client num) []
  | received {client num record rest m} (input : client.input = record :: rest)
      (whole : receivedOf record = some m) (others : num - 1 ≠ 0) :
      Rounds targetAddress messageNum (.waiting client num)
        (.waiting { client with input := rest } (num - 1)) [.received m]
  | last {client num record rest m} (input : client.input = record :: rest)
      (whole : receivedOf record = some m) (none : num - 1 = 0) :
      Rounds targetAddress messageNum (.waiting client num)
        (.returned { client with input := rest } true) [.received m]
  | refused {client num record rest} (input : client.input = record :: rest)
      (bad : receivedOf record = none) :
      Rounds targetAddress messageNum (.waiting client num)
        (.returned { client with input := rest } false) []

section Program

variable {targetAddress : Address} {messageNum : Int} {stage after : Stage} {written : Bool}
  {outputs : List Output}

theorem round_rounds
    (rounded : round targetAddress messageNum stage written = some (after, outputs)) :
    Rounds targetAddress messageNum stage after outputs := by
  cases stage with
  | returned client success => cases rounded
  | sending client num =>
      rw [round] at rounded
      split at rounded
      · rename_i more
        cases written with
        | true =>
            cases rounded
            exact .sent more
        | false =>
            cases rounded
            exact .sentAll
      · cases rounded
        exact .sentAll
  | waiting client num =>
      cases input : client.input with
      | nil =>
          simp only [round, ClientImpl.receiveMessage, input] at rounded
          cases rounded
          exact .idle input
      | cons record rest =>
          rcases receiveMessage_cases input with
            ⟨m, whole, received⟩ | ⟨bad, status, received, kind⟩
          · simp only [round, received] at rounded
            split at rounded
            · rename_i none
              cases rounded
              exact .last input whole none
            · rename_i others
              cases rounded
              exact .received input whole others
          · rcases kind with rfl | rfl <;>
            · simp only [round, received] at rounded
              cases rounded
              exact .refused input bad

theorem input_round
    (rounded : round targetAddress messageNum stage written = some (after, outputs)) :
    after.client.input <:+ stage.client.input := by
  cases round_rounds rounded with
  | sent _ | sentAll | idle _ => exact List.suffix_refl _
  | received input _ _ | last input _ _ | refused input _ =>
      simp only [Stage.client, input]
      exact List.suffix_cons _ _

theorem posts_round
    (rounded : round targetAddress messageNum stage written = some (after, outputs)) :
    after.client.output = stage.client.output ++
      outputs.flatMap fun output => output.message.map fun m => m.image [] := by
  cases round_rounds rounded with
  | sent _ => rfl
  | sentAll | idle _ | received _ _ _ | last _ _ _ | refused _ _ => exact (List.append_nil _).symm

theorem reads_round
    (rounded : round targetAddress messageNum stage written = some (after, outputs)) :
    stage.client.input.flatMap (fun record => (receivedOf record).toList) =
      outputs.flatMap Output.heard ++
        after.client.input.flatMap fun record => (receivedOf record).toList := by
  cases round_rounds rounded with
  | sent _ | sentAll | idle _ => rfl
  | received input whole _ | last input whole _ =>
      simp only [Stage.client, input, List.flatMap_cons, whole]
      rfl
  | refused input bad =>
      simp only [Stage.client, input, List.flatMap_cons, bad]
      rfl

/-- `num` against the numbers of messages sent and received. -/
def Counter (sent received : Nat) : Stage → Prop
  | .sending _ num => num = sent ∧ received = 0
  | .waiting _ num => num = (sent : Int) - received ∧ (num = 0 → received = 0)
  | .returned _ success => success = true → sent = received ∧ 0 < received

structure Counts (targetAddress : Address) (messageNum : Int) (outputs : List Output)
    (stage : Stage) : Prop where
  sent : sentIn outputs = List.replicate (sentIn outputs).length (testMessage targetAddress)
  bounded : (sentIn outputs).length ≤ messageNum.toNat
  counter : Counter (sentIn outputs).length (receivedIn outputs).length stage

theorem sentIn_append (first second : List Output) :
    sentIn (first ++ second) = sentIn first ++ sentIn second :=
  List.flatMap_append

theorem receivedIn_append (first second : List Output) :
    receivedIn (first ++ second) = receivedIn first ++ receivedIn second :=
  List.flatMap_append

theorem Counts.initial (targetAddress : Address) (messageNum : Int) (client : ClientImpl) :
    Counts targetAddress messageNum [] (.sending client 0) :=
  ⟨rfl, Nat.zero_le _, rfl, rfl⟩

theorem Counts.withClient {before : List Output}
    (counts : Counts targetAddress messageNum before stage) (client : ClientImpl) :
    Counts targetAddress messageNum before (stage.withClient client) := by
  obtain ⟨sent, bounded, counter⟩ := counts
  exact ⟨sent, bounded, by cases stage <;> exact counter⟩

/-- The step: where a message is sent or received, `num` counts it. -/
theorem Counts.round {before : List Output}
    (counts : Counts targetAddress messageNum before stage)
    (rounded : round targetAddress messageNum stage written = some (after, outputs)) :
    Counts targetAddress messageNum (before ++ outputs) after := by
  obtain ⟨sent, bounded, counter⟩ := counts
  have same (silent : sentIn outputs = []) : sentIn (before ++ outputs) = sentIn before := by
    rw [sentIn_append, silent, List.append_nil]
  cases round_rounds rounded with
  | sent more =>
      obtain ⟨counted, none⟩ := counter
      have behind : sentIn (before ++ [.sent (testMessage targetAddress)]) =
          sentIn before ++ [testMessage targetAddress] := sentIn_append _ _
      have unheard : receivedIn (before ++ [.sent (testMessage targetAddress)]) =
          receivedIn before := (receivedIn_append _ _).trans (List.append_nil _)
      refine ⟨?_, ?_, ?_, ?_⟩
      · rw [behind, List.length_append, List.length_singleton, List.replicate_succ', ← sent]
      · rw [behind, List.length_append, List.length_singleton]
        omega
      · rw [behind, List.length_append, List.length_singleton]
        omega
      · rw [unheard, none]
  | sentAll =>
      obtain ⟨counted, none⟩ := counter
      rw [List.append_nil]
      exact ⟨sent, bounded, by omega, fun _ => none⟩
  | idle _ =>
      rw [List.append_nil]
      exact ⟨sent, bounded, counter⟩
  | @received _ num _ _ m _ _ others =>
      obtain ⟨counted, _⟩ := counter
      have behind : receivedIn (before ++ [.received m]) = receivedIn before ++ [m] :=
        receivedIn_append _ _
      refine ⟨by rw [same rfl, ← sent], by rw [same rfl]; exact bounded, ?_, ?_⟩
      · rw [same rfl, behind, List.length_append, List.length_singleton]
        omega
      · exact fun none => absurd none others
  | @last _ num _ _ m _ _ none =>
      obtain ⟨counted, _⟩ := counter
      have behind : receivedIn (before ++ [.received m]) = receivedIn before ++ [m] :=
        receivedIn_append _ _
      refine ⟨by rw [same rfl, ← sent], by rw [same rfl]; exact bounded, fun _ => ?_⟩
      rw [same rfl, behind, List.length_append, List.length_singleton]
      omega
  | refused _ _ =>
      rw [List.append_nil]
      exact ⟨sent, bounded, nofun⟩

variable {start : Stage} {guard : Stage → QueueProgram.Event Bool (List UInt8) → Prop}
  {history : List (EventMachine.Taken Stage (QueueProgram.Event Bool (List UInt8)) Output)}

theorem counts_run {client : ClientImpl}
    (run : (main targetAddress messageNum).machine.Run guard (.sending client 0) history stage) :
    Counts targetAddress messageNum (EventMachine.outputs history) stage :=
  QueueProgram.invariant_run run
    (fun _ outputs stage => Counts targetAddress messageNum outputs stage)
    (.initial targetAddress messageNum client) (fun _ _ _ _ counts => counts.withClient _)
    (fun _ _ _ _ counts => counts.withClient _)
    (fun _ _ _ _ _ _ counts rounded => counts.round rounded)

/-- If only records come that can be received, none is left unread that cannot, and `main`
does not fail. -/
theorem receives_run {client : ClientImpl} (unused : client.input = [])
    (run : (main targetAddress messageNum).machine.Run guard (.sending client 0) history stage)
    (good : ∀ record ∈ QueueProgram.arrivedIn history, (receivedOf record).isSome = true) :
    (∀ record ∈ (main targetAddress messageNum).input stage, (receivedOf record).isSome = true) ∧
      stage.result ≠ some false := by
  induction run with
  | nil => exact ⟨by simp [main, Stage.client, unused], nofun⟩
  | @snoc history before event outputs after _ _ stepped ih =>
      rw [QueueProgram.arrivedIn_snoc] at good
      obtain ⟨unread, succeeds⟩ := ih fun record came => good record (List.mem_append_left _ came)
      cases event with
      | round written =>
          refine ⟨fun record waits => unread record ((input_round stepped).subset waits), ?_⟩
          cases round_rounds stepped with
          | sent _ | sentAll | idle _ | received _ _ _ | last _ _ _ => nofun
          | @refused client num record rest input bad =>
              have seen := unread record (by simp [main, Stage.client, input])
              rw [bad] at seen
              cases seen
      | arrive record =>
          cases stepped
          refine ⟨fun other waits => ?_, by simpa [main] using succeeds⟩
          rw [QueueProgram.input_withInput] at waits
          rcases List.mem_append.mp waits with old | new
          · exact unread other old
          · exact good other (List.mem_append_right _ new)
      | take =>
          cases stepped
          refine ⟨fun other waits => unread other ?_, by simpa [main] using succeeds⟩
          rwa [QueueProgram.input_withOutput] at waits

theorem testMessage_carries (targetAddress source : Address) :
    ((testMessage targetAddress).setSourceAddress source).Carries msg := by
  refine ⟨source, targetAddress, ?_⟩
  rw [Message.setData, if_neg (by decide)]
  rfl

theorem receivedOf_testMessage (targetAddress source : Address) (behind : List UInt8) :
    receivedOf (((testMessage targetAddress).setSourceAddress source).image behind) =
      some ((testMessage targetAddress).setSourceAddress source) :=
  receivedOf_image (testMessage_carries targetAddress source) (by decide) behind

theorem checkRecord_testMessage (targetAddress : Address) :
    ClientInfo.checkRecord ((testMessage targetAddress).image []) =
      some (testMessage targetAddress) := by
  have carries : (testMessage targetAddress).Carries msg :=
    testMessage_carries targetAddress (testMessage targetAddress).sourceAddress
  rw [carries.image_eq]
  exact carries.checkRecord_iff.mpr (by decide)

/-- What is taken off the client's bus is the one message, as often as it is taken. -/
theorem taken_run
    (run : (main targetAddress messageNum).machine.Run guard (.sending ⟨[], []⟩ 0) history stage) :
    ((main targetAddress messageNum).takenIn history).filterMap ClientInfo.checkRecord =
        List.replicate ((main targetAddress messageNum).takenIn history).length
          (testMessage targetAddress) ∧
      ((main targetAddress messageNum).takenIn history).length + stage.client.output.length =
        (sentIn (EventMachine.outputs history)).length := by
  have all : (main targetAddress messageNum).takenIn history ++ stage.client.output =
      (sentIn (EventMachine.outputs history)).map fun m => m.image [] := by
    rw [sentIn, List.map_flatMap]
    exact QueueProgram.written_run (fun _ _ _ _ => posts_round) run
  have same : ∀ record ∈ (main targetAddress messageNum).takenIn history,
      record = (testMessage targetAddress).image [] := by
    intro record member
    have sent := List.mem_append_left stage.client.output member
    rw [all, (counts_run run).sent, List.map_replicate] at sent
    exact List.eq_of_mem_replicate sent
  refine ⟨?_, by simpa using congrArg List.length all⟩
  rw [List.eq_replicate_of_mem same,
    List.filterMap_replicate_of_some (checkRecord_testMessage targetAddress),
    List.length_replicate]

/-- What has come is what was received and what is still unread. -/
theorem received_run
    (run : (main targetAddress messageNum).machine.Run guard (.sending ⟨[], []⟩ 0) history stage)
    (good : ∀ record ∈ QueueProgram.arrivedIn history, (receivedOf record).isSome = true) :
    (QueueProgram.arrivedIn history).length =
        (receivedIn (EventMachine.outputs history)).length + stage.client.input.length ∧
      ∀ m ∈ receivedIn (EventMachine.outputs history),
        ∃ record ∈ QueueProgram.arrivedIn history, receivedOf record = some m := by
  have unread : ∀ record ∈ stage.client.input, (receivedOf record).isSome = true :=
    (receives_run rfl run good).1
  have all : (QueueProgram.arrivedIn history).filterMap receivedOf =
      receivedIn (EventMachine.outputs history) ++ stage.client.input.filterMap receivedOf := by
    rw [List.filterMap_eq_flatMap_toList, List.filterMap_eq_flatMap_toList]
    exact QueueProgram.read_run (fun _ _ _ _ => reads_round) run
  constructor
  · have lengths := congrArg List.length all
    rwa [List.length_append, List.filterMap_length_eq_length.mpr good,
      List.filterMap_length_eq_length.mpr unread] at lengths
  · intro m member
    exact List.mem_filterMap.mp (all ▸ List.mem_append_left _ member)

/-- Success is that as many have come as were sent, if any were. -/
theorem Counter.succeeds_iff {sent received : Nat} (counter : Counter sent received stage)
    (succeeds : stage.result ≠ some false) :
    stage.result = some true ↔ 0 < sent ∧ received = sent := by
  cases stage with
  | sending client num =>
      obtain ⟨_, none⟩ := counter
      constructor
      · exact nofun
      · omega
  | waiting client num =>
      obtain ⟨counted, none⟩ := counter
      constructor
      · exact nofun
      · omega
  | returned client success =>
      cases success with
      | false => exact absurd rfl succeeds
      | true =>
          obtain ⟨same, some⟩ := counter rfl
          exact ⟨fun _ => by omega, fun _ => rfl⟩

end Program

end Cpmd.ClientMain
