import Cpmd.ChatRoom

/-! The client of the chatroom among the examples: it registers, says what is typed, and
prints what others say; and what becomes of the words on their way to the others. -/

set_option autoImplicit false

namespace Cpmd.Chat

open Library

/-- The memory of its builder and its one message are used again each time. -/
structure Client where
  name : List UInt8
  client : ClientImpl
  builder : List UInt8
  m : Cpmd.Message
  exited : Bool

/-- What is printed of a message: `name: words`. -/
structure Line where
  name : List UInt8
  words : List UInt8
deriving DecidableEq

def lineOf (m : Cpmd.Message) (behind : List UInt8) : Option Line :=
  let chatMessage := dataAs m behind
  if chatMessage.type = .kMessage then some ⟨chatMessage.name, chatMessage.words⟩ else none

/-- What `poll` says of the standard input, with what is then read of it, if that does not
fail, and the outcome of the `Write`. -/
inductive Polled where
  | ready (read : Option (List UInt8)) (written : Bool)
  | timedOut
  | failed

/-- The words that are sent in a round. -/
def Polled.words : Polled → List (List UInt8)
  | .ready (some words) true => [words]
  | .ready (some _) false | .ready none _ | .timedOut | .failed => []

/-- A round of the inner loop: the record that is read, the message that is then looked at, and
what lies behind that. -/
structure Look where
  record : List UInt8
  m : Cpmd.Message
  behind : List UInt8

def Look.line (look : Look) : Option Line := lineOf look.m look.behind

namespace Client

/-- What is done before the loop, with the client just created. -/
def start (chatroomAddress : Address) (name : List UInt8) (client : ClientImpl)
    (written : Bool) : Client :=
  let builder := Message.Builder.setName
    (Message.Builder.setType Message.Builder.create .kRegister) name
  let m := (Cpmd.Message.default.setRemoteAddress chatroomAddress).setData builder
  let m := m.getD (Cpmd.Message.default.setRemoteAddress chatroomAddress)
  let sent := client.sendMessage m [] written
  ⟨name, sent.1, builder, m, sent.2 ≠ .kOk⟩

def say (member : Client) (words : List UInt8) (written : Bool) : Client :=
  let builder := Message.Builder.setWords (Message.Builder.setName
    (Message.Builder.setType member.builder .kMessage) member.name) words
  let m := (member.m.setData builder).getD member.m
  let sent := member.client.sendMessage m [] written
  ⟨member.name, sent.1, builder, m, sent.2 ≠ .kOk⟩

/-- The inner loop from its round `count` on. Where `ReceiveMessage` fails it leaves the pointer
as it is, so that the loop looks at the same message again; what the pointer points to before
the first message is `pointed`, if it can be read. There are no more rounds than records, and
one to find the bus empty. -/
def printAll (behind : Nat → List UInt8) :
    Nat → Nat → Option Cpmd.Message → ClientImpl → Option (ClientImpl × List Look)
  | 0, _, _, _ => none
  | fuel + 1, count, pointed, client =>
      let received := client.receiveMessage
      match received.2 with
      | (.kBusEmpty, _) => some (received.1, [])
      | (_, m) =>
          match m.or pointed with
          | none => none
          | some m =>
              (printAll behind fuel (count + 1) (some m) received.1).map fun later =>
                (later.1, ⟨client.input.headD [], m, behind count⟩ :: later.2)

inductive Output where
  | sent (m : Cpmd.Message)
  | looked (look : Look)

/-- What `poll` says in a round, what lies behind the message at each look of the inner loop,
and what its pointer, which is not initialised, points to at first. -/
structure Surroundings where
  polled : Polled
  behind : Nat → List UInt8
  pointed : Option Cpmd.Message

def listen (member : Client) (around : Surroundings) (sent : List Output) :
    Option (Client × List Output) :=
  (printAll around.behind (member.client.input.length + 1) 0 around.pointed member.client).map
    fun read => ({ member with client := read.1 }, sent ++ read.2.map .looked)

/-- One round of the loop. No more is read of the input than the array has room for. -/
def round (member : Client) (around : Surroundings) : Option (Client × List Output) :=
  if member.exited then none
  else
    match around.polled with
    | .failed | .ready none _ => some ({ member with exited := true }, [])
    | .timedOut => member.listen around []
    | .ready (some words) written =>
        if words.length ≤ kMaxWordsSize then
          let member := member.say words written
          if member.exited then some (member, []) else member.listen around [.sent member.m]
        else none

abbrev Event : Type := QueueProgram.Event Surroundings (List UInt8)

def program : QueueProgram Client Surroundings Output (List UInt8) where
  input := fun member => member.client.input
  output := fun member => member.client.output
  withInput := fun member records =>
    { member with client := { member.client with input := records } }
  withOutput := fun member records =>
    { member with client := { member.client with output := records } }
  round := round
  input_withInput := fun _ _ => rfl
  output_withInput := fun _ _ => rfl
  input_withOutput := fun _ _ => rfl
  output_withOutput := fun _ _ => rfl
  withInput_input := fun _ => rfl
  withOutput_output := fun _ => rfl
  withInput_withInput := fun _ _ _ => rfl
  withOutput_withOutput := fun _ _ _ => rfl
  withInput_withOutput := fun _ _ _ => rfl

/-- A record that can be received is looked at as the message it is, and after one that
cannot, the message before it once more. -/
inductive Follows (behind : Nat → List UInt8) : Nat → Option Cpmd.Message → List Look → Prop where
  | nil {count pointed} : Follows behind count pointed []
  | cons {count pointed record m looks} (looked : (receivedOf record).or pointed = some m)
      (rest : Follows behind (count + 1) (some m) looks) :
      Follows behind count pointed (⟨record, m, behind count⟩ :: looks)

theorem Follows.received {behind : Nat → List UInt8} {count : Nat}
    {pointed : Option Cpmd.Message} {looks : List Look}
    (follows : Follows behind count pointed looks) :
    ∀ look ∈ looks, ∀ m, receivedOf look.record = some m → look.m = m := by
  induction follows with
  | nil => exact nofun
  | @cons count pointed record m looks looked _ ih =>
      intro look member received whole
      rcases List.mem_cons.mp member with rfl | later
      · rw [whole] at looked
        exact (Option.some.inj looked).symm
      · exact ih look later received whole

/-- What is printed of a record that can be received. -/
def printedOf (record behind : List UInt8) : Option Line :=
  (receivedOf record).bind fun m => lineOf m behind

section Listening

variable {behind : Nat → List UInt8} {fuel count : Nat} {pointed : Option Cpmd.Message}
  {client : ClientImpl}

theorem printAll_nil (input : client.input = []) :
    printAll behind (fuel + 1) count pointed client = some (client, []) := by
  simp only [printAll, ClientImpl.receiveMessage, input]

theorem printAll_cons {record : List UInt8} {rest : List (List UInt8)}
    (input : client.input = record :: rest) :
    printAll behind (fuel + 1) count pointed client =
      ((receivedOf record).or pointed).bind fun m =>
        (printAll behind fuel (count + 1) (some m) { client with input := rest }).map fun later =>
          (later.1, ⟨record, m, behind count⟩ :: later.2) := by
  rcases receiveMessage_cases input with ⟨m, whole, received⟩ | ⟨bad, status, received, kind⟩
  · simp only [printAll, received, whole, input, Option.some_or, Option.bind_some]
    rfl
  · rcases kind with rfl | rfl <;>
    · simp only [printAll, received, bad, input, Option.none_or]
      cases pointed <;> rfl

/-- The bus is read to its end. -/
theorem printAll_spec {after : ClientImpl} {looks : List Look}
    (read : printAll behind fuel count pointed client = some (after, looks)) :
    after = { client with input := [] } ∧ looks.map Look.record = client.input ∧
      Follows behind count pointed looks := by
  induction fuel generalizing count pointed client after looks with
  | zero => cases read
  | succ fuel ih =>
      cases input : client.input with
      | nil =>
          rw [printAll_nil input] at read
          cases read
          exact ⟨by rw [← input], rfl, .nil⟩
      | cons record rest =>
          rw [printAll_cons input] at read
          obtain ⟨m, looked, read⟩ := Option.bind_eq_some_iff.mp read
          obtain ⟨later, remaining, same⟩ := Option.map_eq_some_iff.mp read
          obtain ⟨rfl, rfl⟩ := Prod.mk.inj same
          obtain ⟨emptied, records, follows⟩ := ih remaining
          exact ⟨emptied, congrArg (record :: ·) records, .cons looked follows⟩

/-- The loop gets to the end of the bus, if there is something to look at from the start. -/
theorem isSome_printAll (enough : client.input.length < fuel)
    (start : ∀ record ∈ client.input.head?, ((receivedOf record).or pointed).isSome = true) :
    (printAll behind fuel count pointed client).isSome = true := by
  induction fuel generalizing count pointed client with
  | zero => exact absurd enough (Nat.not_lt_zero _)
  | succ fuel ih =>
      cases input : client.input with
      | nil =>
          rw [printAll_nil input]
          rfl
      | cons record rest =>
          rw [input] at start enough
          obtain ⟨m, looked⟩ := Option.isSome_iff_exists.mp (start record rfl)
          have goesOn : (printAll behind fuel (count + 1) (some m)
              { client with input := rest }).isSome = true :=
            ih (Nat.lt_of_succ_lt_succ enough) fun record _ => by simp
          obtain ⟨later, remaining⟩ := Option.isSome_iff_exists.mp goesOn
          rw [printAll_cons input, looked, Option.bind_some, remaining]
          rfl

end Listening

/-- The message that is sent with this record in it. -/
def messageOf (chatroomAddress : Address) (record : Message) : Cpmd.Message :=
  { Cpmd.Message.default with
    remoteAddress := chatroomAddress
    len := Int32.ofNat Message.sizeof
    data := record.layout }

theorem setData_layout (m : Cpmd.Message) (record : Message) :
    (m.setData record.layout).getD m =
      { m with len := Int32.ofNat Message.sizeof, data := record.layout } := by
  rw [Cpmd.Message.setData, Message.length_layout, if_neg (by decide), Option.getD_some]

theorem sentAs_messageOf (chatroomAddress : Address) (record : Message) :
    sentAs (messageOf chatroomAddress record) = ⟨chatroomAddress, record.seen⟩ := by
  rw [sentAs, dataAs_of_layout rfl]
  rfl

/-- What the builder's memory and the message hold between two rounds. -/
def Holds (chatroomAddress : Address) (member : Client) (record : Message) : Prop :=
  member.builder = record.layout ∧ member.m = messageOf chatroomAddress record

theorem start_spec (chatroomAddress : Address) (name : List UInt8) (client : ClientImpl) :
    (start chatroomAddress name client true).Holds chatroomAddress ⟨.kRegister, name, [], []⟩ ∧
      (start chatroomAddress name client true).client =
        posting client [messageOf chatroomAddress ⟨.kRegister, name, [], []⟩] := by
  have built : Message.Builder.setName
      (Message.Builder.setType Message.Builder.create .kRegister) name =
      Message.layout ⟨.kRegister, name, [], []⟩ := by
    rw [← Message.layout_nothing]
    exact Message.foldl_layout _ [.setType .kRegister, .setName name]
  simp only [start, built, setData_layout, Holds]
  exact ⟨⟨trivial, rfl⟩, rfl⟩

variable {chatroomAddress : Address}

theorem say_spec {member : Client} {record : Message}
    (holds : member.Holds chatroomAddress record) (words : List UInt8) (written : Bool) :
    (member.say words written).Holds chatroomAddress
      ⟨.kMessage, member.name, record.toName, words⟩ := by
  obtain ⟨builder, message⟩ := holds
  have built : Message.Builder.setWords (Message.Builder.setName
      (Message.Builder.setType member.builder .kMessage) member.name) words =
      Message.layout ⟨.kMessage, member.name, record.toName, words⟩ := by
    rw [builder]
    exact Message.foldl_layout record [.setType .kMessage, .setName member.name, .setWords words]
  simp only [say, built, setData_layout, Holds, message]
  exact ⟨trivial, rfl⟩

theorem exited_say (member : Client) (words : List UInt8) (written : Bool) :
    (member.say words written).exited = !written := by
  cases written <;> simp [say, ClientImpl.sendMessage]

/-- What a round can do. -/
inductive Rounds (member : Client) (around : Surroundings) : Client → List Output → Prop where
  | stopped (failed : around.polled = .failed ∨ ∃ written, around.polled = .ready none written) :
      Rounds member around { member with exited := true } []
  | unwritten {words} (polled : around.polled = .ready (some words) false) :
      Rounds member around (member.say words false) []
  | said {words after outputs} (polled : around.polled = .ready (some words) true)
      (listened : (member.say words true).listen around
        [.sent (member.say words true).m] = some (after, outputs)) :
      Rounds member around after outputs
  | silent {after outputs} (polled : around.polled = .timedOut)
      (listened : member.listen around [] = some (after, outputs)) :
      Rounds member around after outputs

theorem round_rounds {member after : Client} {around : Surroundings} {outputs : List Output}
    (rounded : member.round around = some (after, outputs)) :
    member.Rounds around after outputs := by
  simp only [round] at rounded
  split at rounded
  · cases rounded
  · cases polled : around.polled with
    | failed =>
        rw [polled] at rounded
        cases rounded
        exact .stopped (.inl polled)
    | timedOut =>
        rw [polled] at rounded
        exact .silent polled rounded
    | ready read written =>
        cases read with
        | none =>
            rw [polled] at rounded
            cases rounded
            exact .stopped (.inr ⟨written, polled⟩)
        | some words =>
            simp only [polled, exited_say] at rounded
            split at rounded
            · cases written with
              | true => exact .said polled rounded
              | false =>
                  cases rounded
                  exact .unwritten polled
            · cases rounded

/-- No more was read of the input than there is room for, and the pointer can be followed
where the first record is none to receive. -/
def Surroundings.Serves (around : Surroundings) (member : Client) : Prop :=
  (∀ words written, around.polled = .ready (some words) written →
      words.length ≤ kMaxWordsSize) ∧
    ∀ record ∈ member.client.input.head?,
      ((receivedOf record).or around.pointed).isSome = true

theorem isSome_listen {member : Client} {around : Surroundings} (sent : List Output)
    (start : ∀ record ∈ member.client.input.head?,
      ((receivedOf record).or around.pointed).isSome = true) :
    (member.listen around sent).isSome = true := by
  rw [listen, Option.isSome_map]
  exact isSome_printAll (Nat.lt_succ_self _) start

theorem isSome_round {member : Client} (running : member.exited = false)
    {around : Surroundings} (serves : around.Serves member) :
    (member.round around).isSome = true := by
  obtain ⟨short, start⟩ := serves
  simp only [round, running, Bool.false_eq_true, if_false]
  cases polled : around.polled with
  | failed => rfl
  | timedOut => exact isSome_listen [] start
  | ready read written =>
      cases read with
      | none => rfl
      | some words =>
          simp only [if_pos (short words written polled), exited_say]
          cases written with
          | false => rfl
          | true => exact isSome_listen _ start

def Output.message : Output → List Cpmd.Message
  | .sent m => [m]
  | .looked _ => []

def Output.look : Output → List Look
  | .sent _ => []
  | .looked look => [look]

theorem message_looked (looks : List Look) :
    (looks.map Output.looked).flatMap Output.message = [] := by
  induction looks with
  | nil => rfl
  | cons look rest ih => exact ih

theorem look_looked (looks : List Look) :
    (looks.map Output.looked).flatMap Output.look = looks := by
  induction looks with
  | nil => rfl
  | cons look rest ih => rw [List.map_cons, List.flatMap_cons, ih]; rfl

/-- The messages are those sent before, and all records are read. -/
theorem listen_spec {member after : Client} {around : Surroundings} (sent : List Cpmd.Message)
    {outputs : List Output}
    (listened : member.listen around (sent.map .sent) = some (after, outputs)) :
    after = { member with client := { member.client with input := [] } } ∧
      outputs.flatMap Output.message = sent ∧
      (outputs.flatMap Output.look).map Look.record = member.client.input ∧
      Follows around.behind 0 around.pointed (outputs.flatMap Output.look) := by
  obtain ⟨read, looked, same⟩ := Option.map_eq_some_iff.mp listened
  obtain ⟨rfl, rfl⟩ := Prod.mk.inj same
  obtain ⟨emptied, records, follows⟩ := printAll_spec looked
  have silent : (sent.map Output.sent).flatMap Output.look = [] := by
    rw [List.flatMap_map]
    exact List.flatMap_eq_nil_iff.mpr fun _ _ => rfl
  have spoken : (sent.map Output.sent).flatMap Output.message = sent := by
    rw [List.flatMap_map]
    exact List.flatMap_singleton' sent
  rw [List.flatMap_append, List.flatMap_append, message_looked, look_looked, silent, spoken,
    List.append_nil, List.nil_append]
  exact ⟨by rw [emptied], rfl, records, follows⟩

theorem say_client (member : Client) (words : List UInt8) (written : Bool) :
    (member.say words written).client = posting member.client
      (if written then [(member.say words written).m] else []) := by
  cases written <;> simp [say, ClientImpl.sendMessage, posting]

theorem posts_round {member after : Client} {around : Surroundings} {outputs : List Output}
    (rounded : member.round around = some (after, outputs)) :
    after.client.output = member.client.output ++
      outputs.flatMap fun output => output.message.map fun m => m.image [] := by
  rw [← List.map_flatMap]
  cases round_rounds rounded with
  | stopped _ => exact (List.append_nil _).symm
  | unwritten _ => rw [say_client]; rfl
  | said _ listened =>
      obtain ⟨rfl, spoken, _⟩ := listen_spec [_] listened
      rw [spoken, say_client]
      rfl
  | silent _ listened =>
      obtain ⟨rfl, spoken, _⟩ := listen_spec [] listened
      rw [spoken]
      exact (List.append_nil _).symm

theorem reads_round {member after : Client} {around : Surroundings} {outputs : List Output}
    (rounded : member.round around = some (after, outputs)) :
    member.client.input =
        (outputs.flatMap Output.look).map Look.record ++ after.client.input ∧
      Follows around.behind 0 around.pointed (outputs.flatMap Output.look) := by
  cases round_rounds rounded with
  | stopped _ => exact ⟨rfl, .nil⟩
  | unwritten _ =>
      rw [say_client]
      exact ⟨rfl, .nil⟩
  | said _ listened =>
      obtain ⟨rfl, _, records, follows⟩ := listen_spec [_] listened
      rw [records, say_client]
      exact ⟨(List.append_nil _).symm, follows⟩
  | silent _ listened =>
      obtain ⟨rfl, _, records, follows⟩ := listen_spec [] listened
      rw [records]
      exact ⟨(List.append_nil _).symm, follows⟩

def typed : Event → List (List UInt8)
  | .round around => around.polled.words
  | .arrive _ | .take => []

theorem records_round {member after : Client} {around : Surroundings} {outputs : List Output}
    (rounded : member.round around = some (after, outputs)) :
    member.client.input.flatMap (fun record => [record]) =
      (outputs.flatMap fun output => output.look.map Look.record) ++
        after.client.input.flatMap fun record => [record] := by
  rw [List.flatMap_singleton', List.flatMap_singleton', ← List.map_flatMap]
  exact (reads_round rounded).1

section Runs

variable {history : List (EventMachine.Taken Client Event Output)} {member : Client}
  {name : List UInt8} {client : ClientImpl}

def typedIn (history : List (EventMachine.Taken Client Event Output)) : List (List UInt8) :=
  history.flatMap fun taken => typed taken.event

def sentIn (history : List (EventMachine.Taken Client Event Output)) : List Cpmd.Message :=
  (EventMachine.outputs history).flatMap Output.message

def looksIn (history : List (EventMachine.Taken Client Event Output)) : List Look :=
  (EventMachine.outputs history).flatMap Output.look

def printedIn (history : List (EventMachine.Taken Client Event Output)) : List Line :=
  (looksIn history).filterMap Look.line

/-- What is to be sent for some words, under a name. -/
def spoken (chatroomAddress : Address) (name words : List UInt8) : Letter :=
  ⟨chatroomAddress,
    ⟨.kMessage, Message.cut kMaxNameSize name, [], Message.cut kMaxWordsSize words⟩⟩

def utterance (chatroomAddress : Address) (name words : List UInt8) : Cpmd.Message :=
  messageOf chatroomAddress ⟨.kMessage, name, [], words⟩

theorem sentAs_utterance (chatroomAddress : Address) (name words : List UInt8) :
    sentAs (utterance chatroomAddress name words) = spoken chatroomAddress name words :=
  sentAs_messageOf chatroomAddress _

theorem map_sentAs_utterance (chatroomAddress : Address) (name : List UInt8)
    (said : List (List UInt8)) :
    (said.map (utterance chatroomAddress name)).map sentAs =
      said.map (spoken chatroomAddress name) := by
  rw [List.map_map]
  exact List.map_congr_left fun words _ => sentAs_utterance chatroomAddress name words

/-- What the loop keeps: the room is sent the name, and then the words in the order in
which they were typed, each cut to its field; this and nothing else goes to the bus. All
records are read in the order in which they arrive, and each round prints what it looks at:
the record, or once more the message before it if the record is none to receive. Only an
impossible read, or a pointer to nowhere, stops the loop before its end. -/
structure Converses (chatroomAddress : Address) (name : List UInt8) (client : ClientImpl)
    (history : List (EventMachine.Taken Client Event Output)) (member : Client) : Prop where
  said : (sentIn history).map sentAs = (typedIn history).map (spoken chatroomAddress name)
  posted : ∃ registration, sentAs registration =
      ⟨chatroomAddress, ⟨.kRegister, Message.cut kMaxNameSize name, [], []⟩⟩ ∧
    program.takenIn history ++ member.client.output =
      client.output ++ (registration :: sentIn history).map fun m => m.image []
  read : client.input ++ QueueProgram.arrivedIn history =
    (looksIn history).map Look.record ++ member.client.input
  looked : ∀ taken ∈ history, ∀ around, taken.event = .round around →
    Follows around.behind 0 around.pointed (taken.outputs.flatMap Output.look)
  goesOn : member.exited = false → ∀ around : Surroundings, around.Serves member →
    (member.round around).isSome = true

/-- Between two rounds, only fields that the next words overwrite differ. -/
def Ready (chatroomAddress : Address) (name : List UInt8) (member : Client) : Prop :=
  member.name = name ∧ ∃ type words, member.Holds chatroomAddress ⟨type, name, [], words⟩

theorem ready_round {member after : Client} {around : Surroundings} {outputs : List Output}
    (ready : member.Ready chatroomAddress name)
    (rounded : member.round around = some (after, outputs)) :
    after.Ready chatroomAddress name ∧ outputs.flatMap Output.message =
      around.polled.words.map (utterance chatroomAddress name) := by
  obtain ⟨rfl, type, words, holds⟩ := ready
  cases round_rounds rounded with
  | stopped failed =>
      refine ⟨⟨rfl, type, words, holds⟩, ?_⟩
      rcases failed with polled | ⟨written, polled⟩ <;>
      · rw [polled]
        rfl
  | @unwritten words polled =>
      rw [polled]
      exact ⟨⟨rfl, .kMessage, words, say_spec holds words false⟩, rfl⟩
  | @said words _ _ polled listened =>
      obtain ⟨rfl, said, _⟩ := listen_spec [_] listened
      have spoke := say_spec holds words true
      refine ⟨⟨rfl, .kMessage, words, spoke⟩, ?_⟩
      rw [said, polled, spoke.2]
      rfl
  | silent polled listened =>
      obtain ⟨rfl, said, _⟩ := listen_spec [] listened
      refine ⟨⟨rfl, type, words, holds⟩, ?_⟩
      rw [said, polled]
      rfl

theorem said_run
    (run : program.machine.Run (fun _ _ => True) (start chatroomAddress name client true)
      history member) :
    member.Ready chatroomAddress name ∧
      sentIn history = (typedIn history).map (utterance chatroomAddress name) := by
  induction run with
  | nil => exact ⟨⟨rfl, .kRegister, [], (start_spec chatroomAddress name client).1⟩, rfl⟩
  | @snoc history before event produced after _ _ stepped ih =>
      obtain ⟨ready, said⟩ := ih
      have step : after.Ready chatroomAddress name ∧ produced.flatMap Output.message =
          (typed event).map (utterance chatroomAddress name) := by
        cases event with
        | round around => exact ready_round ready stepped
        | arrive record | take =>
            cases stepped
            exact ⟨ready, rfl⟩
      refine ⟨step.1, ?_⟩
      rw [sentIn, EventMachine.outputs_snoc, List.flatMap_append, ← sentIn, said, step.2,
        ← List.map_append, typedIn, typedIn, List.flatMap_append, List.flatMap_singleton]

theorem converses_run
    (run : program.machine.Run (fun _ _ => True) (start chatroomAddress name client true)
      history member) :
    Converses chatroomAddress name client history member := by
  have written := QueueProgram.written_run (fun _ _ _ _ => posts_round) run
  have read := QueueProgram.read_run (fun _ _ _ _ => records_round) run
  obtain ⟨_, started⟩ := start_spec chatroomAddress name client
  refine ⟨?_, ⟨_, sentAs_messageOf chatroomAddress ⟨.kRegister, name, [], []⟩, ?_⟩, ?_,
    fun taken member around same => ?_, fun running _ => isSome_round running⟩
  · rw [(said_run run).2, map_sentAs_utterance]
  · rw [List.map_cons, sentIn, List.map_flatMap]
    refine written.trans ?_
    change (start chatroomAddress name client true).client.output ++ _ = _
    rw [started, posting, List.append_assoc]
    rfl
  · rw [List.flatMap_singleton', List.flatMap_singleton'] at read
    rw [looksIn, List.map_flatMap]
    exact read
  · obtain ⟨_, _, _, stepped⟩ := run.of_mem member
    rw [same] at stepped
    exact (reads_round stepped).2

/-- The first of the members of the room's example, while another one speaks; and a record
comes that is too short for a message, so that the words are printed twice. -/
def someTyping : List Event :=
  [.round ⟨.ready (some [104, 105]) true, fun _ => [], none⟩, .take, .take,
    .arrive (recordFrom ⟨0, 5⟩
      (Message.build [.setType .kMessage, .setName [98], .setWords [111, 107]])),
    .arrive [0], .round ⟨.timedOut, fun _ => [], none⟩]

theorem converses_run_words :
    ∃ history : List (EventMachine.Taken Client Event Output), ∃ member,
      typedIn history = [[104, 105]] ∧
        printedIn history = [⟨[98], [111, 107]⟩, ⟨[98], [111, 107]⟩] ∧
        Converses ⟨0, 5⟩ [97] ⟨[], []⟩ history member := by
  obtain ⟨history, member, run, seen⟩ := EventMachine.exists_run_of_any program.machine
    (fun _ _ => True) (start ⟨0, 5⟩ [97] ⟨[], []⟩ true) someTyping
    (fun reached => decide (typedIn reached.1 = [[104, 105]] ∧
      printedIn reached.1 = [⟨[98], [111, 107]⟩, ⟨[98], [111, 107]⟩])) (by decide +kernel)
  obtain ⟨typed, printed⟩ := of_decide_eq_true seen
  exact ⟨history, member, typed, printed, converses_run run⟩

/-- What a member has typed is what the others print of it, if the daemons bring the data
as they were: the name and the words, cut to their fields. -/
theorem relayed_run
    (speaking : program.machine.Run (fun _ _ => True) (start chatroomAddress name client true)
      history member)
    {heard : List (EventMachine.Taken Server Server.Event Handled)} {server : Server}
    (conducting : Server.program.machine.Run (fun _ _ => True) Server.initial heard server)
    {m : Cpmd.Message} (said : m ∈ sentIn history) {entry : Handled}
    (handled : entry ∈ EventMachine.outputs heard) (brought : entry.given.data = m.data) :
    ∃ words ∈ typedIn history, m = utterance chatroomAddress name words ∧
      ∀ copy ∈ entry.sent, ∀ source behind memory,
        printedOf ((copy.setSourceAddress source).image behind) memory =
          some ⟨Message.cut kMaxNameSize name, Message.cut kMaxWordsSize words⟩ := by
  rw [(said_run speaking).2] at said
  obtain ⟨words, typed, rfl⟩ := List.mem_map.mp said
  have content : entry.heard.said =
      ⟨.kMessage, Message.cut kMaxNameSize name, [], Message.cut kMaxWordsSize words⟩ := by
    exact dataAs_of_layout brought entry.behind
  refine ⟨words, typed, rfl, fun copy sent source behind memory => ?_⟩
  obtain ⟨remote, reply, _⟩ := copy_of_output conducting handled sent
  have carries := replyMessage_carries entry.heard.said.type entry.heard.said.name
    entry.heard.said.words source remote
  rw [← reply] at carries
  rw [printedOf, receivedOf_image carries (by rw [Message.length_build]; decide),
    Option.bind_some]
  have read : dataAs (copy.setSourceAddress source) memory =
      ⟨.kMessage, Message.cut kMaxNameSize name, [], Message.cut kMaxWordsSize words⟩ := by
    rw [dataAs_of_layout (carries.fields.2.2.2.trans (Message.build_eq_layout _)), content]
    simp only [Message.seen, Message.described, List.foldl_cons, List.foldl_nil,
      Message.Setter.record, Message.cut_cut, Message.mk.injEq, true_and, and_true]
    exact ⟨by decide, rfl⟩
  simp only [lineOf, read, if_true]

theorem relayed_run_words :
    ∃ copy : Cpmd.Message, copy.remoteAddress = ⟨0, 2⟩ ∧
      ∃ words, utterance ⟨0, 5⟩ [97] words = utterance ⟨0, 5⟩ [97] [104, 105] ∧
        ∀ source behind memory, printedOf ((copy.setSourceAddress source).image behind) memory =
          some ⟨Message.cut kMaxNameSize [97], Message.cut kMaxWordsSize words⟩ := by
  obtain ⟨history, _, speaking, spoke⟩ := EventMachine.exists_run_of_any program.machine
    (fun _ _ => True) (start ⟨0, 5⟩ [97] ⟨[], []⟩ true) someTyping
    (fun reached => (sentIn reached.1).any fun m =>
      m == utterance ⟨0, 5⟩ [97] [104, 105]) (by decide +kernel)
  obtain ⟨heard, _, conducting, heardIt⟩ := EventMachine.exists_run_of_any
    Server.program.machine (fun _ _ => True) Server.initial someEvents
    (fun reached => (EventMachine.outputs reached.1).any fun handled =>
      handled.given.data == (utterance ⟨0, 5⟩ [97] [104, 105]).data &&
        handled.sent.any fun copy => copy.remoteAddress == ⟨0, 2⟩) (by decide +kernel)
  obtain ⟨m, said, whole⟩ := List.any_eq_true.mp spoke
  obtain ⟨entry, handled, both⟩ := List.any_eq_true.mp heardIt
  obtain ⟨same, any⟩ := Bool.and_eq_true_iff.mp both
  obtain ⟨copy, sent, receiver⟩ := List.any_eq_true.mp any
  rw [eq_of_beq whole] at said
  obtain ⟨words, _, utters, printed⟩ := relayed_run speaking conducting said handled
    (eq_of_beq same)
  exact ⟨copy, eq_of_beq receiver, words, utters.symm, printed copy sent⟩

end Runs

/-- The program from the creation of its client on. -/
inductive Stage where
  | created (client : ClientImpl)
  | running (member : Client)

inductive Turn where
  | start (written : Bool)
  | round (around : Surroundings)

def Stage.client : Stage → ClientImpl
  | .created client => client
  | .running member => member.client

def Stage.withClient (stage : Stage) (client : ClientImpl) : Stage :=
  match stage with
  | .created _ => .created client
  | .running member => .running { member with client := client }

def turn (chatroomAddress : Address) (name : List UInt8) :
    Stage → Turn → Option (Stage × List Output)
  | .created client, .start written =>
      let member := start chatroomAddress name client written
      some (.running member, if member.exited then [] else [.sent member.m])
  | .running member, .round around =>
      (member.round around).map fun rounded => (.running rounded.1, rounded.2)
  | .created _, .round _ | .running _, .start _ => none

def main (chatroomAddress : Address) (name : List UInt8) :
    QueueProgram Stage Turn Output (List UInt8) where
  input := fun stage => stage.client.input
  output := fun stage => stage.client.output
  withInput := fun stage records => stage.withClient { stage.client with input := records }
  withOutput := fun stage records => stage.withClient { stage.client with output := records }
  round := turn chatroomAddress name
  input_withInput := fun stage _ => by cases stage <;> rfl
  output_withInput := fun stage _ => by cases stage <;> rfl
  input_withOutput := fun stage _ => by cases stage <;> rfl
  output_withOutput := fun stage _ => by cases stage <;> rfl
  withInput_input := fun stage => by cases stage <;> rfl
  withOutput_output := fun stage => by cases stage <;> rfl
  withInput_withInput := fun stage _ _ => by cases stage <;> rfl
  withOutput_withOutput := fun stage _ _ => by cases stage <;> rfl
  withInput_withOutput := fun stage _ _ => by cases stage <;> rfl

def Turn.words : Turn → List (List UInt8)
  | .start _ => []
  | .round around => around.polled.words

/-- What a turn can do. -/
inductive Turns (chatroomAddress : Address) (name : List UInt8) :
    Stage → Turn → Stage → List Output → Prop where
  | unannounced {client} :
      Turns chatroomAddress name (.created client) (.start false)
        (.running (start chatroomAddress name client false)) []
  | announced {client} :
      Turns chatroomAddress name (.created client) (.start true)
        (.running (start chatroomAddress name client true))
        [.sent (start chatroomAddress name client true).m]
  | rounded {member around after outputs}
      (rounded : member.round around = some (after, outputs)) :
      Turns chatroomAddress name (.running member) (.round around) (.running after) outputs

section Main

variable {name : List UInt8} {stage after : Stage} {turning : Turn} {outputs : List Output}

theorem turn_turns (turned : turn chatroomAddress name stage turning = some (after, outputs)) :
    Turns chatroomAddress name stage turning after outputs := by
  cases stage with
  | created client =>
      cases turning with
      | round around => cases turned
      | start written =>
          cases written <;>
          · cases turned
            constructor
  | running member =>
      cases turning with
      | start written => cases turned
      | round around =>
          obtain ⟨⟨next, made⟩, rounded, same⟩ := Option.map_eq_some_iff.mp turned
          cases same
          exact .rounded rounded

theorem input_round {member after : Client} {around : Surroundings} {outputs : List Output}
    (rounded : member.round around = some (after, outputs)) :
    after.client.input <:+ member.client.input :=
  ⟨_, (reads_round rounded).1.symm⟩

theorem start_client (chatroomAddress : Address) (name : List UInt8) (client : ClientImpl)
    (written : Bool) : (start chatroomAddress name client written).client =
      posting client (if written then [(start chatroomAddress name client written).m] else []) := by
  cases written <;> simp [start, ClientImpl.sendMessage, posting]

theorem posts_turn (turned : turn chatroomAddress name stage turning = some (after, outputs)) :
    after.client.output = stage.client.output ++
      outputs.flatMap fun output => output.message.map fun m => m.image [] := by
  cases turn_turns turned with
  | rounded rounded => exact posts_round rounded
  | unannounced | announced =>
      simp only [Stage.client, start_client]
      rfl

theorem looked_turn (turned : turn chatroomAddress name stage turning = some (after, outputs))
    {look : Look} (member : look ∈ outputs.flatMap Output.look) {m : Cpmd.Message}
    (whole : receivedOf look.record = some m) : look.m = m := by
  cases turn_turns turned with
  | rounded rounded => exact (reads_round rounded).2.received look member m whole
  | unannounced | announced => cases member

theorem reads_turn (turned : turn chatroomAddress name stage turning = some (after, outputs)) :
    stage.client.input.flatMap (fun record => [record]) =
      (outputs.flatMap fun output => output.look.map Look.record) ++
        after.client.input.flatMap fun record => [record] := by
  cases turn_turns turned with
  | rounded rounded => exact records_round rounded
  | unannounced | announced =>
      simp only [Stage.client, start_client]
      rfl

def announcement (chatroomAddress : Address) (name : List UInt8) : Cpmd.Message :=
  messageOf chatroomAddress ⟨.kRegister, name, [], []⟩

/-- What a member has sent once it has typed these. -/
def messages (chatroomAddress : Address) (name : List UInt8) (said : List (List UInt8)) :
    List Cpmd.Message :=
  announcement chatroomAddress name :: said.map (utterance chatroomAddress name)

theorem messageOf_carries (chatroomAddress source : Address) (record : Message) :
    ((messageOf chatroomAddress record).setSourceAddress source).Carries record.layout := by
  refine ⟨source, chatroomAddress, ?_⟩
  rw [Cpmd.Message.setData, Message.length_layout, if_neg (by decide)]
  rfl

theorem carries_of_mem_messages {said : List (List UInt8)} {m : Cpmd.Message}
    (member : m ∈ messages chatroomAddress name said) :
    ∃ record : Message, ∀ source, (m.setSourceAddress source).Carries record.layout := by
  rcases List.mem_cons.mp member with rfl | spoken
  · exact ⟨_, fun source => messageOf_carries chatroomAddress source _⟩
  · obtain ⟨words, _, rfl⟩ := List.mem_map.mp spoken
    exact ⟨_, fun source => messageOf_carries chatroomAddress source _⟩

theorem remoteAddress_of_mem_messages {said : List (List UInt8)} {m : Cpmd.Message}
    (member : m ∈ messages chatroomAddress name said) : m.remoteAddress = chatroomAddress := by
  rcases List.mem_cons.mp member with rfl | spoken
  · rfl
  · obtain ⟨words, _, rfl⟩ := List.mem_map.mp spoken
    rfl

theorem whole_of_mem_messages {said : List (List UInt8)} {m : Cpmd.Message}
    (member : m ∈ messages chatroomAddress name said) : Whole m := by
  obtain ⟨record, carries⟩ := carries_of_mem_messages member
  exact whole_of_carries carries

theorem checkRecord_of_mem_messages {said : List (List UInt8)} {m : Cpmd.Message}
    (member : m ∈ messages chatroomAddress name said) :
    ClientInfo.checkRecord (m.image []) = some m := by
  obtain ⟨record, stamped⟩ := carries_of_mem_messages member
  have carries : m.Carries record.layout := stamped m.sourceAddress
  rw [carries.image_eq]
  exact carries.checkRecord_iff.mpr (by rw [Message.length_layout]; decide)

/-- Nothing was sent, or the name and then all that was typed. -/
def Speaks (chatroomAddress : Address) (name : List UInt8) (sent : List Cpmd.Message)
    (said : List (List UInt8)) : Stage → Prop
  | .created _ => sent = [] ∧ said = []
  | .running member => member.exited = true ∧ sent = [] ∧ said = [] ∨
      member.Ready chatroomAddress name ∧
        sent = messages chatroomAddress name said

theorem Speaks.withClient {sent : List Cpmd.Message} {said : List (List UInt8)}
    (speaks : Speaks chatroomAddress name sent said stage) (client : ClientImpl) :
    Speaks chatroomAddress name sent said (stage.withClient client) := by
  cases stage with
  | created _ | running _ => exact speaks

theorem Speaks.turn {sent : List Cpmd.Message} {said : List (List UInt8)}
    (speaks : Speaks chatroomAddress name sent said stage)
    (turned : turn chatroomAddress name stage turning = some (after, outputs)) :
    Speaks chatroomAddress name (sent ++ outputs.flatMap Output.message)
      (said ++ turning.words) after := by
  cases turn_turns turned with
  | @unannounced client =>
      obtain ⟨rfl, rfl⟩ := speaks
      exact .inl ⟨rfl, rfl, rfl⟩
  | @announced client =>
      obtain ⟨rfl, rfl⟩ := speaks
      have started := (start_spec chatroomAddress name client).1
      refine .inr ⟨⟨rfl, .kRegister, [], started⟩, ?_⟩
      rw [List.flatMap_singleton, Output.message, started.2]
      rfl
  | @rounded member around next produced rounded =>
      rcases speaks with ⟨exited, _⟩ | ⟨ready, rfl⟩
      · simp only [round, exited, if_true] at rounded
        cases rounded
      · obtain ⟨stillReady, spoke⟩ := ready_round ready rounded
        refine .inr ⟨stillReady, ?_⟩
        rw [spoke, messages, messages, List.map_append]
        rfl

theorem speaks_run {client : ClientImpl}
    {history : List (EventMachine.Taken Stage (QueueProgram.Event Turn (List UInt8)) Output)}
    (run : (main chatroomAddress name).machine.Run (fun _ _ => True) (.created client) history
      stage) :
    Speaks chatroomAddress name ((EventMachine.outputs history).flatMap Output.message)
      ((QueueProgram.roundsIn history).flatMap Turn.words) stage := by
  refine QueueProgram.invariant_run run (fun rounds outputs stage =>
    Speaks chatroomAddress name (outputs.flatMap Output.message)
      (rounds.flatMap Turn.words) stage)
    ⟨rfl, rfl⟩ (fun _ _ _ _ speaks => speaks.withClient _)
    (fun _ _ _ _ speaks => speaks.withClient _)
    fun rounds outputs before turning after produced speaks turned => ?_
  rw [List.flatMap_append, List.flatMap_append, List.flatMap_singleton]
  exact speaks.turn turned

/-- What was taken off the bus is what was sent first. -/
theorem checkRecord_takenIn
    {history : List (EventMachine.Taken Stage (QueueProgram.Event Turn (List UInt8)) Output)}
    (run : (main chatroomAddress name).machine.Run (fun _ _ => True) (.created ⟨[], []⟩) history
      stage) :
    ((main chatroomAddress name).takenIn history).filterMap ClientInfo.checkRecord <+:
      messages chatroomAddress name ((QueueProgram.roundsIn history).flatMap Turn.words) := by
  have begins : (EventMachine.outputs history).flatMap Output.message <+:
      messages chatroomAddress name ((QueueProgram.roundsIn history).flatMap Turn.words) := by
    have speaks := speaks_run run
    cases stage with
    | created client =>
        rw [speaks.1]
        exact List.nil_prefix
    | running member =>
        rcases speaks with ⟨_, silent, _⟩ | ⟨_, sent⟩
        · rw [silent]
          exact List.nil_prefix
        · exact ⟨[], (List.append_nil _).trans sent⟩
  have written := QueueProgram.written_run (fun _ _ _ _ => posts_turn) run
  rw [← List.map_flatMap] at written
  have front : (main chatroomAddress name).takenIn history <+:
      ((EventMachine.outputs history).flatMap Output.message).map fun m => m.image [] :=
    ⟨_, written⟩
  refine (front.filterMap ClientInfo.checkRecord).trans ?_
  rw [map_image_filterMap fun m member => checkRecord_of_mem_messages (begins.subset member)]
  exact begins

end Main

end Client

end Cpmd.Chat
