import Cpmd.ChatServer
import Cpmd.HostProperties

/-! What the chatroom is for: a name belongs to whoever registers it first, words go to
all other members in the order of their names, and the server's loop conducts such a room. -/

set_option autoImplicit false

namespace Cpmd.Chat

open Library

/-- What was said, and the address it came from or goes to. -/
structure Letter where
  address : Address
  said : Message
deriving DecidableEq

namespace Room

/-- Whose a name is once these were heard. -/
def addressOf (heard : List Letter) (name : List UInt8) : Option Address :=
  heard.findSome? fun letter =>
    if letter.said.type = .kRegister ∧ letter.said.name = name then some letter.address else none

/-- All members by their names, in order. -/
structure Roll (heard : List Letter) (roll : List (List UInt8 × Address)) : Prop where
  ordered : roll.Pairwise fun first second => first.1 ≤ second.1 ∧ first.1 ≠ second.1
  members : ∀ name address, (name, address) ∈ roll ↔ addressOf heard name = some address

/-- A name or words that fill their field lose what is behind it. -/
def passedOn (type : MessageType) (said : Message) : Message :=
  ⟨type, said.name.take (kMaxNameSize - 1), [], said.words.take (kMaxWordsSize - 1)⟩

/-- What is to be sent for a letter. A private message is sent only if its receiver is a
member, but the address it goes to is left at zero. -/
def deliveries (roll : List (List UInt8 × Address)) (letter : Letter) : List Letter :=
  match letter.said.type with
  | .kRegister | .kHeartBeat | .unknown _ => []
  | .kMessage =>
      (roll.filter fun member => member.2 ≠ letter.address).map fun member =>
        ⟨member.2, passedOn .kMessage letter.said⟩
  | .kPrivateMessage =>
      if letter.said.toName ∈ roll.map Prod.fst then
        [⟨⟨0, 0⟩, passedOn .kPrivateMessage letter.said⟩]
      else []

/-- The letters that a room has heard, each with those it has sent for it. The flag says
whether it is closed: in the middle of what it was to send, or between two letters. -/
inductive Transcript : List (Letter × List Letter) → Bool → Prop where
  | opened : Transcript [] false
  | answered {log letter roll} :
      Transcript log false → Roll (log.map Prod.fst) roll →
      Transcript (log ++ [(letter, deliveries roll letter)]) false
  | brokenOff {log letter roll sent} :
      Transcript log false → Roll (log.map Prod.fst) roll →
      sent <+: deliveries roll letter → sent ≠ deliveries roll letter →
      Transcript (log ++ [(letter, sent)]) true
  | closed {log} : Transcript log false → Transcript log true

theorem addressOf_append (heard : List Letter) (letter : Letter) (name : List UInt8) :
    addressOf (heard ++ [letter]) name = (addressOf heard name).or
      (if letter.said.type = .kRegister ∧ letter.said.name = name then some letter.address
        else none) := by
  rw [addressOf, List.findSome?_append, List.findSome?_singleton]
  rfl

theorem roll_inOrder {heard : List Letter} {members : MemberMap}
    (known : ∀ name, members.find name = addressOf heard name) : Roll heard members.inOrder where
  ordered := members.pairwise_inOrder
  members := fun name address => by rw [FiniteMap.mem_inOrder, known]

end Room

def heardAs (m : Cpmd.Message) (behind : List UInt8) : Letter :=
  ⟨m.sourceAddress, dataAs m behind⟩

/-- A message that is sent holds a whole chat message. -/
def sentAs (m : Cpmd.Message) : Letter := ⟨m.remoteAddress, dataAs m []⟩

def Handled.heard (handled : Handled) : Letter := heardAs handled.given handled.behind

def Handled.letters (handled : Handled) : Letter × List Letter :=
  (handled.heard, handled.sent.map sentAs)

/-- A whole chat message is read as it is, whatever lies behind it. -/
theorem dataAs_of_layout {m : Cpmd.Message} {record : Message} (whole : m.data = record.layout)
    (behind : List UInt8) : dataAs m behind = record.seen := by
  rw [dataAs, whole, Message.ofData_layout_append]

theorem cut_string (width : Nat) (bytes : List UInt8) :
    Message.cut width (Memory.string 0 bytes) = (Memory.string 0 bytes).take (width - 1) := by
  rw [Message.cut, Memory.string_of_not_mem (Memory.not_mem_string bytes)]

theorem replyMessage_eq (type : MessageType) (name words : List UInt8) :
    replyMessage type name words =
      { Cpmd.Message.default with
        len := Int32.ofNat Message.sizeof
        data := Message.build [.setType type, .setName name, .setWords words] } := by
  rw [replyMessage, Cpmd.Message.setData, Message.length_build, if_neg (by decide),
    Option.getD_some]

/-- Every copy can be sent, and the daemon and the receiver read what was sent. -/
theorem replyMessage_carries (type : MessageType) (name words : List UInt8)
    (source remote : Address) :
    (((replyMessage type name words).setRemoteAddress remote).setSourceAddress source).Carries
      (Message.build [.setType type, .setName name, .setWords words]) := by
  refine ⟨source, remote, ?_⟩
  rw [replyMessage_eq, Cpmd.Message.setData, Message.length_build, if_neg (by decide)]
  rfl

theorem sentAs_reply (type : MessageType) (declared : .ofInt16 type.toInt16 = type)
    (m : Cpmd.Message) (behind : List UInt8) (remote : Address) :
    sentAs ((replyMessage type (dataAs m behind).name
        (dataAs m behind).words).setRemoteAddress remote) =
      ⟨remote, Room.passedOn type (dataAs m behind)⟩ := by
  have read : dataAs ((replyMessage type (dataAs m behind).name
      (dataAs m behind).words).setRemoteAddress remote) [] = (Message.described [.setType type,
        .setName (dataAs m behind).name, .setWords (dataAs m behind).words]).seen := by
    refine dataAs_of_layout ?_ []
    rw [replyMessage_eq, ← Message.build_eq_layout]
    rfl
  rw [sentAs, read, replyMessage_eq]
  simp only [Cpmd.Message.setRemoteAddress, Message.seen, Message.described, Room.passedOn,
    List.foldl_cons, List.foldl_nil, Message.Setter.record, declared, Letter.mk.injEq,
    Message.mk.injEq, true_and]
  exact ⟨cut_string _ _, rfl, cut_string _ _⟩

/-- The client with these behind what it has sent before. -/
def posting (client : ClientImpl) (sent : List Cpmd.Message) : ClientImpl :=
  { client with output := client.output ++ sent.map fun m => m.image [] }

/-- The copies that a broadcast is to send. -/
def copies (sender : Address) (members : List (List UInt8 × Address)) (m : Cpmd.Message) :
    List Cpmd.Message :=
  (members.filter fun member => member.2 ≠ sender).map fun member => m.setRemoteAddress member.2

/-- Each member that is not the sender gets its copy, up to the first that cannot be
written; and the result says whether there was one. -/
theorem broadcastMessage_spec (written : Nat → Bool) (sender : Address)
    (members : List (List UInt8 × Address)) (count : Nat) (m : Cpmd.Message)
    (client : ClientImpl) :
    (broadcastMessage written sender count members m client).1 =
        posting client (broadcastMessage written sender count members m client).2.1 ∧
      (broadcastMessage written sender count members m client).2.1 <+: copies sender members m ∧
      ((broadcastMessage written sender count members m client).2.2 = true ↔
        (broadcastMessage written sender count members m client).2.1 =
          copies sender members m) := by
  induction members generalizing count m client with
  | nil => simp [broadcastMessage, copies, posting]
  | cons member rest ih =>
      by_cases other : member.2 ≠ sender
      · have here : copies sender (member :: rest) m =
            m.setRemoteAddress member.2 :: copies sender rest (m.setRemoteAddress member.2) := by
          rw [copies, List.filter_cons, if_pos (decide_eq_true other)]
          rfl
        rw [broadcastMessage, if_pos other, here]
        cases wrote : written count with
        | false => simp [ClientImpl.sendMessage, posting]
        | true =>
            obtain ⟨posted, copied, complete⟩ := ih (count + 1) (m.setRemoteAddress member.2)
              { client with output := client.output ++ [(m.setRemoteAddress member.2).image []] }
            refine ⟨?_, ?_, ?_⟩
            · simpa [ClientImpl.sendMessage, posting] using posted
            · simpa [ClientImpl.sendMessage] using copied
            · simpa [ClientImpl.sendMessage] using complete
      · have here : copies sender (member :: rest) m = copies sender rest m := by
          simp only [copies, List.filter_cons, other, decide_false, Bool.false_eq_true, if_false]
        rw [broadcastMessage, if_neg other, here]
        exact ih count m client

theorem map_eq_map_iff_of_begins {First Second : Type} (f : First → Second)
    {whole start : List First} (begins : start <+: whole) :
    start.map f = whole.map f ↔ start = whole := by
  constructor
  · intro same
    have lengths := congrArg List.length same
    rw [List.length_map, List.length_map] at lengths
    exact begins.eq_of_length lengths
  · intro same
    rw [same]

theorem map_sentAs_copies (type : MessageType) (declared : .ofInt16 type.toInt16 = type)
    (m : Cpmd.Message) (behind : List UInt8) (sender : Address)
    (members : List (List UInt8 × Address)) :
    (copies sender members (replyMessage type (dataAs m behind).name
        (dataAs m behind).words)).map sentAs =
      (members.filter fun member => member.2 ≠ sender).map fun member =>
        ⟨member.2, Room.passedOn type (dataAs m behind)⟩ := by
  rw [copies, List.map_map]
  refine List.map_congr_left fun member _ => ?_
  exact sentAs_reply type declared m behind member.2

namespace Server

variable {server : Server}

theorem handle_members (around : Surroundings) (m : Cpmd.Message) (name : List UInt8) :
    (server.handle around m).1.members.find name = (server.members.find name).or
      (if (dataAs m around.behind).type = .kRegister ∧ (dataAs m around.behind).name = name then
        some m.sourceAddress else none) := by
  simp only [handle]
  cases kind : (dataAs m around.behind).type with
  | kRegister =>
      cases known : server.members.find (dataAs m around.behind).name with
      | none =>
          by_cases same : (dataAs m around.behind).name = name
          · subst same
            simp [FiniteMap.find_emplace, known]
          · simp [FiniteMap.find_emplace, same, Ne.symm same]
      | some address =>
          by_cases same : (dataAs m around.behind).name = name
          · subst same
            simp [known]
          · simp [same]
  | kHeartBeat | unknown _ | kMessage => simp
  | kPrivateMessage =>
      cases server.members.find (dataAs m around.behind).toName with
      | none => simp
      | some address => cases wrote : around.written 0 <;> simp [ClientImpl.sendMessage]

theorem handle_client (around : Surroundings) (m : Cpmd.Message) :
    (server.handle around m).1.client = posting server.client (server.handle around m).2 := by
  have silent : server.client = posting server.client [] := by simp [posting]
  simp only [handle]
  cases (dataAs m around.behind).type with
  | kRegister =>
      cases server.members.find (dataAs m around.behind).name with
      | none => exact silent
      | some address => exact silent
  | kHeartBeat | unknown _ => exact silent
  | kMessage => exact (broadcastMessage_spec _ _ _ _ _ _).1
  | kPrivateMessage =>
      cases server.members.find (dataAs m around.behind).toName with
      | none => exact silent
      | some address => cases wrote : around.written 0 <;> simp [ClientImpl.sendMessage, posting]

theorem handle_copy {around : Surroundings} {m copy : Cpmd.Message}
    (member : copy ∈ (server.handle around m).2) :
    ∃ remote, copy = (replyMessage (dataAs m around.behind).type (dataAs m around.behind).name
        (dataAs m around.behind).words).setRemoteAddress remote ∧
      ((dataAs m around.behind).type = .kPrivateMessage → remote = ⟨0, 0⟩) := by
  cases kind : (dataAs m around.behind).type with
  | kRegister =>
      simp only [handle, kind] at member
      split at member <;> cases member
  | kHeartBeat | unknown _ =>
      simp only [handle, kind] at member
      cases member
  | kMessage =>
      simp only [handle, kind] at member
      obtain ⟨_, copied, _⟩ := broadcastMessage_spec around.written m.sourceAddress
        server.members.inOrder 0 (replyMessage .kMessage (dataAs m around.behind).name
          (dataAs m around.behind).words) server.client
      obtain ⟨receiver, _, same⟩ := List.mem_map.mp (copied.subset member)
      exact ⟨receiver.2, same.symm, fun other => by cases other⟩
  | kPrivateMessage =>
      simp only [handle, kind] at member
      split at member
      · cases member
      · split at member
        · cases member
        · refine ⟨⟨0, 0⟩, ?_, fun _ => rfl⟩
          rw [List.mem_singleton.mp member, replyMessage_eq]
          rfl

theorem deliveries_words {m : Cpmd.Message} {behind : List UInt8}
    (kind : (dataAs m behind).type = .kMessage) :
    Room.deliveries server.members.inOrder (heardAs m behind) =
      (copies m.sourceAddress server.members.inOrder (replyMessage .kMessage
        (dataAs m behind).name (dataAs m behind).words)).map sentAs := by
  rw [map_sentAs_copies .kMessage (by decide)]
  simp only [Room.deliveries, heardAs, kind]
  rfl

theorem deliveries_private {m : Cpmd.Message} {behind : List UInt8}
    (kind : (dataAs m behind).type = .kPrivateMessage) :
    Room.deliveries server.members.inOrder (heardAs m behind) =
      if (server.members.find (dataAs m behind).toName).isSome = true then
        [sentAs (replyMessage .kPrivateMessage (dataAs m behind).name (dataAs m behind).words)]
      else [] := by
  have told : sentAs (replyMessage .kPrivateMessage (dataAs m behind).name
      (dataAs m behind).words) = ⟨⟨0, 0⟩, Room.passedOn .kPrivateMessage (dataAs m behind)⟩ := by
    rw [← sentAs_reply .kPrivateMessage (by decide) m behind ⟨0, 0⟩, replyMessage_eq]
    rfl
  have known : (dataAs m behind).toName ∈ server.members.inOrder.map Prod.fst ↔
      (server.members.find (dataAs m behind).toName).isSome = true := by
    simp [FiniteMap.mem_inOrder, Option.isSome_iff_exists]
  simp only [Room.deliveries, heardAs, kind, known, told]

/-- What the loop sends is what the room is to send, or starts like it; and it goes on
exactly if it has sent it all. -/
theorem handle_sent (running : server.exited = false) (around : Surroundings)
    (m : Cpmd.Message) :
    (server.handle around m).2.map sentAs <+:
        Room.deliveries server.members.inOrder (heardAs m around.behind) ∧
      ((server.handle around m).1.exited = false ↔
        (server.handle around m).2.map sentAs =
          Room.deliveries server.members.inOrder (heardAs m around.behind)) := by
  cases kind : (dataAs m around.behind).type with
  | kRegister =>
      have due : Room.deliveries server.members.inOrder (heardAs m around.behind) = [] := by
        simp only [Room.deliveries, heardAs, kind]
      rw [due]
      simp only [handle, kind]
      cases server.members.find (dataAs m around.behind).name with
      | none => simp [running]
      | some address => simp [running]
  | kHeartBeat | unknown _ =>
      have due : Room.deliveries server.members.inOrder (heardAs m around.behind) = [] := by
        simp only [Room.deliveries, heardAs, kind]
      have handled : server.handle around m = (server, []) := by simp only [handle, kind]
      rw [due, handled]
      simp [running]
  | kMessage =>
      obtain ⟨_, copied, complete⟩ := broadcastMessage_spec around.written m.sourceAddress
        server.members.inOrder 0 (replyMessage .kMessage (dataAs m around.behind).name
          (dataAs m around.behind).words) server.client
      rw [deliveries_words kind]
      simp only [handle, kind]
      refine ⟨copied.map sentAs, ?_⟩
      rw [map_eq_map_iff_of_begins sentAs copied, ← complete, Bool.not_eq_eq_eq_not,
        Bool.not_false]
  | kPrivateMessage =>
      rw [deliveries_private kind]
      simp only [handle, kind]
      cases server.members.find (dataAs m around.behind).toName with
      | none => simp [running]
      | some address => cases around.written 0 <;> simp [ClientImpl.sendMessage, running]

end Server

theorem map_image_filterMap {sent : List Cpmd.Message}
    (whole : ∀ copy ∈ sent, ClientInfo.checkRecord (copy.image []) = some copy) :
    (sent.map fun m => m.image []).filterMap ClientInfo.checkRecord = sent := by
  rw [List.filterMap_map]
  exact (List.filterMap_congr whole).trans List.filterMap_some

/-- What `ReceiveMessage` makes of a record. -/
def receivedOf (record : List UInt8) : Option Cpmd.Message :=
  if record.length < Cpmd.Message.kMinSize ∨ record.length ≥ Cpmd.Message.kMaxSize then none
  else some (Cpmd.Message.overlay record)

theorem receiveMessage_cases {client : ClientImpl} {record : List UInt8}
    {rest : List (List UInt8)} (input : client.input = record :: rest) :
    (∃ m, receivedOf record = some m ∧
        client.receiveMessage = ({ client with input := rest }, .kOk, some m)) ∨
      receivedOf record = none ∧
        ∃ status, client.receiveMessage = ({ client with input := rest }, status, none) ∧
          (status = .kTruncatedMessage ∨ status = .kInvalidMessage) := by
  simp only [ClientImpl.receiveMessage, receivedOf, input]
  by_cases short : record.length < Cpmd.Message.kMinSize
  · exact .inr (by simp [short])
  · by_cases long : record.length ≥ Cpmd.Message.kMaxSize
    · exact .inr (by simp [short, long])
    · exact .inl (by simp [short, long])

theorem receivedOf_image {m : Cpmd.Message} {data : List UInt8} (carries : m.Carries data)
    (fits : data.length < Cpmd.Message.kMaxDataSize) (behind : List UInt8) :
    receivedOf (m.image behind) = some m := by
  have limit : Cpmd.Message.kMaxSize = Cpmd.Message.kMinSize + Cpmd.Message.kMaxDataSize := rfl
  rw [carries.image_eq, receivedOf, carries.length_serialize, carries.overlay_serialize,
    if_neg (by omega)]

/-- A message that arrives as it was, but for the stamp, with a whole chat message in it. -/
structure Whole (m : Cpmd.Message) : Prop where
  received : ∀ source behind,
    receivedOf ((m.setSourceAddress source).image behind) = some (m.setSourceAddress source)
  layout : ∃ record : Message, m.data = record.layout

theorem whole_of_carries {m : Cpmd.Message} {record : Message}
    (carries : ∀ source, (m.setSourceAddress source).Carries record.layout) : Whole m where
  received := fun source =>
    receivedOf_image (carries source) (by rw [Message.length_layout]; decide)
  layout := ⟨record, (carries ⟨0, 0⟩).fields.2.2.2⟩

namespace Server

variable {server : Server}

/-- What a round can do. -/
inductive Rounds (server : Server) (around : Surroundings) : Server → List Handled → Prop where
  | idle (empty : server.client.input = []) : Rounds server around server []
  | handled {record rest m} (input : server.client.input = record :: rest)
      (received : receivedOf record = some m) :
      Rounds server around
        ({ server with client := { server.client with input := rest } }.handle around m).1
        [⟨m, around.behind,
          ({ server with client := { server.client with input := rest } }.handle around m).2⟩]
  | refused {record rest} (input : server.client.input = record :: rest)
      (bad : receivedOf record = none) :
      Rounds server around
        { server with client := { server.client with input := rest }, exited := true } []

theorem round_rounds {around : Surroundings} {after : Server} {outputs : List Handled}
    (rounded : server.round around = some (after, outputs)) :
    server.exited = false ∧ server.Rounds around after outputs := by
  rw [round] at rounded
  split at rounded
  · cases rounded
  · rename_i goesOn
    refine ⟨by simpa using goesOn, ?_⟩
    cases input : server.client.input with
    | nil =>
        simp only [ClientImpl.receiveMessage, input] at rounded
        cases rounded
        exact .idle input
    | cons record rest =>
        rcases receiveMessage_cases input with
          ⟨m, whole, received⟩ | ⟨bad, status, received, kind⟩
        · simp only [received] at rounded
          cases rounded
          exact .handled input whole
        · rcases kind with rfl | rfl <;>
          · simp only [received] at rounded
            cases rounded
            exact .refused input bad

theorem posts_round {around : Surroundings} {after : Server} {outputs : List Handled}
    (rounded : server.round around = some (after, outputs)) :
    after.client.output = server.client.output ++
      outputs.flatMap fun handled => handled.sent.map fun m => m.image [] := by
  obtain ⟨_, rounds⟩ := round_rounds rounded
  cases rounds with
  | idle _ | refused _ _ => exact (List.append_nil _).symm
  | handled input received =>
      rw [handle_client, posting, List.flatMap_singleton]

theorem reads_round {around : Surroundings} {after : Server} {outputs : List Handled}
    (rounded : server.round around = some (after, outputs)) :
    server.client.input.flatMap (fun record => (receivedOf record).toList) =
      outputs.flatMap (fun handled => [handled.given]) ++
        after.client.input.flatMap fun record => (receivedOf record).toList := by
  obtain ⟨_, rounds⟩ := round_rounds rounded
  cases rounds with
  | idle _ => rfl
  | handled input received =>
      rw [handle_client, posting, input, List.flatMap_cons, received]
      rfl
  | refused input bad =>
      rw [input, List.flatMap_cons, bad]
      rfl

/-- What does not depend on the buses: the members known are those of the room, and what
was said is what the room is to say. -/
def Conducts (outputs : List Handled) (server : Server) : Prop :=
  (∀ name, server.members.find name =
      Room.addressOf ((outputs.map Handled.letters).map Prod.fst) name) ∧
    Room.Transcript (outputs.map Handled.letters) server.exited

theorem conducts_round {around : Surroundings} {after : Server} {before outputs : List Handled}
    (conducts : Conducts before server)
    (rounded : server.round around = some (after, outputs)) :
    Conducts (before ++ outputs) after := by
  obtain ⟨members, transcript⟩ := conducts
  obtain ⟨running, rounds⟩ := round_rounds rounded
  rw [running] at transcript
  cases rounds with
  | idle _ =>
      rw [List.append_nil]
      exact ⟨members, running ▸ transcript⟩
  | refused _ _ =>
      rw [List.append_nil]
      exact ⟨members, .closed transcript⟩
  | @handled record rest m _ _ =>
      generalize unread : ({ server with client := { server.client with input := rest } } :
        Server) = left
      have goesOn : left.exited = false := by rw [← unread]; exact running
      have known : left.members = server.members := by rw [← unread]
      obtain ⟨begins, complete⟩ := handle_sent goesOn around m
      have roll : Room.Roll ((before.map Handled.letters).map Prod.fst) left.members.inOrder := by
        rw [known]
        exact Room.roll_inOrder members
      refine ⟨fun name => ?_, ?_⟩
      · rw [handle_members, known, members name]
        simp only [List.map_append, List.map_cons, List.map_nil]
        rw [Room.addressOf_append]
        rfl
      · simp only [List.map_append, List.map_cons, List.map_nil, Handled.letters]
        cases ended : (left.handle around m).1.exited with
        | false =>
            rw [complete.mp ended]
            exact .answered transcript roll
        | true =>
            exact .brokenOff transcript roll begins fun whole => by
              rw [complete.mpr whole] at ended
              cases ended

end Server

section Runs

variable {history : List (EventMachine.Taken Server Server.Event Handled)} {server : Server}

def sentIn (history : List (EventMachine.Taken Server Server.Event Handled)) :
    List Cpmd.Message :=
  (EventMachine.outputs history).flatMap Handled.sent

theorem conducts_of_run
    (run : Server.program.machine.Run (fun _ _ => True) Server.initial history server) :
    Server.Conducts (EventMachine.outputs history) server :=
  QueueProgram.invariant_run run (fun _ => Server.Conducts)
    ⟨fun _ => FiniteMap.find_empty _, .opened⟩ (fun _ _ _ _ same => same)
    (fun _ _ _ _ same => same) fun _ _ _ _ _ _ => Server.conducts_round

/-- A record as the daemon writes it, for a message from this address. -/
def recordFrom (source : Address) (data : List UInt8) : List UInt8 :=
  (((Cpmd.Message.default.setSourceAddress source).setData data).getD .default).image []

/-- Two register, the first under a name that is cut, and a third with a message that ends
behind its type, where a `c` lies in memory; the first speaks to all, and then to the second
alone. -/
def someEvents : List Server.Event :=
  [.arrive (recordFrom ⟨7, 1⟩
      (Message.build [.setType .kRegister, .setName (List.replicate 20 97)])),
    .arrive (recordFrom ⟨0, 2⟩ (Message.build [.setType .kRegister, .setName [98]])),
    .arrive (recordFrom ⟨0, 3⟩ [1, 0]),
    .round ⟨fun _ => true, []⟩, .round ⟨fun _ => true, []⟩, .round ⟨fun _ => true, [99, 0]⟩,
    .arrive (recordFrom ⟨7, 1⟩
      (Message.build [.setType .kMessage, .setName [97], .setWords [104, 105]])),
    .round ⟨fun _ => true, []⟩, .take,
    .arrive (recordFrom ⟨7, 1⟩ (Message.build
      [.setType .kPrivateMessage, .setName [97], .setToName [98], .setWords [104, 105]])),
    .round ⟨fun _ => true, []⟩]

theorem copy_of_output
    (run : Server.program.machine.Run (fun _ _ => True) Server.initial history server)
    {entry : Handled} (member : entry ∈ EventMachine.outputs history)
    {copy : Cpmd.Message} (sent : copy ∈ entry.sent) :
    ∃ remote, copy = (replyMessage entry.heard.said.type entry.heard.said.name
        entry.heard.said.words).setRemoteAddress remote ∧
      (entry.heard.said.type = .kPrivateMessage → remote = ⟨0, 0⟩) := by
  obtain ⟨before, around, after, produced, rounded, shown⟩ :=
    QueueProgram.round_of_output run member
  obtain ⟨_, rounds⟩ := Server.round_rounds rounded
  cases rounds with
  | handled _ _ =>
      rw [List.mem_singleton.mp shown] at sent ⊢
      exact Server.handle_copy sent
  | idle _ | refused _ _ => cases shown

theorem whole_copy
    (run : Server.program.machine.Run (fun _ _ => True) Server.initial history server)
    {entry : Handled} (member : entry ∈ EventMachine.outputs history)
    {copy : Cpmd.Message} (sent : copy ∈ entry.sent) : Whole copy := by
  obtain ⟨remote, rfl, _⟩ := copy_of_output run member sent
  exact whole_of_carries fun source => by
    rw [← Message.build_eq_layout]
    exact replyMessage_carries _ _ _ source remote

/-- The daemon reads every copy as it was sent, whatever lay behind it. -/
theorem checkRecord_copy
    (run : Server.program.machine.Run (fun _ _ => True) Server.initial history server)
    {entry : Handled} (member : entry ∈ EventMachine.outputs history)
    {copy : Cpmd.Message} (sent : copy ∈ entry.sent) (behind : List UInt8) :
    ClientInfo.checkRecord (copy.image behind) = some copy := by
  obtain ⟨remote, reply, _⟩ := copy_of_output run member sent
  have carries := replyMessage_carries entry.heard.said.type entry.heard.said.name
    entry.heard.said.words ⟨0, 0⟩ remote
  have unstamped : copy.setSourceAddress ⟨0, 0⟩ = copy := by
    rw [reply, replyMessage_eq]
    rfl
  rw [← reply, unstamped] at carries
  rw [carries.image_eq]
  exact carries.checkRecord_iff.mpr (by rw [Message.length_build]; decide)

/-- No daemon writes a private message to any client but one with the key 0, or takes it to
another node, whoever it was meant for. -/
theorem private_run
    (run : Server.program.machine.Run (fun _ _ => True) Server.initial history server)
    {entry : Handled} (member : entry ∈ EventMachine.outputs history)
    (kind : entry.heard.said.type = .kPrivateMessage)
    {copy : Cpmd.Message} (sent : copy ∈ entry.sent) {host next : Host} {writes : Nat → Bool}
    {behind : List UInt8} {client : LocalClient} {routed : Host.Routed}
    (handled : host.handleClientMessage writes behind client copy = some (next, routed)) :
    (∀ memory, ClientInfo.checkRecord (copy.image memory) = some copy) ∧
      next.daemon = host.daemon ∧ ∀ key, key ≠ 0 → next.posted key = host.posted key := by
  obtain ⟨remote, reply, nowhere⟩ := copy_of_output run member sent
  have remote : copy.remoteAddress = ⟨0, 0⟩ := by
    rw [reply, nowhere kind]
    rfl
  have here : host.daemon.server.isLocal copy.remoteAddress = true := by
    rw [remote]
    simp [Cpmd.Server.isLocal]
  refine ⟨checkRecord_copy run member sent, ?_⟩
  simp only [Host.handleClientMessage, Cpmd.Server.remoteAddress_stamp, here, if_true,
    Host.handleToLocalMessage] at handled
  split at handled
  · cases handled
  · rename_i delivered delivers
    split at delivers
    · cases delivers
    · cases delivers
      cases handled
      refine ⟨(host.deliver_frame _ _ _).1, fun key other => ?_⟩
      have elsewhere : (key, true) ∉ (host.deliver (writes 0) behind
          (host.daemon.server.stamp client.addr.clientAddr copy)).2 := by
        intro wrote
        refine other (((host.deliver_writes _ _ _).2 _ wrote).1.trans ?_)
        rw [Cpmd.Server.remoteAddress_stamp, remote]
      rw [Host.posted_deliver, if_neg elsewhere, List.append_nil]

/-- The room's own client is registered under the key 5, and a member under 2. -/
def someRoom : LocalClient := ⟨⟨[99], ⟨0, 5⟩, [], []⟩, [], []⟩

def someHost : Host :=
  ⟨Daemon.State.initial 8123 Daemon.someResolveServer, [47, 116, 109, 112],
    ((∅ : FiniteMap UInt32 LocalClient).assign 2 ⟨⟨[98], ⟨0, 2⟩, [], []⟩, [], []⟩).assign 5
      someRoom⟩

def Handled.privateReply (handled : Handled) : Option Cpmd.Message :=
  if handled.heard.said.type = .kPrivateMessage then handled.sent.head? else none

theorem private_run_words :
    ∃ copy next routed, (sentAs copy).said = ⟨.kPrivateMessage, [97], [], [104, 105]⟩ ∧
      someHost.handleClientMessage (fun _ => true) [] someRoom copy = some (next, routed) ∧
      (∀ memory, ClientInfo.checkRecord (copy.image memory) = some copy) ∧
      next.daemon = someHost.daemon ∧
      ∀ key, key ≠ 0 → next.posted key = someHost.posted key := by
  obtain ⟨history, server, run, sent⟩ := EventMachine.exists_run_of_any Server.program.machine
    (fun _ _ => True) Server.initial someEvents
    (fun reached => (EventMachine.outputs reached.1).any fun handled =>
      handled.privateReply.any fun copy =>
        decide ((sentAs copy).said = ⟨.kPrivateMessage, [97], [], [104, 105]⟩))
    (by decide +kernel)
  obtain ⟨entry, member, replied⟩ := List.any_eq_true.mp sent
  obtain ⟨copy, reply, said⟩ := (Option.any_eq_true _ _).mp replied
  obtain ⟨kind, first⟩ := Option.ite_none_right_eq_some.mp reply
  have found : someHost.clients.find someRoom.addr.clientAddr = some someRoom := by
    decide +kernel
  obtain ⟨next, routed, handled, _⟩ :=
    Host.handleClientMessage_spec (fun _ => true) [] copy rfl found
  exact ⟨copy, next, routed, of_decide_eq_true said, handled,
    private_run run member kind (List.mem_of_mem_head? first) handled⟩

end Runs

end Cpmd.Chat
