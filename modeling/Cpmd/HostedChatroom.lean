import Cpmd.ChatClient
import Cpmd.HostedProgram

/-! The chatroom's server and some of its clients on a host. Whatever the host's other
clients and other nodes do, what the daemon writes to the server and reads from it is a
room's conversation. -/

set_option autoImplicit false

namespace Cpmd.Chat

open Library

variable {Member : Type}

abbrev ProgramOf : Option Member → Type
  | none => Server
  | some _ => Client.Stage

abbrev RoundOf : Option Member → Type
  | none => Server.Surroundings
  | some _ => Client.Turn

abbrev MadeOf : Option Member → Type
  | none => Handled
  | some _ => Client.Output

/-- The server at the address that all members were given, and the members' own clients. -/
structure Company (Member : Type) where
  chatroomAddress : Address
  name : Member → List UInt8
  key : Member → UInt32
  partyAt : UInt32 → Option (Option Member)
  partyAt_room : partyAt chatroomAddress.clientAddr = some none
  partyAt_key : ∀ member, partyAt (key member) = some (some member)

namespace Company

def room (company : Company Member) : UInt32 := company.chatroomAddress.clientAddr

def program (company : Company Member) : ∀ party : Option Member,
    QueueProgram (ProgramOf party) (RoundOf party) (MadeOf party) (List UInt8)
  | none => Server.program
  | some member => Client.main company.chatroomAddress (company.name member)

def population (company : Company Member) :
    Hosted.Population (Option Member) ProgramOf RoundOf MadeOf where
  program := company.program
  key := fun
    | none => company.room
    | some member => company.key member
  partyAt := company.partyAt
  partyAt_key := fun
    | none => company.partyAt_room
    | some member => company.partyAt_key member

abbrev History (Member : Type) : Type :=
  List (EventMachine.Taken (Hosted.State (@ProgramOf Member)) (Hosted.Event (@RoundOf Member))
    (Hosted.Output (@MadeOf Member)))

variable [DecidableEq Member]

def handledIn (outputs : List (Hosted.Output (@MadeOf Member))) : List Handled :=
  Hosted.madeIn none outputs

def serverOf (state : Hosted.State (@ProgramOf Member)) : Server := state.program none

end Company

theorem Server.orderly : Hosted.Orderly Server.program where
  reads := by
    intro before written after produced rounded
    obtain ⟨_, rounds⟩ := Server.round_rounds rounded
    change after.client.input <:+ before.client.input
    cases rounds with
    | idle _ => exact List.suffix_refl _
    | @handled record rest m input _ =>
        rw [Server.handle_client, posting, input]
        exact List.suffix_cons record rest
    | @refused record rest input _ =>
        rw [input]
        exact List.suffix_cons record rest
  writes := by
    intro before written after produced rounded
    exact ⟨_, (Server.posts_round rounded).symm⟩

theorem Client.orderly (chatroomAddress : Address) (name : List UInt8) :
    Hosted.Orderly (Client.main chatroomAddress name) where
  reads := by
    intro before turning after produced turned
    change after.client.input <:+ before.client.input
    cases Client.turn_turns turned with
    | rounded rounded => exact Client.input_round rounded
    | unannounced | announced =>
        simp only [Client.Stage.client, Client.start_client]
        exact List.suffix_refl _
  writes := by
    intro before turning after produced turned
    exact ⟨_, (Client.posts_turn turned).symm⟩

theorem takeD_append {Cell : Type} (start rest : List Cell) (more : Nat) (filler : Cell) :
    (start ++ rest).takeD (start.length + more) filler = start ++ rest.takeD more filler := by
  induction start with
  | nil => rw [List.length_nil, Nat.zero_add, List.nil_append, List.nil_append]
  | cons cell start ih =>
      rw [List.length_cons, Nat.add_right_comm]
      exact congrArg (cell :: ·) ih

/-- The reader finds the addresses where the writer has put them, whatever the length says. -/
theorem sourceAddress_receivedOf {m received : Cpmd.Message} {behind : List UInt8}
    (sized : ¬ m.size < 0) (whole : receivedOf (m.image behind) = some received) :
    received.sourceAddress = m.sourceAddress := by
  unfold receivedOf at whole
  split at whole
  · cases whole
  · rename_i fits
    have long := (not_or.mp fits).1
    rw [Cpmd.Message.image, if_neg sized, List.takeD_length] at long
    obtain ⟨more, length⟩ := Nat.exists_eq_add_of_le (Nat.le_of_not_lt long)
    have header : m.image behind = m.header ++ (m.data ++ behind).takeD more 0 := by
      rw [Cpmd.Message.image, if_neg sized, length, List.append_assoc]
      exact takeD_append m.header _ more 0
    cases whole
    rw [header, Cpmd.Message.overlay_header]

/-- A message to the room that registers a name for this address. If its size is not negative,
it is stamped with this address, so that a client of the host can register its own only. -/
structure Registers (key : UInt32) (address : Address) (answer : Handled)
    (entry : Host.Routed) : Prop where
  written : (key, true) ∈ entry.writes
  received : receivedOf entry.bytes = some answer.given
  registers : answer.heard.said.type = .kRegister
  claims : answer.given.sourceAddress = address
  stamped : ¬ entry.handled.size < 0 → entry.handled.sourceAddress = address
  own : ¬ entry.handled.size < 0 →
    ∀ sender, entry.source = some sender → sender = address.clientAddr

/-- What the host's log shows of the room. -/
structure RoomOnHost [DecidableEq Member] (company : Company Member)
    (outputs : List (Hosted.Output (@MadeOf Member))) (state : Hosted.State (@ProgramOf Member)) :
    Prop where
  heard : (Host.writtenFor company.room (Hosted.logOf outputs)).filterMap receivedOf =
    (Company.handledIn outputs).map Handled.given ++
      (state.host.posted company.room).filterMap receivedOf
  transcript : Room.Transcript ((Company.handledIn outputs).map Handled.letters)
    (Company.serverOf state).exited
  sent : Host.readFrom company.room (Hosted.logOf outputs) ++
      (state.host.pending company.room).filterMap ClientInfo.checkRecord =
    (Company.handledIn outputs).flatMap Handled.sent
  addressed : ∀ m ∈ Host.readFrom company.room (Hosted.logOf outputs),
    ((sentAs m).said.type = .kPrivateMessage ∧ m.remoteAddress = ⟨0, 0⟩) ∨
      ((sentAs m).said.type = .kMessage ∧ ∃ answer ∈ Company.handledIn outputs,
        ∃ entry ∈ Hosted.logOf outputs, Registers company.room m.remoteAddress answer entry)

namespace Room

theorem registered_of_addressOf {heard : List Letter} {name : List UInt8} {address : Address}
    (known : addressOf heard name = some address) :
    ∃ letter ∈ heard, letter.said.type = .kRegister ∧ letter.said.name = name ∧
      letter.address = address := by
  obtain ⟨letter, member, found⟩ := List.exists_of_findSome?_eq_some known
  obtain ⟨registers, same⟩ := Option.ite_none_right_eq_some.mp found
  exact ⟨letter, member, registers.1, registers.2, Option.some.inj same⟩

theorem of_mem_deliveries {roll : List (List UInt8 × Address)} {letter sent : Letter}
    (member : sent ∈ deliveries roll letter) :
    (sent.said.type = .kPrivateMessage ∧ sent.address = ⟨0, 0⟩) ∨
      (sent.said.type = .kMessage ∧ sent.address ∈ roll.map Prod.snd) := by
  rw [deliveries] at member
  split at member
  · cases member
  · cases member
  · cases member
  · obtain ⟨other, listed, rfl⟩ := List.mem_map.mp member
    exact .inr ⟨rfl, List.mem_map_of_mem (List.mem_filter.mp listed).1⟩
  · split at member
    · rw [List.mem_singleton.mp member]
      exact .inl ⟨rfl, rfl⟩
    · cases member

/-- A letter goes nowhere, or to where someone has registered from. -/
def Addressed (heard : List Letter) (sent : Letter) : Prop :=
  (sent.said.type = .kPrivateMessage ∧ sent.address = ⟨0, 0⟩) ∨
    (sent.said.type = .kMessage ∧ ∃ letter ∈ heard,
      letter.said.type = .kRegister ∧ letter.address = sent.address)

theorem Addressed.later {heard more : List Letter} {sent : Letter}
    (addressed : Addressed heard sent) : Addressed (heard ++ more) sent :=
  addressed.imp_right fun ⟨told, letter, known, registers⟩ =>
    ⟨told, letter, List.mem_append_left _ known, registers⟩

theorem addressed_of_mem_deliveries {heard : List Letter} {roll : List (List UInt8 × Address)}
    {letter sent : Letter} (complete : Roll heard roll)
    (delivered : sent ∈ deliveries roll letter) : Addressed heard sent := by
  refine (of_mem_deliveries delivered).imp_right fun ⟨told, listed⟩ => ⟨told, ?_⟩
  obtain ⟨⟨name, address⟩, enrolled, rfl⟩ := List.mem_map.mp listed
  obtain ⟨first, known, registers, _, same⟩ :=
    registered_of_addressOf ((complete.members name _).mp enrolled)
  exact ⟨first, known, registers, same⟩

/-- By induction on the transcript: a room knows no others than it has heard of before. -/
theorem Transcript.addressed {log : List (Letter × List Letter)} {closed : Bool}
    (transcript : Transcript log closed) {sent : Letter}
    (member : sent ∈ log.flatMap Prod.snd) : Addressed (log.map Prod.fst) sent := by
  induction transcript with
  | opened => cases member
  | closed _ ih => exact ih member
  | answered _ complete ih =>
      rw [List.flatMap_append] at member
      rw [List.map_append]
      rcases List.mem_append.mp member with before | now
      · exact (ih before).later
      · exact (addressed_of_mem_deliveries complete (by simpa using now)).later
  | brokenOff _ complete begins _ ih =>
      rw [List.flatMap_append] at member
      rw [List.map_append]
      rcases List.mem_append.mp member with before | now
      · exact (ih before).later
      · exact (addressed_of_mem_deliveries complete (begins.subset (by simpa using now))).later

end Room

section Runs

variable {start host : Host} {key : UInt32}
  {onHost : List (EventMachine.Taken Host Host.Event Host.Routed)}

theorem registers_of_mem (keyed : Host.Keyed start)
    (run : Host.machine.Run (fun _ _ => True) start onHost host) {answer : Handled}
    (written : answer.given ∈
      (Host.writtenFor key (EventMachine.outputs onHost)).filterMap receivedOf)
    (registers : answer.heard.said.type = .kRegister) :
    ∃ entry ∈ EventMachine.outputs onHost,
      Registers key answer.given.sourceAddress answer entry := by
  obtain ⟨record, listed, whole⟩ := List.mem_filterMap.mp written
  obtain ⟨entry, wrote, rfl⟩ := List.mem_map.mp listed
  obtain ⟨logged, wrote⟩ := List.mem_filter.mp wrote
  obtain ⟨taken, member, routed⟩ := List.mem_flatMap.mp logged
  obtain ⟨_, earlier, _, stepped⟩ := run.of_mem member
  have sound := Host.step_sound (Hosted.kept_of_run keyed earlier).1 stepped entry routed
  have wrote := of_decide_eq_true wrote
  have source (sized : ¬ entry.handled.size < 0) :
      answer.given.sourceAddress = entry.handled.sourceAddress := by
    obtain ⟨behind, bytes⟩ := sound.written.resolve_left (List.ne_nil_of_mem wrote)
    rw [bytes] at whole
    exact sourceAddress_receivedOf sized whole
  refine ⟨entry, logged, wrote, whole, registers, rfl, fun sized => (source sized).symm, ?_⟩
  intro sized sender own
  rw [source sized, sound.stamped sender own]
  rfl

/-- Who the room writes to has written to it before. -/
theorem registers_of_sent (keyed : Host.Keyed start)
    (run : Host.machine.Run (fun _ _ => True) start onHost host) {handled : List Handled}
    {closed : Bool} (transcript : Room.Transcript (handled.map Handled.letters) closed)
    (heard : ∀ entry ∈ handled, entry.given ∈
      (Host.writtenFor key (EventMachine.outputs onHost)).filterMap receivedOf)
    {m : Cpmd.Message} (member : m ∈ handled.flatMap Handled.sent) :
    ((sentAs m).said.type = .kPrivateMessage ∧ m.remoteAddress = ⟨0, 0⟩) ∨
      ((sentAs m).said.type = .kMessage ∧ ∃ answer ∈ handled,
        ∃ entry ∈ EventMachine.outputs onHost, Registers key m.remoteAddress answer entry) := by
  obtain ⟨answer, shown, own⟩ := List.mem_flatMap.mp member
  have sent : sentAs m ∈ (handled.map Handled.letters).flatMap Prod.snd :=
    List.mem_flatMap.mpr ⟨answer.letters, List.mem_map_of_mem shown, List.mem_map_of_mem own⟩
  refine (transcript.addressed sent).imp_right fun ⟨told, letter, listed, registers, same⟩ =>
    ⟨told, ?_⟩
  rw [List.map_map] at listed
  obtain ⟨first, said, rfl⟩ := List.mem_map.mp listed
  have source : first.given.sourceAddress = m.remoteAddress := same
  rw [← source]
  exact ⟨first, said, registers_of_mem keyed run (heard first said) registers⟩

variable {messageServerPort : Int32} {resolveServerAddress : NetAddress}
  {busLocation : List UInt8} {earlier : List (EventMachine.Taken Host Host.Event Host.Routed)}
  {company : Company Member} {start state : Hosted.State (@ProgramOf Member)}
  {history : Company.History Member}

theorem Company.orderly (company : Company Member) :
    ∀ party, Hosted.Orderly (company.population.program party)
  | none => Server.orderly
  | some _ => Client.orderly _ _

variable [DecidableEq Member]

/-- The server's side of a run that it began with unused buses. -/
theorem server_of_splits (splits : Hosted.Splits company.population none start history state)
    (unused : start.host.posted company.room = [] ∧ start.host.pending company.room = [])
    (opened : Company.serverOf start = .initial) :
    ∃ onServer, ∃ server : Server,
      Server.program.machine.Run (fun _ _ => True) .initial onServer server ∧
      QueueProgram.arrivedIn onServer =
        Host.writtenFor company.room (Hosted.logOf (EventMachine.outputs history)) ∧
      Host.readFrom company.room (Hosted.logOf (EventMachine.outputs history)) =
        (Server.program.takenIn onServer).filterMap ClientInfo.checkRecord ∧
      EventMachine.outputs onServer = Company.handledIn (EventMachine.outputs history) ∧
      server.client = ⟨state.host.posted company.room, state.host.pending company.room⟩ ∧
      server.exited = (Company.serverOf state).exited := by
  obtain ⟨_, ⟨_, ⟨onServer, run, arrived, rfl, _, made⟩, read⟩⟩ := splits
  have fresh : Hosted.State.view company.population none start = Server.initial :=
    Hosted.view_of_unused unused opened rfl rfl
  rw [fresh] at run
  exact ⟨onServer, _, run, arrived, read, made, rfl, rfl⟩

theorem roomOnHost_of_splits (keyed : Host.Keyed start.host)
    (splits : Hosted.Splits company.population none start history state)
    (unused : start.host.posted company.room = [] ∧ start.host.pending company.room = [])
    (opened : Company.serverOf start = .initial) :
    RoomOnHost company (EventMachine.outputs history) state := by
  obtain ⟨onHost, hostRun, logged⟩ := splits.host
  obtain ⟨onServer, server, serverRun, arrived, read, made, buses, exited⟩ :=
    server_of_splits splits unused opened
  have conducts := conducts_of_run serverRun
  have heard := QueueProgram.read_run (fun _ _ _ _ => Server.reads_round) serverRun
  have posted := QueueProgram.written_run (fun _ _ _ _ => Server.posts_round) serverRun
  have came : (Host.writtenFor company.room (Hosted.logOf (EventMachine.outputs history))).filterMap
      receivedOf = (Company.handledIn (EventMachine.outputs history)).map Handled.given ++
        (state.host.posted company.room).filterMap receivedOf := by
    have input : Server.program.input server = state.host.posted company.room := by
      change server.client.input = _
      rw [buses]
    rw [← made, ← arrived, ← input, List.filterMap_eq_flatMap_toList,
      List.filterMap_eq_flatMap_toList, List.map_eq_flatMap]
    exact heard
  have went : Host.readFrom company.room (Hosted.logOf (EventMachine.outputs history)) ++
      (state.host.pending company.room).filterMap ClientInfo.checkRecord =
        (Company.handledIn (EventMachine.outputs history)).flatMap Handled.sent := by
    have output : Server.program.output server = state.host.pending company.room := by
      change server.client.output = _
      rw [buses]
    have all : Server.program.takenIn onServer ++ Server.program.output server =
        (sentIn onServer).map fun m => m.image [] := by
      rw [sentIn, List.map_flatMap]
      exact posted
    rw [read, ← output, ← List.filterMap_append, all, map_image_filterMap, sentIn, made]
    intro copy member
    obtain ⟨handled, shown, sent⟩ := List.mem_flatMap.mp member
    exact checkRecord_copy serverRun shown sent []
  rw [made] at conducts
  refine ⟨came, exited ▸ conducts.2, went, fun m member => ?_⟩
  rw [← logged] at came ⊢
  refine registers_of_sent keyed hostRun conducts.2 (fun entry shown => ?_) (went ▸
    List.mem_append_left _ member)
  rw [came]
  exact List.mem_append_left _ (List.mem_map_of_mem shown)

/-- No copy is cut on its way. -/
theorem whole_of_splits
    (splits : Hosted.Splits company.population none start history state)
    (unused : start.host.posted company.room = [] ∧ start.host.pending company.room = [])
    (opened : Company.serverOf start = .initial) {copy : Cpmd.Message}
    (sent : copy ∈ (Company.handledIn (EventMachine.outputs history)).flatMap Handled.sent) :
    Whole copy := by
  obtain ⟨onServer, server, serverRun, _, _, made, _⟩ := server_of_splits splits unused opened
  rw [← made] at sent
  obtain ⟨handled, shown, own⟩ := List.mem_flatMap.mp sent
  exact whole_copy serverRun shown own

/-- Whatever others do, and in whichever order. -/
theorem roomOnHost_run
    (before : Host.machine.Run (fun _ _ => True)
      (Host.initial messageServerPort resolveServerAddress busLocation) earlier start.host)
    (registered : (start.host.identities company.room).isSome = true)
    (unused : start.host.posted company.room = [] ∧ start.host.pending company.room = [])
    (opened : Company.serverOf start = .initial)
    (run : (Hosted.machine company.population).Run (fun _ _ => True) start history state) :
    RoomOnHost company (EventMachine.outputs history) state := by
  have keyed := Host.keyed_run before
  have splits : Hosted.Splits company.population none start history state :=
    Hosted.splits_run company.orderly keyed registered run
  exact roomOnHost_of_splits keyed splits unused opened

/-- Two members, `a` and `b`, of a room that is called `r`. -/
def someCompany : Company Bool where
  chatroomAddress := ⟨0, Host.someKey [114]⟩
  name := fun first => if first then [97] else [98]
  key := fun first => Host.someKey (if first then [97] else [98])
  partyAt := fun key =>
    if key = Host.someKey [114] then some none
    else if key = Host.someKey [97] then some (some true)
    else if key = Host.someKey [98] then some (some false)
    else none
  partyAt_room := by decide +kernel
  partyAt_key := by decide +kernel

def someEarlier : Option (List (EventMachine.Taken Host Host.Event Host.Routed) × Host) :=
  Host.machine.run? (fun _ _ => True)
    (Host.initial 8123 Daemon.someResolveServer [47, 116, 109, 112])
    [Host.handShakeOf [114], Host.handShakeOf [97], Host.handShakeOf [98]]

def someStart : Hosted.State (@ProgramOf Bool) where
  host := (someEarlier.map Prod.snd).getD
    (Host.initial 8123 Daemon.someResolveServer [47, 116, 109, 112])
  program := fun
    | none => Server.initial
    | some _ => .created ⟨[], []⟩

/-- Both announce themselves, and `a` says something, which `b` prints. -/
def someConversation : List (Hosted.Event (@RoundOf Bool)) :=
  [.round (some true) (.start true), .round (some false) (.start true),
    .host (.busMessage (fun _ _ _ => true) fun _ _ => []),
    .round none ⟨fun _ => true, []⟩, .round none ⟨fun _ => true, []⟩,
    .round (some true) (.round ⟨.ready (some [104, 105]) true, fun _ => [], none⟩),
    .host (.busMessage (fun _ _ _ => true) fun _ _ => []), .round none ⟨fun _ => true, []⟩,
    .host (.busMessage (fun _ _ _ => true) fun _ _ => []),
    .round (some false) (.round ⟨.timedOut, fun _ => [], none⟩)]

theorem exists_someEarlier :
    ∃ earlier, Host.machine.Run (fun _ _ => True)
      (Host.initial 8123 Daemon.someResolveServer [47, 116, 109, 112]) earlier
      someStart.host := by
  have began : someEarlier.isSome = true := by decide +kernel
  obtain ⟨⟨earlier, host⟩, executed⟩ := Option.isSome_iff_exists.mp began
  have same : someStart.host = host := by
    rw [someStart, executed]
    rfl
  rw [same]
  exact ⟨earlier, EventMachine.run?_sound executed⟩

theorem roomOnHost_run_words :
    ∃ history : Company.History Bool, ∃ state,
      (Company.handledIn (EventMachine.outputs history)).length = 3 ∧
      RoomOnHost someCompany (EventMachine.outputs history) state := by
  obtain ⟨earlier, before⟩ := exists_someEarlier
  obtain ⟨history, state, run, heard⟩ := EventMachine.exists_run_of_any
    (Hosted.machine someCompany.population) (fun _ _ => True) someStart someConversation
    (fun reached => (Company.handledIn (EventMachine.outputs reached.1)).length == 3)
    (by decide +kernel)
  exact ⟨history, state, eq_of_beq heard,
    roomOnHost_run before (by decide +kernel) (by decide +kernel) rfl run⟩

end Runs

end Cpmd.Chat
