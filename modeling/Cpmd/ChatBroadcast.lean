import Cpmd.HostedChatroom
import Cpmd.Library.KeyedValues

/-! One order for all: where only the chatroom's own programs write to each other on a host,
what each member prints comes in the order in which the room has heard it, and this order
respects that in which every member has typed. -/

set_option autoImplicit false

namespace Cpmd.Chat

open Library

namespace Room

def line (said : Message) : Option Line :=
  if said.type = .kMessage then some ⟨said.name, said.words⟩ else none

/-- What the room has passed on, in order, and the client address it came from. -/
def conversation (heard : List Letter) : List (UInt32 × Line) :=
  heard.filterMap fun letter => (line (passedOn letter.said.type letter.said)).map fun said =>
    (letter.address.clientAddr, said)

/-- What is printed of the letters that go to a client address. -/
def linesFor (key : UInt32) (sent : List Letter) : List Line :=
  (sent.filter fun letter => letter.address.clientAddr = key).filterMap fun letter =>
    line letter.said

/-- The names registered from a client address. -/
def registrations (key : UInt32) (heard : List Letter) : List Letter :=
  heard.filter fun letter => letter.said.type = .kRegister ∧ letter.address.clientAddr = key

theorem eq_of_once {Item : Type} {items : List Item} (once : items.length ≤ 1)
    {first second : Item}
    (one : first ∈ items) (other : second ∈ items) : first = second := by
  match items, once with
  | [], _ => cases one
  | [item], _ => rw [List.mem_singleton.mp one, List.mem_singleton.mp other]

/-- Who has registered only once is on the roll only once. -/
theorem roll_once {heard : List Letter} {roll : List (List UInt8 × Address)} {key : UInt32}
    (complete : Roll heard roll) (once : (registrations key heard).length ≤ 1) :
    (roll.filter fun member => member.2.clientAddr = key).length ≤ 1 := by
  have different := complete.ordered.imp And.right
  have distinct : (roll.filter fun member => member.2.clientAddr = key).Pairwise
      fun first second => first.1 ≠ second.1 := different.filter _
  have same : ∀ first ∈ roll.filter fun member => member.2.clientAddr = key,
      ∀ second ∈ roll.filter fun member => member.2.clientAddr = key, first.1 = second.1 := by
    intro first one second other
    obtain ⟨listed, mine⟩ := List.mem_filter.mp one
    obtain ⟨enrolled, own⟩ := List.mem_filter.mp other
    obtain ⟨letter, heard, registers, named, back⟩ :=
      registered_of_addressOf ((complete.members first.1 first.2).mp listed)
    obtain ⟨again, reheard, registered, renamed, returned⟩ :=
      registered_of_addressOf ((complete.members second.1 second.2).mp enrolled)
    rw [← back] at mine
    rw [← returned] at own
    rw [← named, ← renamed, eq_of_once once
      (List.mem_filter.mpr ⟨heard, by simpa [registers] using mine⟩)
      (List.mem_filter.mpr ⟨reheard, by simpa [registered] using own⟩)]
  generalize roll.filter (fun member => member.2.clientAddr = key) = members at distinct same
  match members, distinct with
  | [], _ => exact Nat.zero_le 1
  | [_], _ => exact Nat.le_refl 1
  | first :: second :: _, distinct =>
      have apart := List.rel_of_pairwise_cons distinct List.mem_cons_self
      exact absurd (same first List.mem_cons_self second (by simp)) apart

theorem filterMap_sublist_of_once {Item Image : Type} {items : List Item}
    (once : items.length ≤ 1) (image : Option Image) :
    (items.filterMap fun _ => image).Sublist image.toList := by
  match items, once with
  | [], _ => exact List.nil_sublist _
  | [_], _ => cases image <;> exact List.Sublist.refl _

theorem linesFor_deliveries {roll : List (List UInt8 × Address)} {letter : Letter}
    {key : UInt32} (once : (roll.filter fun member => member.2.clientAddr = key).length ≤ 1) :
    (linesFor key (deliveries roll letter)).Sublist
      (line (passedOn letter.said.type letter.said)).toList := by
  rw [deliveries]
  split
  · exact List.nil_sublist _
  · exact List.nil_sublist _
  · exact List.nil_sublist _
  · rename_i told
    have copies : linesFor key ((roll.filter fun member => member.2 ≠ letter.address).map
        fun member => ⟨member.2, passedOn .kMessage letter.said⟩) =
        ((roll.filter fun member => member.2 ≠ letter.address).filter
          fun member => member.2.clientAddr = key).filterMap
            fun _ => line (passedOn .kMessage letter.said) := by
      rw [linesFor, List.filter_map, List.filterMap_map]
      rfl
    rw [copies, told]
    exact filterMap_sublist_of_once
      ((List.filter_sublist.filter _).length_le.trans once) _
  · split
    · exact (List.filter_sublist.filterMap _).trans (List.nil_sublist _)
    · exact List.nil_sublist _

theorem linesFor_append (key : UInt32) (first second : List Letter) :
    linesFor key (first ++ second) = linesFor key first ++ linesFor key second := by
  rw [linesFor, List.filter_append, List.filterMap_append]
  rfl

theorem conversation_append (heard more : List Letter) :
    conversation (heard ++ more) = conversation heard ++ conversation more :=
  List.filterMap_append

theorem map_conversation_singleton (letter : Letter) :
    (conversation [letter]).map Prod.snd =
      (line (passedOn letter.said.type letter.said)).toList := by
  cases known : line (passedOn letter.said.type letter.said) <;> simp [conversation, known]

/-- What goes to one client address is part of what the room has heard, in the same order,
if only one name was registered from there. By induction on the transcript. -/
theorem Transcript.linesFor_sublist {log : List (Letter × List Letter)} {closed : Bool}
    {key : UInt32} (transcript : Transcript log closed)
    (once : (registrations key (log.map Prod.fst)).length ≤ 1) :
    (linesFor key (log.flatMap Prod.snd)).Sublist
      ((conversation (log.map Prod.fst)).map Prod.snd) := by
  have answer {heard : List Letter} {roll : List (List UInt8 × Address)} {letter : Letter}
      {sent : List Letter} (complete : Roll heard roll) (begins : sent <+: deliveries roll letter)
      (once : (registrations key (heard ++ [letter])).length ≤ 1) :
      (registrations key heard).length ≤ 1 ∧
        (linesFor key sent).Sublist ((conversation [letter]).map Prod.snd) := by
    rw [registrations, List.filter_append, List.length_append] at once
    have fewer : (registrations key heard).length ≤ 1 := by
      rw [registrations]
      omega
    refine ⟨fewer, ?_⟩
    rw [map_conversation_singleton]
    exact ((begins.sublist.filter _).filterMap _).trans
      (linesFor_deliveries (roll_once complete fewer))
  induction transcript with
  | opened => exact List.nil_sublist _
  | closed _ ih => exact ih once
  | answered _ complete ih =>
      rw [List.map_append, List.map_singleton] at once ⊢
      obtain ⟨fewer, last⟩ := answer complete (List.prefix_refl _) once
      rw [List.flatMap_append, List.flatMap_singleton, linesFor_append, conversation_append,
        List.map_append]
      exact (ih fewer).append last
  | brokenOff _ complete begins _ ih =>
      rw [List.map_append, List.map_singleton] at once ⊢
      obtain ⟨fewer, last⟩ := answer complete begins once
      rw [List.flatMap_append, List.flatMap_singleton, linesFor_append, conversation_append,
        List.map_append]
      exact (ih fewer).append last

end Room

section Log

variable {log : List Host.Routed}

theorem filterMap_writtenFor {Image : Type} (key : UInt32) (view : List UInt8 → Option Image) :
    (Host.writtenFor key log).filterMap view = log.filterMap fun entry =>
      if (key, true) ∈ entry.writes then view entry.bytes else none := by
  rw [Host.writtenFor, List.filterMap_map, List.filterMap_filter]
  refine List.filterMap_congr fun entry _ => ?_
  simp only [decide_eq_true_eq]
  rfl

theorem filterMap_readFrom {Image : Type} (key : UInt32) (view : Cpmd.Message → Option Image) :
    (Host.readFrom key log).filterMap view = log.filterMap fun entry =>
      if entry.source = some key then view entry.given else none := by
  rw [Host.readFrom, List.filterMap_map, List.filterMap_filter]
  refine List.filterMap_congr fun entry _ => ?_
  simp only [beq_iff_eq]
  rfl

/-- What is seen of the records written for one client is seen of what another has sent, in
the order in which it was sent. -/
theorem writtenFor_sublist_readFrom {Image : Type} {receiver sender : UInt32}
    {view : List UInt8 → Option Image} {origin : Cpmd.Message → Option Image}
    (same : ∀ entry ∈ log, (receiver, true) ∈ entry.writes → ∀ image,
      view entry.bytes = some image →
      entry.source = some sender ∧ origin entry.given = some image) :
    ((Host.writtenFor receiver log).filterMap view).Sublist
      ((Host.readFrom sender log).filterMap origin) := by
  rw [filterMap_writtenFor, filterMap_readFrom]
  refine filterMap_sublist_filterMap fun entry member image seen => ?_
  obtain ⟨wrote, seen⟩ := Option.ite_none_right_eq_some.mp seen
  obtain ⟨source, sent⟩ := same entry member wrote image seen
  rw [if_pos source, sent]

end Log

variable {Member : Type}

/-- Nobody else on the host, and no other node, writes to these. -/
def Company.Alone (company : Company Member) (log : List Host.Routed) : Prop :=
  ∀ entry ∈ log, ∀ party, (company.population.key party, true) ∈ entry.writes →
    ∃ sender, entry.source = some (company.population.key sender)

/-- What is known of a log from the programs of the company, each for itself. -/
structure Dispatches (company : Company Member) (log : List Host.Routed)
    (spoken : Member → List (List UInt8)) (handled : List Handled) : Prop where
  sound : ∀ entry ∈ log, ∃ host, entry.Sound host
  alone : company.Alone log
  members : ∀ member, Host.readFrom (company.key member) log <+:
    Client.messages company.chatroomAddress (company.name member) (spoken member)
  heard : handled.map Handled.given <+: (Host.writtenFor company.room log).filterMap receivedOf
  sent : Host.readFrom company.room log <+: handled.flatMap Handled.sent
  copies : ∀ copy ∈ handled.flatMap Handled.sent, Whole copy
  transcript : ∃ closed, Room.Transcript (handled.map Handled.letters) closed

namespace Dispatches

variable {company : Company Member} {log : List Host.Routed}
  {spoken : Member → List (List UInt8)} {handled : List Handled} {member : Member}

theorem mem_readFrom {key : UInt32} {entry : Host.Routed} (logged : entry ∈ log)
    (source : entry.source = some key) : entry.given ∈ Host.readFrom key log :=
  List.mem_map_of_mem (List.mem_filter.mpr ⟨logged, beq_iff_eq.mpr source⟩)

theorem whole (dispatches : Dispatches company log spoken handled) {entry : Host.Routed}
    (logged : entry ∈ log) {party : Option Member}
    (source : entry.source = some (company.population.key party)) : Whole entry.given := by
  cases party with
  | none =>
      exact dispatches.copies _ (dispatches.sent.subset (mem_readFrom logged source))
  | some member =>
      exact Client.whole_of_mem_messages
        ((dispatches.members member).subset (mem_readFrom logged source))

/-- Whoever sent it, a message arrives as it was, but for the stamp. -/
theorem received (dispatches : Dispatches company log spoken handled) {entry : Host.Routed}
    (logged : entry ∈ log) {party : Option Member}
    (source : entry.source = some (company.population.key party)) {key : UInt32}
    (wrote : (key, true) ∈ entry.writes) : receivedOf entry.bytes = some entry.handled := by
  obtain ⟨host, sound⟩ := dispatches.sound entry logged
  obtain ⟨behind, bytes⟩ := sound.written.resolve_left (List.ne_nil_of_mem wrote)
  rw [bytes, sound.stamped _ source]
  exact (dispatches.whole logged source).received _ behind

/-- What was heard from a client address. -/
def saidFrom (key : UInt32) (m : Cpmd.Message) : Option Message :=
  if m.sourceAddress.clientAddr = key then some (dataAs m []) else none

/-- The room hears of a member what this has sent, in order. -/
theorem heard_sublist (dispatches : Dispatches company log spoken handled) (member : Member) :
    ((handled.map Handled.given).filterMap (saidFrom (company.key member))).Sublist
      ((Client.messages company.chatroomAddress (company.name member) (spoken member)).map
        fun m => dataAs m []) := by
  refine (dispatches.heard.sublist.filterMap _).trans ?_
  rw [List.filterMap_filterMap, ← List.filterMap_eq_map]
  refine (writtenFor_sublist_readFrom ?_).trans ((dispatches.members member).sublist.filterMap _)
  intro entry logged wrote said seen
  obtain ⟨party, source⟩ := dispatches.alone entry logged none wrote
  obtain ⟨host, sound⟩ := dispatches.sound entry logged
  rw [dispatches.received logged source wrote, Option.bind_some] at seen
  obtain ⟨own, same⟩ := Option.ite_none_right_eq_some.mp seen
  rw [sound.stamped _ source] at own same
  exact ⟨source.trans (congrArg some own), same⟩

/-- The letters that the room has heard. -/
def letters (handled : List Handled) : List Letter :=
  (handled.map Handled.letters).map Prod.fst

/-- The room hears whole chat messages only, so that it does not depend on the memory behind
them what it hears. -/
theorem letters_eq (dispatches : Dispatches company log spoken handled) :
    letters handled = (handled.map Handled.given).map fun m => heardAs m [] := by
  rw [letters, List.map_map, List.map_map]
  refine List.map_congr_left fun answer listed => ?_
  obtain ⟨record, written, whole⟩ := List.mem_filterMap.mp
    (dispatches.heard.subset (List.mem_map_of_mem listed))
  obtain ⟨entry, shown, rfl⟩ := List.mem_map.mp written
  obtain ⟨logged, wrote⟩ := List.mem_filter.mp shown
  have wrote := of_decide_eq_true wrote
  obtain ⟨party, source⟩ := dispatches.alone entry logged none wrote
  obtain ⟨host, sound⟩ := dispatches.sound entry logged
  obtain ⟨chatMessage, layout⟩ := (dispatches.whole logged source).layout
  rw [dispatches.received logged source wrote, sound.stamped _ source] at whole
  have same : answer.given.data = chatMessage.layout := by
    rw [← Option.some.inj whole]
    exact layout
  change heardAs answer.given answer.behind = heardAs answer.given []
  rw [heardAs, heardAs, dataAs_of_layout same, dataAs_of_layout same]

theorem valuesAt_conversation (key : UInt32) (given : List Cpmd.Message) :
    valuesAt key (Room.conversation (given.map fun m => heardAs m [])) =
      (given.filterMap (saidFrom key)).filterMap fun said =>
        Room.line (Room.passedOn said.type said) := by
  rw [Room.conversation, List.filterMap_map, valuesAt_filterMap, List.filterMap_filterMap]
  refine List.filterMap_congr fun m _ => ?_
  by_cases own : m.sourceAddress.clientAddr = key <;>
    simp [saidFrom, heardAs, own, Option.bind_map]

theorem said_registrations (key : UInt32) (given : List Cpmd.Message) :
    (Room.registrations key (given.map fun m => heardAs m [])).map Letter.said =
      (given.filterMap (saidFrom key)).filter fun said => said.type = .kRegister := by
  induction given with
  | nil => rfl
  | cons m given ih =>
      by_cases own : m.sourceAddress.clientAddr = key <;>
        by_cases registers : (dataAs m []).type = .kRegister <;>
          simpa [Room.registrations, saidFrom, heardAs, own, registers] using ih

def typedLine (name words : List UInt8) : Line :=
  ⟨Message.cut kMaxNameSize name, Message.cut kMaxWordsSize words⟩

theorem said_announcement (chatroomAddress : Address) (name : List UInt8) :
    dataAs (Client.announcement chatroomAddress name) [] =
      ⟨.kRegister, Message.cut kMaxNameSize name, [], []⟩ :=
  congrArg Letter.said (Client.sentAs_messageOf chatroomAddress ⟨.kRegister, name, [], []⟩)

theorem said_utterance (chatroomAddress : Address) (name words : List UInt8) :
    dataAs (Client.utterance chatroomAddress name words) [] =
      ⟨.kMessage, Message.cut kMaxNameSize name, [], Message.cut kMaxWordsSize words⟩ :=
  congrArg Letter.said (Client.sentAs_utterance chatroomAddress name words)

theorem lines_messages (chatroomAddress : Address) (name : List UInt8)
    (said : List (List UInt8)) :
    ((Client.messages chatroomAddress name said).map fun m =>
        dataAs m []).filterMap (fun said => Room.line (Room.passedOn said.type said)) =
      said.map (typedLine name) := by
  rw [Client.messages, List.map_cons, said_announcement, List.filterMap_cons_none rfl,
    List.map_map, List.filterMap_map, ← List.filterMap_eq_map]
  refine List.filterMap_congr fun words _ => ?_
  simp only [Function.comp_apply, said_utterance, Room.passedOn, Room.line, if_true,
    Message.cut, List.take_take, Nat.min_self, typedLine]

theorem registers_messages (chatroomAddress : Address) (name : List UInt8)
    (said : List (List UInt8)) :
    ((Client.messages chatroomAddress name said).map fun m =>
        dataAs m []).filter (fun said => said.type = .kRegister) =
      [⟨.kRegister, Message.cut kMaxNameSize name, [], []⟩] := by
  rw [Client.messages, List.map_cons, said_announcement, List.filter_cons,
    if_pos (decide_eq_true rfl), List.map_map, List.filter_map, List.filter_eq_nil_iff.mpr,
    List.map_nil]
  intro words _
  simp [said_utterance]

theorem fifo (dispatches : Dispatches company log spoken handled) :
    (valuesAt (company.key member) (Room.conversation (letters handled))).Sublist
      ((spoken member).map (typedLine (company.name member))) := by
  rw [dispatches.letters_eq, valuesAt_conversation, ← lines_messages company.chatroomAddress]
  exact (dispatches.heard_sublist member).filterMap _

theorem once (dispatches : Dispatches company log spoken handled) (member : Member) :
    (Room.registrations (company.key member) (letters handled)).length ≤ 1 := by
  have fewer := (dispatches.heard_sublist member).filter fun said => said.type = .kRegister
  rw [registers_messages, ← said_registrations, ← dispatches.letters_eq] at fewer
  simpa using fewer.length_le

/-- Nobody writes to a member but the room. -/
theorem source_of_written (dispatches : Dispatches company log spoken handled)
    {entry : Host.Routed} (logged : entry ∈ log)
    (wrote : (company.key member, true) ∈ entry.writes) :
    entry.source = some company.room ∧
      entry.given.remoteAddress.clientAddr = company.key member := by
  obtain ⟨party, source⟩ := dispatches.alone entry logged (some member) wrote
  obtain ⟨host, sound⟩ := dispatches.sound entry logged
  have receiver : company.key member = entry.given.remoteAddress.clientAddr := by
    have same := (sound.addressed _ wrote).1
    rw [sound.stamped _ source] at same
    exact same
  cases party with
  | none => exact ⟨source, receiver.symm⟩
  | some other =>
      have chatroom := Client.remoteAddress_of_mem_messages
        ((dispatches.members other).subset (mem_readFrom logged source))
      rw [chatroom] at receiver
      have same : some member = none := Hosted.key_injective company.population receiver
      cases same

/-- What is printed at a look does not depend on the memory behind the message either. -/
theorem line_of_look (dispatches : Dispatches company log spoken handled) {look : Look}
    (written : look.record ∈ Host.writtenFor (company.key member) log)
    (shown : ∀ m, receivedOf look.record = some m → look.m = m) :
    look.line = Client.printedOf look.record [] := by
  obtain ⟨entry, listed, bytes⟩ := List.mem_map.mp written
  obtain ⟨logged, wrote⟩ := List.mem_filter.mp listed
  have wrote := of_decide_eq_true wrote
  obtain ⟨source, _⟩ := dispatches.source_of_written logged wrote
  have relayed : entry.source = some (company.population.key none) := source
  obtain ⟨host, sound⟩ := dispatches.sound entry logged
  obtain ⟨chatMessage, layout⟩ := (dispatches.whole logged relayed).layout
  have received := dispatches.received logged relayed wrote
  have whole : entry.handled.data = chatMessage.layout := by
    rw [sound.stamped _ source]
    exact layout
  rw [bytes] at received
  rw [Look.line, shown _ received, Client.printedOf, received, Option.bind_some, lineOf, lineOf,
    dataAs_of_layout whole, dataAs_of_layout whole]

theorem printed_sublist (dispatches : Dispatches company log spoken handled) :
    ((Host.writtenFor (company.key member) log).filterMap fun record =>
        Client.printedOf record []).Sublist
      ((Room.conversation (letters handled)).map Prod.snd) := by
  obtain ⟨closed, transcript⟩ := dispatches.transcript
  refine List.Sublist.trans ?_ (transcript.linesFor_sublist (dispatches.once member))
  have sent : Room.linesFor (company.key member) ((handled.map Handled.letters).flatMap Prod.snd) =
      (handled.flatMap Handled.sent).filterMap fun copy =>
        if copy.remoteAddress.clientAddr = company.key member then lineOf copy [] else none := by
    have posted : (handled.map Handled.letters).flatMap Prod.snd =
        (handled.flatMap Handled.sent).map sentAs := by
      rw [List.flatMap_map, List.map_flatMap]
      rfl
    rw [Room.linesFor, posted, List.filter_map, List.filterMap_map, List.filterMap_filter]
    refine List.filterMap_congr fun copy _ => ?_
    simp only [Function.comp_apply, decide_eq_true_eq]
    rfl
  rw [sent]
  refine (writtenFor_sublist_readFrom ?_).trans (dispatches.sent.sublist.filterMap _)
  intro entry logged wrote line seen
  obtain ⟨source, receiver⟩ := dispatches.source_of_written logged wrote
  obtain ⟨host, sound⟩ := dispatches.sound entry logged
  have relayed : entry.source = some (company.population.key none) := source
  rw [Client.printedOf, dispatches.received logged relayed wrote, Option.bind_some] at seen
  rw [sound.stamped _ source] at seen
  exact ⟨source, (if_pos receiver).trans seen⟩

theorem origin_of_letter (dispatches : Dispatches company log spoken handled) {letter : Letter}
    (heard : letter ∈ letters handled) :
    ∃ entry ∈ log, ∃ party, (company.room, true) ∈ entry.writes ∧
      entry.source = some (company.population.key party) ∧
      letter.address.clientAddr = company.population.key party ∧
      letter.said = dataAs entry.given [] := by
  rw [dispatches.letters_eq] at heard
  obtain ⟨m, given, rfl⟩ := List.mem_map.mp heard
  obtain ⟨record, listed, whole⟩ := List.mem_filterMap.mp (dispatches.heard.subset given)
  obtain ⟨entry, written, rfl⟩ := List.mem_map.mp listed
  obtain ⟨logged, wrote⟩ := List.mem_filter.mp written
  have wrote := of_decide_eq_true wrote
  obtain ⟨party, source⟩ := dispatches.alone entry logged none wrote
  obtain ⟨host, sound⟩ := dispatches.sound entry logged
  rw [dispatches.received logged source wrote] at whole
  cases whole
  refine ⟨entry, logged, party, wrote, source, ?_, ?_⟩ <;>
    rw [heardAs, sound.stamped _ source] <;> rfl

theorem addressed (dispatches : Dispatches company log spoken handled) {entry : Host.Routed}
    (logged : entry ∈ log) (source : entry.source = some company.room) :
    Room.Addressed (letters handled) (sentAs entry.given) := by
  obtain ⟨closed, transcript⟩ := dispatches.transcript
  obtain ⟨answer, listed, copied⟩ :=
    List.mem_flatMap.mp (dispatches.sent.subset (mem_readFrom logged source))
  exact transcript.addressed (List.mem_flatMap.mpr
    ⟨answer.letters, List.mem_map_of_mem listed, List.mem_map_of_mem copied⟩)

/-- A name is registered by a member. -/
theorem registers_member (dispatches : Dispatches company log spoken handled) {letter : Letter}
    (heard : letter ∈ letters handled) (registers : letter.said.type = .kRegister) :
    ∃ member, letter.address.clientAddr = company.key member := by
  obtain ⟨entry, logged, party, _, source, address, said⟩ := dispatches.origin_of_letter heard
  cases party with
  | some member => exact ⟨member, address⟩
  | none =>
      have same : (sentAs entry.given).said.type = .kRegister := by
        rw [← registers, said]
        rfl
      rcases dispatches.addressed logged source with ⟨told, _⟩ | ⟨told, _⟩ <;>
      · rw [same] at told
        cases told

/-- Who speaks in the room is a member: the room does not write to itself. -/
theorem speaker (dispatches : Dispatches company log spoken handled)
    {entry : UInt32 × Line} (told : entry ∈ Room.conversation (letters handled)) :
    ∃ member, company.key member = entry.1 := by
  obtain ⟨letter, heard, spoke⟩ := List.mem_filterMap.mp told
  obtain ⟨line, shown, rfl⟩ := Option.map_eq_some_iff.mp spoke
  have type : letter.said.type = .kMessage := (Option.ite_none_right_eq_some.mp shown).1
  obtain ⟨entry, logged, party, wrote, source, address, said⟩ :=
    dispatches.origin_of_letter heard
  cases party with
  | some member => exact ⟨member, address.symm⟩
  | none =>
      exfalso
      obtain ⟨host, sound⟩ := dispatches.sound entry logged
      have receiver : company.room = entry.given.remoteAddress.clientAddr := by
        have same := (sound.addressed _ wrote).1
        rw [sound.stamped _ source] at same
        exact same
      have same : (sentAs entry.given).said.type = .kMessage := by
        rw [← type, said]
        rfl
      rcases dispatches.addressed logged source with ⟨other, _⟩ | ⟨_, first, known, registers, back⟩
      · rw [same] at other
        cases other
      · obtain ⟨member, own⟩ := dispatches.registers_member known registers
        have itself : some member = none := by
          refine Hosted.key_injective company.population ?_
          change company.key member = company.room
          rw [receiver, ← own, back]
          rfl
        cases itself

end Dispatches

section Runs

variable [DecidableEq Member] {company : Company Member}
  {start state : Hosted.State (@ProgramOf Member)} {history : Company.History Member}

/-- The words that a member has typed and could send. -/
def spokenBy (member : Member) (history : Company.History Member) : List (List UInt8) :=
  (Hosted.roundsOf (some member) history).flatMap Client.Turn.words

def looksBy (member : Member) (history : Company.History Member) : List Look :=
  (Hosted.madeIn (some member) (EventMachine.outputs history)).flatMap Client.Output.look

def printedBy (member : Member) (history : Company.History Member) : List Line :=
  (looksBy member history).filterMap Look.line

def conversationIn (history : Company.History Member) : List (UInt32 × Line) :=
  Room.conversation (Dispatches.letters (Company.handledIn (EventMachine.outputs history)))

/-- All that is said is said by a member, in the order in which this has typed it, and all
members print what others and they say in one and the same order. -/
structure Broadcast (company : Company Member) (history : Company.History Member) : Prop where
  speaker : ∀ entry ∈ conversationIn history, ∃ member, company.key member = entry.1
  typed : ∀ member, (valuesAt (company.key member) (conversationIn history)).Sublist
    ((spokenBy member history).map (Dispatches.typedLine (company.name member)))
  printed : ∀ member, (printedBy member history).Sublist ((conversationIn history).map Prod.snd)

def Company.initial : ∀ party : Option Member, ProgramOf party
  | none => Server.initial
  | some _ => .created ⟨[], []⟩

/-- A member's side of a run that it began with unused buses. -/
theorem member_of_splits {member : Member}
    (splits : Hosted.Splits company.population (some member) start history state)
    (unused : start.host.posted (company.key member) = [] ∧
      start.host.pending (company.key member) = [])
    (opened : start.program = Company.initial) :
    Host.readFrom (company.key member) (Hosted.logOf (EventMachine.outputs history)) <+:
        Client.messages company.chatroomAddress (company.name member) (spokenBy member history) ∧
      (looksBy member history).map Look.record <+:
        Host.writtenFor (company.key member) (Hosted.logOf (EventMachine.outputs history)) ∧
      ∀ look ∈ looksBy member history, ∀ m, receivedOf look.record = some m → look.m = m := by
  obtain ⟨_, ⟨_, ⟨onMember, run, arrived, rfl, turns, made⟩, read⟩⟩ := splits
  have fresh : Hosted.State.view company.population (some member) start =
      Client.Stage.created ⟨[], []⟩ :=
    Hosted.view_of_unused unused (by rw [opened]; rfl) rfl rfl
  rw [fresh] at run
  have said := Client.checkRecord_takenIn run
  have shown := QueueProgram.read_run (fun _ _ _ _ => Client.reads_turn) run
  refine ⟨?_, ?_, fun look member m received => ?_⟩
  · rw [spokenBy, ← turns]
    exact read ▸ said
  · rw [List.flatMap_singleton', List.flatMap_singleton'] at shown
    rw [looksBy, ← made, List.map_flatMap]
    refine ⟨_, shown.symm.trans ?_⟩
    rw [arrived]
    rfl
  · rw [looksBy, ← made] at member
    obtain ⟨output, produced, looked⟩ := List.mem_flatMap.mp member
    obtain ⟨_, _, _, outputs, turned, shown⟩ := QueueProgram.round_of_output run produced
    exact Client.looked_turn turned (List.mem_flatMap.mpr ⟨output, shown, looked⟩) received

/-- What all of a company do in a run that they begin together. -/
theorem dispatches_of_splits (keyed : Host.Keyed start.host)
    (splits : ∀ party, Hosted.Splits company.population party start history state)
    (unused : ∀ party, start.host.posted (company.population.key party) = [] ∧
      start.host.pending (company.population.key party) = [])
    (opened : start.program = Company.initial)
    (alone : company.Alone (Hosted.logOf (EventMachine.outputs history))) :
    Dispatches company (Hosted.logOf (EventMachine.outputs history))
      (fun member => spokenBy member history)
      (Company.handledIn (EventMachine.outputs history)) := by
  have began : Company.serverOf start = .initial := by
    rw [Company.serverOf, opened]
    rfl
  have room := roomOnHost_of_splits keyed (splits none) (unused none) began
  obtain ⟨onHost, hostRun, logged⟩ := (splits none).host
  refine ⟨fun entry member => ?_, alone, fun member => ?_, ⟨_, room.heard.symm⟩, ⟨_, room.sent⟩,
    fun copy sent => whole_of_splits (splits none) (unused none) began sent,
    ⟨_, room.transcript⟩⟩
  · rw [← logged] at member
    obtain ⟨taken, inHistory, routed⟩ := List.mem_flatMap.mp member
    obtain ⟨_, before, _, stepped⟩ := hostRun.of_mem inHistory
    exact ⟨_, Host.step_sound (Hosted.kept_of_run keyed before).1 stepped entry routed⟩
  · exact (member_of_splits (splits (some member)) (unused (some member)) opened).1

variable {messageServerPort : Int32} {resolveServerAddress : NetAddress}
  {busLocation : List UInt8} {earlier : List (EventMachine.Taken Host Host.Event Host.Routed)}

theorem broadcast_run
    (before : Host.machine.Run (fun _ _ => True)
      (Host.initial messageServerPort resolveServerAddress busLocation) earlier start.host)
    (registered : ∀ party,
      (start.host.identities (company.population.key party)).isSome = true)
    (unused : ∀ party, start.host.posted (company.population.key party) = [] ∧
      start.host.pending (company.population.key party) = [])
    (opened : start.program = Company.initial)
    (run : (Hosted.machine company.population).Run (fun _ _ => True) start history state)
    (alone : company.Alone (Hosted.logOf (EventMachine.outputs history))) :
    Broadcast company history := by
  have keyed := Host.keyed_run before
  have splits : ∀ party, Hosted.Splits company.population party start history state :=
    fun party => Hosted.splits_run company.orderly keyed (registered party) run
  have dispatches := dispatches_of_splits keyed splits unused opened alone
  refine ⟨fun entry told => dispatches.speaker told, fun member => dispatches.fifo,
    fun member => ?_⟩
  obtain ⟨_, read, looked⟩ :=
    member_of_splits (splits (some member)) (unused (some member)) opened
  have lines : printedBy member history = ((looksBy member history).map Look.record).filterMap
      fun record => Client.printedOf record [] := by
    rw [printedBy, List.filterMap_map]
    refine List.filterMap_congr fun look listed => ?_
    exact dispatches.line_of_look (read.subset (List.mem_map_of_mem listed)) (looked look listed)
  rw [lines]
  exact (read.sublist.filterMap _).trans dispatches.printed_sublist

theorem broadcast_run_words :
    ∃ history : Company.History Bool,
      spokenBy true history = [[104, 105]] ∧ printedBy false history = [⟨[97], [104, 105]⟩] ∧
      Broadcast someCompany history := by
  obtain ⟨earlier, before⟩ := exists_someEarlier
  obtain ⟨history, state, run, heard⟩ := EventMachine.exists_run_of_any
    (Hosted.machine someCompany.population) (fun _ _ => True) someStart someConversation
    (fun reached => decide (spokenBy true reached.1 = [[104, 105]] ∧
      printedBy false reached.1 = [⟨[97], [104, 105]⟩] ∧
      ∀ entry ∈ Hosted.logOf (EventMachine.outputs reached.1),
        entry.source = some (Host.someKey [114]) ∨ entry.source = some (Host.someKey [97]) ∨
          entry.source = some (Host.someKey [98])))
    (by decide +kernel)
  obtain ⟨spoken, printed, sources⟩ := of_decide_eq_true heard
  have ready (party : Option Bool) :
      (someStart.host.identities (someCompany.population.key party)).isSome = true ∧
        someStart.host.posted (someCompany.population.key party) = [] ∧
          someStart.host.pending (someCompany.population.key party) = [] := by
    rcases party with _ | _ | _ <;> decide +kernel
  refine ⟨history, spoken, printed, broadcast_run before (fun party => (ready party).1)
    (fun party => (ready party).2) ?_ run fun entry logged _ _ => ?_⟩
  · funext party
    cases party <;> rfl
  · rcases sources entry logged with room | first | second
    · exact ⟨none, room⟩
    · exact ⟨some true, first⟩
    · exact ⟨some false, second⟩

end Runs

end Cpmd.Chat
