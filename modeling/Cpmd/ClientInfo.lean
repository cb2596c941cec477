import Cpmd.MessageStream
import Mathlib.Data.List.TakeDrop

/-! A registered client and its two buses. What a client puts on its bus is
checked when it is read there, and again, by other code, when another node reads
it from the connection it was forwarded on. -/

set_option autoImplicit false

namespace Cpmd

open Library

/-- A bus is the queue of records not read yet. -/
structure ClientInfo where
  name : List UInt8
  addr : Address
  input : List (List UInt8)
  output : List (List UInt8)
deriving DecidableEq

/-- What is written for a message: as many bytes from its start as `Size()` says, which
may end inside the header, or go on with what lies behind the message in memory. What a
bus makes of a negative size is its own affair: `behind` is then what it takes. -/
def Message.image (message : Message) (behind : List UInt8) : List UInt8 :=
  if message.size < 0 then behind
  else (message.header ++ message.data ++ behind).takeD message.size.toNatClampNeg 0

namespace ClientInfo

def checkRecord (record : List UInt8) : Option Message :=
  if record.length < Message.kMinSize then none
  else
    let message := Message.overlay record
    if message.size ≥ Int32.ofNat Message.kMaxDataSize then none else some message

/-- Reads one record; `none` stands for the result `false`, be it that the bus
is empty or that the record is dropped. -/
def readMessage (client : ClientInfo) : ClientInfo × Option Message :=
  match client.input with
  | [] => (client, none)
  | record :: rest => ({ client with input := rest }, checkRecord record)

/-- `written` is the outcome of the bus's `Write`. -/
def writeMessage (client : ClientInfo) (m : Message) (behind : List UInt8) (written : Bool) :
    ClientInfo × Bool :=
  if written then ({ client with output := client.output ++ [m.image behind] }, true)
  else (client, false)

/-- The message stays inside its record, and its bytes followed by those of any
well-formed messages arrive at a peer as this message and these, whatever the
cuts, with the connection left open. -/
def KeepsStream (record : List UInt8) (message : Message) : Prop :=
  (Message.kMinSize : Int) ≤ message.size.toInt ∧ message.size.toInt ≤ record.length ∧
    ∀ followers chunks, (∀ follower ∈ followers, Message.WellFormed follower) →
      chunks.flatten = message.serialize ++ Message.stream followers →
      MessageCodec.ReadsBelow (2 ^ 31) chunks →
      ∃ received, received.map MessageCodec.view =
          (message :: followers).map MessageCodec.view ∧
        ∀ connection, MessageCodec.Feeds .fresh chunks connection ↔
          connection = ⟨[], false, received⟩

/-- What `ReadMessage` leaves unchecked: the magic number, that the length is
one `Size()` can be computed from, and that the record holds all of the message. -/
structure RecordFits (record : List UInt8) : Prop where
  magic : (Message.overlay record).check = true
  nonneg : 0 ≤ (Message.overlay record).len.toInt
  within : ¬ (Message.overlay record).SizeOverflows
  inside : (Message.kMinSize : Int) + (Message.overlay record).len.toInt ≤ record.length

theorem checkRecord_eq_some_iff {record : List UInt8} {message : Message} :
    checkRecord record = some message ↔ Message.kMinSize ≤ record.length ∧
      message.size.toInt < Message.kMaxDataSize ∧ message = Message.overlay record := by
  have maximum : (Int32.ofNat Message.kMaxDataSize).toInt = (Message.kMaxDataSize : Int) :=
    Int32.toInt_ofNat_of_lt (by decide)
  unfold checkRecord
  split
  · rename_i short
    simp only [reduceCtorEq, false_iff]
    omega
  · rename_i whole
    simp only [ge_iff_le, Int32.le_iff_toInt_le, maximum]
    split
    · rename_i large
      simp only [reduceCtorEq, false_iff]
      intro handed
      obtain ⟨_, small, rfl⟩ := handed
      omega
    · rename_i small
      simp only [Option.some.injEq]
      constructor
      · intro equal
        subst equal
        exact ⟨by omega, by omega, rfl⟩
      · intro handed
        obtain ⟨_, _, rfl⟩ := handed
        rfl

theorem RecordFits.wellFormed {record : List UInt8} {message : Message}
    (fits : RecordFits record) (accepted : checkRecord record = some message) :
    message.WellFormed := by
  obtain ⟨whole, small, rfl⟩ := checkRecord_eq_some_iff.mp accepted
  have nonneg := fits.nonneg
  have inside := fits.inside
  have limit : (Message.kMinSize : Int) + Message.kMaxDataSize = Message.kMaxSize := rfl
  have stored : (Message.overlay record).data.length = record.length - Message.kMinSize := by
    simp [Message.overlay]
  have size := Message.size_toInt fits.within
  exact {
    magic := by simpa [Message.check] using fits.magic
    nonneg := nonneg
    small := by omega
    stored := by omega }

theorem RecordFits.keepsStream {record : List UInt8} {message : Message}
    (fits : RecordFits record) (accepted : checkRecord record = some message) :
    KeepsStream record message := by
  have formed := fits.wellFormed accepted
  obtain ⟨_, _, rfl⟩ := checkRecord_eq_some_iff.mp accepted
  have size := Message.size_toInt fits.within
  have nonneg := fits.nonneg
  have inside := fits.inside
  refine ⟨by omega, by omega, ?_⟩
  intro followers chunks followersFormed cut below
  refine MessageCodec.feeds_stream ?_ cut below
  intro sent member
  rcases List.mem_cons.mp member with rfl | follower
  · exact formed
  · exact followersFormed sent follower

theorem closes_of_wrongMagic {message : Message} (wrong : message.check = false)
    (below : message.serialize.length < 2 ^ 31) :
    ∃ after, MessageCodec.Feeds .fresh [message.serialize] after ∧ after.closed = true := by
  have seen : Message.overlay message.serialize =
      { message with data := message.contents } := Message.overlay_header _ _
  have refused : Message.grammar.read message.serialize = .malformed := by
    rw [Message.grammar_read, Message.read_malformed_iff, seen]
    exact ⟨by rw [Message.serialize, List.length_append, Message.length_header]; omega,
      .inl wrong⟩
  have inRange : MessageCodec.LengthsInRange ([] ++ message.serialize) := by
    intro head boundary whole checked
    cases boundary with
    | start =>
        rw [List.nil_append, seen] at checked
        exact absurd (checked.symm.trans wrong) (by decide)
    | next verdict _ => rw [List.nil_append, refused] at verdict; cases verdict
  obtain ⟨after, received, _, ended⟩ := MessageCodec.receives_of_parses []
    (by rwa [List.nil_append]) inRange (.malformed (by rwa [List.nil_append]))
  rcases ended with ⟨_, impossible, _⟩ | ⟨_, closed⟩
  · cases impossible
  · exact ⟨after, .cons received .nil, closed⟩

theorem KeepsStream.check {record : List UInt8} {message : Message}
    (kept : KeepsStream record message) (below : message.serialize.length < 2 ^ 31) :
    message.check = true := by
  cases checked : message.check with
  | true => rfl
  | false =>
      obtain ⟨after, fed, closed⟩ := closes_of_wrongMagic checked below
      obtain ⟨_, _, only⟩ := kept.2.2 [] [message.serialize] (by simp) (by simp)
        (MessageCodec.readsBelow_of_length_lt (by simpa using below))
      rw [(only after).mp fed] at closed
      cases closed

/-- A message read from a bus keeps the stream between two nodes exactly if it
fits the checks left out. -/
theorem keepsStream_iff {client rest : ClientInfo} {message : Message} {record : List UInt8}
    (pending : client.input.head? = some record)
    (read : client.readMessage = (rest, some message)) :
    KeepsStream record message ↔ RecordFits record := by
  have accepted : checkRecord record = some message := by
    obtain ⟨records, split⟩ := List.head?_eq_some_iff.mp pending
    simp only [readMessage, split] at read
    exact congrArg Prod.snd read
  refine ⟨fun kept => ?_, fun fits => fits.keepsStream accepted⟩
  obtain ⟨whole, small, rfl⟩ := checkRecord_eq_some_iff.mp accepted
  have lower := kept.1
  have inside := kept.2.1
  have bound : (Message.kMaxDataSize : Int) < 2 ^ 31 := by decide
  have within : ¬ (Message.overlay record).SizeOverflows := by
    intro overflows
    have wrapped := Message.size_toInt_of_overflows overflows
    have upper := (Message.overlay record).len.toInt_lt
    have minimum : (Message.kMinSize : Int) < 2 ^ 31 := by decide
    omega
  have size := Message.size_toInt within
  have nonneg : 0 ≤ (Message.overlay record).len.toInt := by omega
  have length := Message.toInt_len nonneg
  refine ⟨kept.check ?_, nonneg, within, by omega⟩
  rw [Message.serialize, List.length_append, Message.length_header, Message.contents,
    List.length_take]
  omega

theorem keepsStream_iff_greeting :
    KeepsStream MessageCodec.greeting.serialize MessageCodec.greeting ↔
      RecordFits MessageCodec.greeting.serialize := by
  have read : ClientInfo.readMessage ⟨[97], ⟨0, 1⟩, [MessageCodec.greeting.serialize], []⟩ =
      (⟨[97], ⟨0, 1⟩, [], []⟩, some MessageCodec.greeting) := by decide
  exact keepsStream_iff rfl read

/-- A record that is accepted although its magic number is zero. -/
def unmarked : List UInt8 := List.replicate Message.kMinSize 0

/-- `ReadMessage` hands it out, and the peer it is forwarded to closes the
connection that all clients of the two nodes share. -/
theorem not_keepsStream_unmarked :
    ClientInfo.readMessage ⟨[97], ⟨0, 1⟩, [unmarked], []⟩ =
        (⟨[97], ⟨0, 1⟩, [], []⟩, some (Message.overlay unmarked)) ∧
      ¬ KeepsStream unmarked (Message.overlay unmarked) := by
  refine ⟨by decide, fun kept => ?_⟩
  have checked := kept.check (by decide)
  exact absurd checked (by decide)

end ClientInfo

end Cpmd
