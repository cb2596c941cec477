import Cpmd.ClientInfo

/-! The library's side of a local client's two buses, and the four places that
limit the size of a message: `SetData`, the daemon's reader of a client's bus, its
reader of other nodes' connections, and the client's own reader. -/

set_option autoImplicit false

namespace Cpmd

open Library

inductive Status where
  | kOk
  | kAlreadyInitialized
  | kSocketError
  | kSocketTimeout
  | kInvalidBufferSize
  | kInvalidReply
  | kCreateBusFailed
  | kBusFull
  | kBusEmpty
  | kTruncatedMessage
  | kInvalidMessage
deriving DecidableEq

/-- The client writes to the bus that the daemon has as its input, and reads from
the other. -/
structure ClientImpl where
  input : List (List UInt8)
  output : List (List UInt8)
deriving DecidableEq

namespace ClientImpl

def sendMessage (client : ClientImpl) (m : Message) (behind : List UInt8) (written : Bool) :
    ClientImpl × Status :=
  if written then ({ client with output := client.output ++ [m.image behind] }, .kOk)
  else (client, .kBusFull)

def receiveMessage (client : ClientImpl) : ClientImpl × Status × Option Message :=
  match client.input with
  | [] => (client, .kBusEmpty, none)
  | record :: rest =>
      let client := { client with input := rest }
      if record.length < Message.kMinSize then (client, .kTruncatedMessage, none)
      else if record.length ≥ Message.kMaxSize then (client, .kInvalidMessage, none)
      else (client, .kOk, some (Message.overlay record))

end ClientImpl

/-- `SetData` on a `Message::Default()` between any two addresses. -/
def Message.Carries (m : Message) (data : List UInt8) : Prop :=
  ∃ source remote,
    ((Message.default.setSourceAddress source).setRemoteAddress remote).setData data = some m

/-- The other size checks: what the client sends is read from the bus, what a
node forwards is handed over by its peer, and what the daemon writes is received,
with the data as it was. -/
structure Message.PassesChecks (m : Message) (data : List UInt8) : Prop where
  read : ∀ (sender : ClientImpl) (client : ClientInfo) behind record rest,
    sender.sendMessage m behind true = ({ sender with output := sender.output ++ [record] }, .kOk) →
    client.input = record :: rest →
    client.readMessage = ({ client with input := rest }, some m)
  onRead : ∃ last, MessageCodec.OnRead m.serialize (.left last) ∧ last.handed = [(0, m)]
  received : ∀ (client : ClientInfo) (receiver : ClientImpl) behind record rest,
    client.writeMessage m behind true =
      ({ client with output := client.output ++ [record] }, true) →
    receiver.input = record :: rest →
    ∃ seen, receiver.receiveMessage = ({ receiver with input := rest }, .kOk, some seen) ∧
      seen.contents = data

namespace Message

/-- What `SetData` leaves: a length that an `int` can hold, and just the data. -/
theorem Carries.fields {m : Message} {data : List UInt8} (carries : m.Carries data) :
    data.length ≤ kMaxDataSize ∧ m.check = true ∧ m.len = Int32.ofNat data.length ∧
      m.data = data := by
  obtain ⟨source, remote, set⟩ := carries
  unfold setData at set
  split at set
  · cases set
  · rename_i fits
    cases set
    exact ⟨Nat.le_of_not_lt fits, rfl, rfl, rfl⟩

variable {m : Message} {data : List UInt8}

theorem Carries.toInt_len (carries : m.Carries data) : m.len.toInt = (data.length : Int) := by
  obtain ⟨fits, _, length, _⟩ := carries.fields
  have limit : kMaxDataSize < 2 ^ 31 := by decide
  rw [length, Int32.toInt_ofNat_of_lt (by omega)]

theorem Carries.toInt_size (carries : m.Carries data) :
    m.size.toInt = (kMinSize + data.length : Nat) := by
  have length := carries.toInt_len
  have limit : (kMinSize + kMaxDataSize : Nat) < 2 ^ 31 := by decide
  have fits := carries.fields.1
  rw [size_toInt (by unfold SizeOverflows; omega), length, Int.natCast_add]

theorem Carries.contents_eq (carries : m.Carries data) : m.contents = data := by
  obtain ⟨_, _, _, stored⟩ := carries.fields
  rw [contents, stored, Int32.toNatClampNeg, carries.toInt_len, Int.toNat_natCast, List.take_length]

theorem Carries.overlay_serialize (carries : m.Carries data) : overlay m.serialize = m := by
  obtain ⟨_, _, _, stored⟩ := carries.fields
  rw [serialize, overlay_header, carries.contents_eq, ← stored]

theorem Carries.length_serialize (carries : m.Carries data) :
    m.serialize.length = kMinSize + data.length := by
  rw [serialize, List.length_append, length_header, carries.contents_eq]

/-- Such a message holds all of its bytes, so nothing behind it is written. -/
theorem Carries.image_eq (carries : m.Carries data) (behind : List UInt8) :
    m.image behind = m.serialize := by
  have size := carries.toInt_size
  obtain ⟨_, _, _, stored⟩ := carries.fields
  have nonneg : ¬ m.size < 0 := by
    rw [Int32.lt_iff_toInt_lt, size]
    exact Int.not_lt.mpr (Int.natCast_nonneg _)
  rw [image, if_neg nonneg, Int32.toNatClampNeg, size, Int.toNat_natCast, serialize,
    carries.contents_eq, stored]
  exact List.takeD_left' (by rw [List.length_append, length_header])

theorem Carries.checkRecord_iff (carries : m.Carries data) :
    ClientInfo.checkRecord m.serialize = some m ↔ data.length < kMaxDataSize - kMinSize := by
  rw [ClientInfo.checkRecord_eq_some_iff, carries.length_serialize, carries.overlay_serialize,
    carries.toInt_size]
  simp only [kMaxDataSize, kMinSize, and_true]
  omega

theorem Carries.round_entry (carries : m.Carries data) :
    MessageCodec.round m.serialize (MessageCodec.entry m.serialize) =
      if data.length < kMaxDataSize then .inl ⟨m.size.toInt, 0, [(0, m)]⟩
      else .inr (.closed (MessageCodec.entry m.serialize)) := by
  obtain ⟨fits, checked, _, _⟩ := carries.fields
  have length := carries.length_serialize
  have size := carries.toInt_size
  have limit : kMaxSize = kMinSize + kMaxDataSize := rfl
  have bounded : kMaxSize < 2 ^ 31 := by decide
  have minimum : (Int32.ofNat kMinSize).toInt = (kMinSize : Int) :=
    Int32.toInt_ofNat_of_lt (by decide)
  have maximum : (Int32.ofNat kMaxSize).toInt = (kMaxSize : Int) :=
    Int32.toInt_ofNat_of_lt bounded
  have counted : (MessageCodec.entry m.serialize).nbytes = m.size := by
    apply Int32.toInt_inj.mp
    rw [MessageCodec.entry, Int32.toInt_ofNat_of_lt (by omega), length, size]
  have header : MessageCodec.headerAt? m.serialize (MessageCodec.entry m.serialize).ptr =
      some m := by
    have atHead := MessageCodec.atHead_entry (show m.serialize.length < 2 ^ 31 by omega)
    rw [atHead.headerAt (by omega), carries.overlay_serialize]
  have enters : m.size ≥ Int32.ofNat kMinSize := by
    rw [ge_iff_le, Int32.le_iff_toInt_le]
    omega
  have whole : ¬ m.size > m.size := Int32.lt_irrefl
  rw [MessageCodec.round, counted, if_pos enters, header]
  simp only [checked, Bool.not_true, Bool.false_eq_true, if_false, if_neg whole]
  split
  · rename_i large
    rw [ge_iff_le, Int32.le_iff_toInt_le] at large
    rw [if_neg (by omega)]
  · rename_i small
    rw [ge_iff_le, Int32.le_iff_toInt_le] at small
    rw [if_pos (by omega), MessageCodec.Cursor.advance, counted, Int32.sub_self]
    simp [MessageCodec.entry]

theorem Carries.onRead_iff (carries : m.Carries data) :
    (∃ last, MessageCodec.OnRead m.serialize (.left last) ∧ last.handed = [(0, m)]) ↔
      data.length < kMaxDataSize := by
  have first := carries.round_entry
  constructor
  · intro accepted
    obtain ⟨last, read, _⟩ := accepted
    by_contra large
    rw [if_neg large] at first
    cases (Loop.ends_of_done first).unique read
  · intro small
    rw [if_pos small] at first
    exact ⟨_, (Loop.ends_iff_of_continues first).mpr (Loop.ends_of_done rfl), rfl⟩

theorem Carries.receiveMessage_iff (carries : m.Carries data) (receiver : ClientImpl)
    {rest : List (List UInt8)} (pending : receiver.input = m.serialize :: rest) :
    receiver.receiveMessage = ({ receiver with input := rest }, .kOk, some m) ↔
      data.length < kMaxDataSize := by
  have length := carries.length_serialize
  have limit : kMaxSize = kMinSize + kMaxDataSize := rfl
  simp only [ClientImpl.receiveMessage, pending, length, carries.overlay_serialize]
  rw [if_neg (by omega)]
  split
  · simp; omega
  · simp; omega

/-- Exactly the messages that are a whole header below the limit of `SetData` pass
all the other checks. -/
theorem passesChecks_iff (carries : m.Carries data) :
    m.PassesChecks data ↔ data.length < kMaxDataSize - kMinSize := by
  constructor
  · intro passes
    have read := passes.read ⟨[], []⟩ ⟨[], ⟨0, 0⟩, [m.image []], []⟩ [] (m.image []) [] rfl rfl
    have accepted : ClientInfo.checkRecord (m.image []) = some m := congrArg Prod.snd read
    rw [carries.image_eq] at accepted
    exact carries.checkRecord_iff.mp accepted
  · intro small
    have below : data.length < kMaxDataSize := Nat.lt_of_lt_of_le small (Nat.sub_le _ _)
    refine ⟨?_, carries.onRead_iff.mpr below, ?_⟩
    · intro sender client behind record rest sent pending
      have same : record = m.serialize := by
        rw [← carries.image_eq behind]
        simpa [ClientImpl.sendMessage, eq_comm] using sent
      rw [ClientInfo.readMessage, pending, same]
      simp only [carries.checkRecord_iff.mpr small]
    · intro client receiver behind record rest wrote pending
      have same : record = m.serialize := by
        rw [← carries.image_eq behind]
        simpa [ClientInfo.writeMessage, eq_comm] using wrote
      rw [same] at pending
      exact ⟨m, (carries.receiveMessage_iff receiver pending).mpr below, carries.contents_eq⟩

theorem passesChecks_iff_greeting :
    MessageCodec.greeting.PassesChecks MessageCodec.greeting.data ↔
      MessageCodec.greeting.data.length < kMaxDataSize - kMinSize := by
  have carries : Carries MessageCodec.greeting MessageCodec.greeting.data := ⟨_, _, rfl⟩
  exact passesChecks_iff carries

/-- Data of `kMaxDataSize - kMinSize` bytes is set, and the record is dropped by
the daemon that reads it. -/
theorem not_passesChecks_large :
    ∃ m, default.setData (List.replicate (kMaxDataSize - kMinSize) 0) = some m ∧
      (∀ behind, ClientInfo.checkRecord (m.image behind) = none) ∧
      ¬ m.PassesChecks (List.replicate (kMaxDataSize - kMinSize) 0) := by
  have length : (List.replicate (kMaxDataSize - kMinSize) (0 : UInt8)).length =
      kMaxDataSize - kMinSize := List.length_replicate
  generalize List.replicate (kMaxDataSize - kMinSize) (0 : UInt8) = data at length
  have fits : ¬ data.length > kMaxDataSize := by
    rw [length]
    decide
  have set : default.setData data =
      some { default with len := Int32.ofNat data.length, data := data } := if_neg fits
  have carries : Carries { default with len := Int32.ofNat data.length, data := data } data :=
    ⟨⟨0, 0⟩, ⟨0, 0⟩, set⟩
  have large : ¬ data.length < kMaxDataSize - kMinSize := by
    rw [length]
    exact Nat.lt_irrefl _
  refine ⟨_, set, fun behind => ?_, (passesChecks_iff carries).not.mpr large⟩
  rw [carries.image_eq behind]
  cases checked : ClientInfo.checkRecord
      (Message.serialize { default with len := Int32.ofNat data.length, data := data }) with
  | none => rfl
  | some seen =>
      obtain ⟨_, _, same⟩ := ClientInfo.checkRecord_eq_some_iff.mp checked
      rw [carries.overlay_serialize] at same
      rw [same] at checked
      exact absurd (carries.checkRecord_iff.mp checked) large

end Message

end Cpmd
