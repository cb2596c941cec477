import Cpmd.Address

/-! Client messages and their memory layout: two addresses, the magic number,
a signed length and the data. A pointer to bytes is read as a message by
overlaying the layout on them. -/

set_option autoImplicit false

namespace Cpmd

open Library

/-- `data` is the memory from `data_` on; `len` says how much of it is meant. -/
structure Message where
  sourceAddress : Address
  remoteAddress : Address
  magic : UInt32
  len : Int32
  data : List UInt8
deriving DecidableEq, Repr

namespace Message

def kMaxDataSize : Nat := 2 ^ 16 - 100

/-- `offsetof(Message, data_)`. -/
def kMinSize : Nat := 24

def kMaxSize : Nat := kMinSize + kMaxDataSize

def kMagic : UInt32 := 0x87654321

/-- `Message::Default()`; what `data_` holds is not looked at while `len` is 0. -/
def default : Message := ⟨⟨0, 0⟩, ⟨0, 0⟩, kMagic, 0, []⟩

/-- The sum is taken in `int`. -/
def size (message : Message) : Int32 := Int32.ofNat kMinSize + message.len

/-- The sum in `size` leaves the range of `int`. -/
def SizeOverflows (message : Message) : Prop := 2 ^ 31 ≤ (kMinSize : Int) + message.len.toInt

def check (message : Message) : Bool := message.magic == kMagic

def contents (message : Message) : List UInt8 := message.data.take message.len.toNatClampNeg

def setData (message : Message) (data : List UInt8) : Option Message :=
  if data.length > kMaxDataSize then none
  else some { message with len := Int32.ofNat data.length, data := data }

def setSourceAddress (message : Message) (source : Address) : Message :=
  { message with sourceAddress := source }

def setRemoteAddress (message : Message) (remote : Address) : Message :=
  { message with remoteAddress := remote }

def header (message : Message) : List UInt8 :=
  LittleEndian.bytes message.sourceAddress.nodeAddr ++
    (LittleEndian.bytes message.sourceAddress.clientAddr ++
      (LittleEndian.bytes message.remoteAddress.nodeAddr ++
        (LittleEndian.bytes message.remoteAddress.clientAddr ++
          (LittleEndian.bytes message.magic ++ LittleEndian.bytes message.len.toUInt32))))

/-- The `Size()` bytes from the start of the message. -/
def serialize (message : Message) : List UInt8 := message.header ++ message.contents

/-- `reinterpret_cast<const Message*>`: the layout laid over the given bytes. -/
def overlay (bytes : List UInt8) : Message where
  sourceAddress := ⟨LittleEndian.word bytes, LittleEndian.word (bytes.drop 4)⟩
  remoteAddress := ⟨LittleEndian.word (bytes.drop 8), LittleEndian.word (bytes.drop 12)⟩
  magic := LittleEndian.word (bytes.drop 16)
  len := (LittleEndian.word (bytes.drop 20)).toInt32
  data := bytes.drop kMinSize

def trim (message : Message) : Message := { message with data := message.contents }

/-- What every receiver expects of a message. The last field is the size of the
array `data_`, of which a message uses at most the whole. -/
structure WellFormed (message : Message) : Prop where
  magic : message.magic = kMagic
  nonneg : 0 ≤ message.len.toInt
  small : (kMinSize : Int) + message.len.toInt < kMaxSize
  stored : message.len.toInt ≤ message.data.length

@[simp] theorem length_header (message : Message) : message.header.length = kMinSize := rfl

theorem size_toInt {message : Message} (within : ¬ message.SizeOverflows) :
    message.size.toInt = (kMinSize : Int) + message.len.toInt := by
  have lower := message.len.le_toInt
  unfold SizeOverflows at within
  have minimum : (Int32.ofNat kMinSize).toInt = (kMinSize : Int) :=
    Int32.toInt_ofNat_of_lt (by decide)
  have positive : (0 : Int) ≤ (kMinSize : Int) := Int.natCast_nonneg _
  rw [size, Int32.toInt_add, minimum]
  apply Int.bmod_eq_of_le <;> omega

theorem size_toInt_of_overflows {message : Message} (overflows : message.SizeOverflows) :
    message.size.toInt = (kMinSize : Int) + message.len.toInt - 2 ^ 32 := by
  have upper := message.len.toInt_lt
  unfold SizeOverflows at overflows
  have minimum : (Int32.ofNat kMinSize).toInt = (kMinSize : Int) :=
    Int32.toInt_ofNat_of_lt (by decide)
  have small : (kMinSize : Int) < 2 ^ 31 := by decide
  rw [size, Int32.toInt_add, minimum, ← Int.sub_bmod_right]
  apply Int.bmod_eq_of_le <;> omega

theorem WellFormed.not_overflows {message : Message} (formed : message.WellFormed) :
    ¬ message.SizeOverflows := by
  have limit : (kMaxSize : Int) < 2 ^ 31 := by decide
  have small := formed.small
  unfold SizeOverflows
  omega

theorem toInt_len {message : Message} (nonneg : 0 ≤ message.len.toInt) :
    message.len.toInt = (message.len.toNatClampNeg : Int) := by
  rw [Int32.toNatClampNeg]
  omega

theorem overlay_header (message : Message) (rest : List UInt8) :
    overlay (message.header ++ rest) = { message with data := rest } := by
  simp [overlay, header, kMinSize, List.append_assoc, List.drop_append]

theorem length_contents {message : Message} (formed : message.WellFormed) :
    message.contents.length = message.len.toNatClampNeg := by
  have stored := formed.stored
  have length := toInt_len formed.nonneg
  rw [contents, List.length_take]
  omega

theorem length_serialize {message : Message} (formed : message.WellFormed) :
    message.serialize.length = kMinSize + message.len.toNatClampNeg := by
  rw [serialize, List.length_append, length_header, length_contents formed]

theorem overlay_append {bytes : List UInt8} (whole : kMinSize ≤ bytes.length) (rest : List UInt8) :
    overlay (bytes ++ rest) = { overlay bytes with data := bytes.drop kMinSize ++ rest } := by
  simp only [kMinSize] at whole
  have field (offset : Nat) (inside : offset + 4 ≤ 24) :
      LittleEndian.word ((bytes ++ rest).drop offset) = LittleEndian.word (bytes.drop offset) := by
    rw [List.drop_append_of_le_length (by omega)]
    exact LittleEndian.word_append (by rw [List.length_drop]; omega) rest
  have start := field 0 (by omega)
  simp only [List.drop_zero] at start
  simp only [overlay, start, field 4 (by omega), field 8 (by omega), field 12 (by omega),
    field 16 (by omega), field 20 (by omega), kMinSize]
  rw [List.drop_append_of_le_length whole]

end Message

end Cpmd
