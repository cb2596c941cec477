import Cpmd.Library.LittleEndian

/-! The frame around all messages between a client, its daemon and the resolve
server: a type, the magic number and the length of the data. -/

set_option autoImplicit false

namespace Cpmd

open Library

inductive MessageType where
  | kClientHandShake
  | kResolveRequest
  | kResolveResponse
  | unknown (type : Int16)
deriving DecidableEq

namespace MessageType

def ofInt16 (value : Int16) : MessageType :=
  if value = 1 then .kClientHandShake
  else if value = 2 then .kResolveRequest
  else if value = 3 then .kResolveResponse
  else .unknown value

def toInt16 : MessageType → Int16
  | .kClientHandShake => 1
  | .kResolveRequest => 2
  | .kResolveResponse => 3
  | .unknown value => value

end MessageType

/-- `padding` is what the compiler puts between `type` and `magic`; `data` is the
memory from the field `data` on, and `len` says how much of it is meant. -/
structure ProtocolMessage where
  type : Int16
  padding : UInt16
  magic : UInt32
  len : UInt16
  data : List UInt8
deriving DecidableEq

namespace ProtocolMessage

def kMaxProtocolDataSize : Nat := 1 <<< 10

/-- `offsetof(ProtocolMessage, data)`. -/
def kMinProtocolMessageSize : Nat := 10

def kProtocolMessageMagic : UInt32 := 0x12345678

def size (message : ProtocolMessage) : Nat := kMinProtocolMessageSize + message.len.toNat

def contents (message : ProtocolMessage) : List UInt8 := message.data.take message.len.toNat

def header (message : ProtocolMessage) : List UInt8 :=
  LittleEndian.halfBytes message.type.toUInt16 ++
    (LittleEndian.halfBytes message.padding ++
      (LittleEndian.bytes message.magic ++ LittleEndian.halfBytes message.len))

def serialize (message : ProtocolMessage) : List UInt8 := message.header ++ message.contents

/-- `reinterpret_cast<const ProtocolMessage*>`. -/
def overlay (bytes : List UInt8) : ProtocolMessage where
  type := (LittleEndian.half bytes).toInt16
  padding := LittleEndian.half (bytes.drop 2)
  magic := LittleEndian.word (bytes.drop 4)
  len := LittleEndian.half (bytes.drop 8)
  data := bytes.drop kMinProtocolMessageSize

def trim (message : ProtocolMessage) : ProtocolMessage := { message with data := message.contents }

@[simp] theorem length_header (message : ProtocolMessage) :
    message.header.length = kMinProtocolMessageSize := rfl

theorem overlay_header (message : ProtocolMessage) (rest : List UInt8) :
    overlay (message.header ++ rest) = { message with data := rest } := by
  simp [overlay, header, kMinProtocolMessageSize, List.append_assoc, List.drop_append]

theorem length_serialize {message : ProtocolMessage}
    (stored : message.contents.length = message.len.toNat) :
    message.serialize.length = message.size := by
  rw [serialize, List.length_append, length_header, stored, size]

theorem read_contents (message : ProtocolMessage)
    (stored : message.contents.length = message.len.toNat) {offset width : Nat}
    (inside : offset + width ≤ message.len.toNat) (rest : List UInt8) :
    ((message.contents ++ rest).drop offset).take width =
      (message.data.drop offset).take width := by
  rw [List.drop_append_of_le_length (by omega), List.take_append_of_le_length, contents,
    List.drop_take, List.take_take, Nat.min_eq_left (by omega)]
  rw [List.length_drop]
  omega

theorem overlay_append {bytes : List UInt8} (whole : kMinProtocolMessageSize ≤ bytes.length)
    (rest : List UInt8) :
    overlay (bytes ++ rest) =
      { overlay bytes with data := bytes.drop kMinProtocolMessageSize ++ rest } := by
  simp only [kMinProtocolMessageSize] at whole
  have halfAt (offset : Nat) (inside : offset + 2 ≤ 10) :
      LittleEndian.half ((bytes ++ rest).drop offset) = LittleEndian.half (bytes.drop offset) := by
    rw [List.drop_append_of_le_length (by omega)]
    exact LittleEndian.half_append (by rw [List.length_drop]; omega) rest
  have wordAt (offset : Nat) (inside : offset + 4 ≤ 10) :
      LittleEndian.word ((bytes ++ rest).drop offset) = LittleEndian.word (bytes.drop offset) := by
    rw [List.drop_append_of_le_length (by omega)]
    exact LittleEndian.word_append (by rw [List.length_drop]; omega) rest
  have start := halfAt 0 (by omega)
  simp only [List.drop_zero] at start
  simp only [overlay, start, halfAt 2 (by omega), wordAt 4 (by omega), halfAt 8 (by omega),
    kMinProtocolMessageSize]
  rw [List.drop_append_of_le_length whole]

end ProtocolMessage

end Cpmd
