import Cpmd.Protocol
import Cpmd.ProtocolMessage
import Cpmd.Library.Memory

/-! Requests and responses in the data of a protocol message: the builders that
write them field by field, and what a receiver reads there. -/

set_option autoImplicit false

namespace Cpmd

open Library

namespace ResolveServerError

def ofInt16 (value : Int16) : ResolveServerError :=
  if value = 0 then .kOk
  else if value = -200 then .kInvalidNode
  else if value = -201 then .kNodeNotFound
  else .unknown value

def toInt16 : ResolveServerError → Int16
  | .kOk => 0
  | .kInvalidNode => -200
  | .kNodeNotFound => -201
  | .unknown value => value

theorem toInt16_ofInt16 (value : Int16) : (ofInt16 value).toInt16 = value := by
  unfold ofInt16
  split
  · exact Eq.symm ‹_›
  · split
    · exact Eq.symm ‹_›
    · split
      · exact Eq.symm ‹_›
      · rfl

end ResolveServerError

namespace ResolveRequestType

def ofInt16 (value : Int16) : ResolveRequestType :=
  if value = 1 then .kInitializeSelf
  else if value = 2 then .kLookupNode
  else .unknown value

def toInt16 : ResolveRequestType → Int16
  | .kInitializeSelf => 1
  | .kLookupNode => 2
  | .unknown value => value

theorem toInt16_ofInt16 (value : Int16) : (ofInt16 value).toInt16 = value := by
  unfold ofInt16
  split
  · exact Eq.symm ‹_›
  · split
    · exact Eq.symm ‹_›
    · rfl

end ResolveRequestType

namespace ResolveResponseType

def ofInt16 (value : Int16) : ResolveResponseType :=
  if value = 1 then .kUpdateSelf
  else if value = 2 then .kUpdateCache
  else .unknown value

def toInt16 : ResolveResponseType → Int16
  | .kUpdateSelf => 1
  | .kUpdateCache => 2
  | .unknown value => value

theorem toInt16_ofInt16 (value : Int16) : (ofInt16 value).toInt16 = value := by
  unfold ofInt16
  split
  · exact Eq.symm ‹_›
  · split
    · exact Eq.symm ‹_›
    · rfl

end ResolveResponseType

def kMaxIpSize : Nat := 16

def kMaxNodePathSize : Nat := 1 <<< 7

namespace ProtocolMessage

/-- The builders' constructor, which clears the whole message first. -/
def build (type : MessageType) : ProtocolMessage :=
  ⟨type.toInt16, 0, kProtocolMessageMagic, 0, List.replicate kMaxProtocolDataSize 0⟩

def store (message : ProtocolMessage) (offset : Nat) (cells : List UInt8) : ProtocolMessage :=
  { message with data := Memory.write message.data offset cells }

def ensureLength (message : ProtocolMessage) (size : Nat) : ProtocolMessage :=
  if message.len.toNat < size then { message with len := UInt16.ofNat size } else message

/-- `DefineFieldSetter`. -/
def setField (message : ProtocolMessage) (offset : Nat) (cells : List UInt8) : ProtocolMessage :=
  (message.store offset cells).ensureLength (offset + cells.length)

@[simp] theorem data_ensureLength (message : ProtocolMessage) (size : Nat) :
    (message.ensureLength size).data = message.data := by
  unfold ensureLength
  split <;> rfl

theorem frame_ensureLength (message : ProtocolMessage) (size : Nat) :
    (message.ensureLength size).type = message.type ∧
      (message.ensureLength size).padding = message.padding ∧
      (message.ensureLength size).magic = message.magic := by
  unfold ensureLength
  split <;> exact ⟨rfl, rfl, rfl⟩

theorem len_ensureLength (message : ProtocolMessage) {size : Nat}
    (small : size < 2 ^ 16) :
    (message.ensureLength size).len.toNat = max message.len.toNat size := by
  unfold ensureLength
  split
  · rename_i short
    rw [Nat.max_eq_right (Nat.le_of_lt short)]
    exact UInt16.toNat_ofNat_of_lt' small
  · rename_i long
    exact (Nat.max_eq_left (Nat.le_of_not_lt long)).symm

theorem data_setField (message : ProtocolMessage) (offset : Nat) (cells : List UInt8) :
    (message.setField offset cells).data = Memory.write message.data offset cells := by
  rw [setField, data_ensureLength]
  rfl

/-- `DefineStringFieldSetter`: the length comes to cover the whole field. -/
def setStringField (message : ProtocolMessage) (offset width : Nat) (value : List UInt8) :
    ProtocolMessage :=
  (message.store offset (Memory.stringCells 0 value)).ensureLength (offset + width)

/-- `DefineLastFieldSetter`: the length covers the string without a terminator. -/
def setLastField (message : ProtocolMessage) (offset : Nat) (value : List UInt8) :
    ProtocolMessage :=
  { message.store offset (Memory.stringCells 0 value) with
    len := UInt16.ofNat (offset + value.length) }

end ProtocolMessage

namespace ResolveRequest.Builder

def create : ProtocolMessage := .build .kResolveRequest

def setType (message : ProtocolMessage) (type : ResolveRequestType) : ProtocolMessage :=
  message.setField 0 (LittleEndian.halfBytes type.toInt16.toUInt16)

def setSelfAddress (message : ProtocolMessage) (addr : UInt32) : ProtocolMessage :=
  message.setField 4 (LittleEndian.bytes addr)

def setPort (message : ProtocolMessage) (port : Int32) : ProtocolMessage :=
  message.setField 8 (LittleEndian.bytes port.toUInt32)

def setPeerAddress (message : ProtocolMessage) (peerAddr : UInt32) : ProtocolMessage :=
  message.setField 12 (LittleEndian.bytes peerAddr)

end ResolveRequest.Builder

namespace ResolveResponse.Builder

def create : ProtocolMessage := .build .kResolveResponse

def setCode (message : ProtocolMessage) (code : ResolveServerError) : ProtocolMessage :=
  message.setField 0 (LittleEndian.halfBytes code.toInt16.toUInt16)

def setType (message : ProtocolMessage) (type : ResolveResponseType) : ProtocolMessage :=
  message.setField 2 (LittleEndian.halfBytes type.toInt16.toUInt16)

def setNodeAddress (message : ProtocolMessage) (addr : UInt32) : ProtocolMessage :=
  message.setField 4 (LittleEndian.bytes addr)

def setNodePort (message : ProtocolMessage) (port : Int32) : ProtocolMessage :=
  message.setField 8 (LittleEndian.bytes port.toUInt32)

/-- The assertion of `DefineStringFieldSetter`. -/
def AssertsNodeIp (ip : List UInt8) : Prop := ip.length < kMaxIpSize

def setNodeIp (message : ProtocolMessage) (ip : List UInt8) : ProtocolMessage :=
  message.setStringField 12 kMaxIpSize ip

/-- The assertion of `DefineLastFieldSetter`. -/
def AssertsNodePath (path : List UInt8) : Prop := path.length < kMaxNodePathSize

def setNodePath (message : ProtocolMessage) (path : List UInt8) : ProtocolMessage :=
  message.setLastField 28 path

instance (ip : List UInt8) : Decidable (AssertsNodeIp ip) := inferInstanceAs (Decidable (_ < _))

instance (path : List UInt8) : Decidable (AssertsNodePath path) :=
  inferInstanceAs (Decidable (_ < _))

end ResolveResponse.Builder

/-- `as<const ResolveRequest*>()`. -/
def ResolveRequest.ofData (data : List UInt8) : ResolveRequest where
  type := .ofInt16 (LittleEndian.half data).toInt16
  selfAddr := LittleEndian.word (data.drop 4)
  cpmdPort := (LittleEndian.word (data.drop 8)).toInt32
  peerAddr := LittleEndian.word (data.drop 12)

/-- `as<const ResolveResponse*>()`. A string goes on up to the next NUL, be it
outside its field. -/
def ResolveResponse.ofData (data : List UInt8) : ResolveResponse where
  code := .ofInt16 (LittleEndian.half data).toInt16
  type := .ofInt16 (LittleEndian.half (data.drop 2)).toInt16
  nodeAddr := LittleEndian.word (data.drop 4)
  nodePort := (LittleEndian.word (data.drop 8)).toInt32
  nodeIp := Memory.string 0 (data.drop 12)
  nodePath := Memory.string 0 (data.drop 28)

/-- The message as `HandleResolveServerMessage` looks at it. -/
def ResolveServerMessage.ofProtocolMessage (m : ProtocolMessage) : ResolveServerMessage :=
  match MessageType.ofInt16 m.type with
  | .kResolveResponse => .kResolveResponse (.ofData m.data)
  | .kClientHandShake | .kResolveRequest | .unknown _ => .other m.type

end Cpmd
