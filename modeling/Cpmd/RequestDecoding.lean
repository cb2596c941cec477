import Cpmd.ProtocolBuilder

/-! The requests of a daemon as messages: what it builds field by field, and what the
resolve server reads of it. -/

set_option autoImplicit false

namespace Cpmd

open Library

namespace ResolveRequest

/-- What `OnConnectedToResolveServer` builds. -/
def initRequest (messageServerPort : Int32) : ProtocolMessage :=
  open Builder in
  let builder := setType create .kInitializeSelf
  setPort builder messageServerPort

/-- What `RequestNodeNetAddress` builds. -/
def lookupRequest (selfAddress nodeAddress : UInt32) : ProtocolMessage :=
  open Builder in
  let builder := setSelfAddress create selfAddress
  let builder := setType builder .kLookupNode
  setPeerAddress builder nodeAddress

/-- The message that a daemon writes for a request. -/
def built (req : ResolveRequest) : Option ProtocolMessage :=
  match req.type with
  | .kInitializeSelf => some (initRequest req.cpmdPort)
  | .kLookupNode => some (lookupRequest req.selfAddr req.peerAddr)
  | .unknown _ => none

/-- The data of a message that holds these fields of a request and is zero elsewhere. -/
def layout (req : ResolveRequest) : List UInt8 :=
  LittleEndian.halfBytes req.type.toInt16.toUInt16 ++
    ([0, 0] ++
      (LittleEndian.bytes req.selfAddr ++
        (LittleEndian.bytes req.cpmdPort.toUInt32 ++
          (LittleEndian.bytes req.peerAddr ++ List.replicate 1008 0))))

theorem length_layout (req : ResolveRequest) :
    req.layout.length = ProtocolMessage.kMaxProtocolDataSize := by
  simp only [layout, List.length_append, LittleEndian.length_halfBytes,
    LittleEndian.length_bytes, List.length_replicate, List.length_cons, List.length_nil]
  rfl

namespace Builder

variable {message : ProtocolMessage} {req : ResolveRequest}

theorem data_create : create.data = layout ⟨.unknown 0, 0, 0, 0⟩ := by
  decide +kernel

theorem data_setType (stored : message.data = req.layout) (type : ResolveRequestType) :
    (setType message type).data = layout { req with type := type } := by
  rw [setType, ProtocolMessage.data_setField, stored, layout]
  exact Memory.write_append [] (LittleEndian.halfBytes type.toInt16.toUInt16) _ rfl

theorem data_setSelfAddress (stored : message.data = req.layout) (addr : UInt32) :
    (setSelfAddress message addr).data = layout { req with selfAddr := addr } := by
  have moved (after : List UInt8) := Memory.write_append
    (LittleEndian.halfBytes req.type.toInt16.toUInt16 ++ [0, 0])
    (LittleEndian.bytes addr) after (LittleEndian.length_bytes req.selfAddr)
  simp only [List.append_assoc] at moved
  rw [setSelfAddress, ProtocolMessage.data_setField, stored, layout]
  exact moved _

theorem data_setPort (stored : message.data = req.layout) (port : Int32) :
    (setPort message port).data = layout { req with cpmdPort := port } := by
  have moved (after : List UInt8) := Memory.write_append
    (LittleEndian.halfBytes req.type.toInt16.toUInt16 ++
      ([0, 0] ++ LittleEndian.bytes req.selfAddr))
    (LittleEndian.bytes port.toUInt32) after (LittleEndian.length_bytes req.cpmdPort.toUInt32)
  simp only [List.append_assoc] at moved
  rw [setPort, ProtocolMessage.data_setField, stored, layout]
  exact moved _

theorem data_setPeerAddress (stored : message.data = req.layout) (addr : UInt32) :
    (setPeerAddress message addr).data = layout { req with peerAddr := addr } := by
  have moved (after : List UInt8) := Memory.write_append
    (LittleEndian.halfBytes req.type.toInt16.toUInt16 ++
      ([0, 0] ++ (LittleEndian.bytes req.selfAddr ++
        LittleEndian.bytes req.cpmdPort.toUInt32)))
    (LittleEndian.bytes addr) after (LittleEndian.length_bytes req.peerAddr)
  simp only [List.append_assoc] at moved
  rw [setPeerAddress, ProtocolMessage.data_setField, stored, layout]
  exact moved _

end Builder

open Builder

theorem data_initRequest (port : Int32) :
    (initRequest port).data = layout ⟨.kInitializeSelf, 0, port, 0⟩ :=
  data_setPort (data_setType data_create _) _

theorem data_lookupRequest (selfAddress nodeAddress : UInt32) :
    (lookupRequest selfAddress nodeAddress).data =
      layout ⟨.kLookupNode, selfAddress, 0, nodeAddress⟩ :=
  data_setPeerAddress (data_setType (data_setSelfAddress data_create _) _) _

/-- The last field of a `kInitializeSelf` request is read outside it. -/
theorem ofData_initRequest (port : Int32) (behind : List UInt8) :
    ofData ((initRequest port).contents ++ behind) =
      ⟨.kInitializeSelf, 0, port, LittleEndian.word behind⟩ := by
  have sent : (initRequest port).contents =
      LittleEndian.halfBytes ResolveRequestType.kInitializeSelf.toInt16.toUInt16 ++
        ([0, 0] ++ (LittleEndian.bytes 0 ++ LittleEndian.bytes port.toUInt32)) := by
    rw [ProtocolMessage.contents, data_initRequest]
    rfl
  have kind : ResolveRequestType.ofInt16 ResolveRequestType.kInitializeSelf.toInt16 =
      .kInitializeSelf := rfl
  rw [sent]
  simp [ofData, List.append_assoc, List.drop_append, kind]

theorem ofData_lookupRequest (selfAddress nodeAddress : UInt32) (behind : List UInt8) :
    ofData ((lookupRequest selfAddress nodeAddress).contents ++ behind) =
      ⟨.kLookupNode, selfAddress, 0, nodeAddress⟩ := by
  have sent : (lookupRequest selfAddress nodeAddress).contents =
      LittleEndian.halfBytes ResolveRequestType.kLookupNode.toInt16.toUInt16 ++
        ([0, 0] ++ (LittleEndian.bytes selfAddress ++
          (LittleEndian.bytes (0 : Int32).toUInt32 ++ LittleEndian.bytes nodeAddress))) := by
    rw [ProtocolMessage.contents, data_lookupRequest]
    rfl
  have kind : ResolveRequestType.ofInt16 ResolveRequestType.kLookupNode.toInt16 =
      .kLookupNode := rfl
  rw [sent]
  simp [ofData, List.append_assoc, List.drop_append, kind]

end ResolveRequest

end Cpmd
