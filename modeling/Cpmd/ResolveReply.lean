import Cpmd.ProtocolBuilder
import Cpmd.ResolveServerProperties

/-! The replies of the resolve server as messages: what its handlers build field
by field, and what the memory of such a message holds. -/

set_option autoImplicit false

namespace Cpmd

open Library

namespace ResolveServer

/-- What `HandleNodeInit` builds. -/
def initReply (conf : ResolveServerConf) (peerIp : List UInt8) (req : ResolveRequest) :
    ProtocolMessage :=
  open ResolveResponse.Builder in
  match conf.getNodeInfoByNetAddress ⟨peerIp, req.cpmdPort⟩ with
  | none => setCode create .kNodeNotFound
  | some node =>
      let reply := setCode create .kOk
      let reply := setType reply .kUpdateSelf
      let reply := setNodeAddress reply node.nodeAddr
      let reply := setNodePort reply req.cpmdPort
      let reply := setNodeIp reply peerIp
      setNodePath reply node.readableAddr

/-- What `HandleNodeLookup` builds for a lookup it accepts. -/
def lookupReply (conf : ResolveServerConf) (req : ResolveRequest) : ProtocolMessage :=
  open ResolveResponse.Builder in
  let reply := setType create .kUpdateCache
  match conf.getNodeInfoByNodeAddress req.peerAddr with
  | none =>
      let reply := setCode reply .kNodeNotFound
      setNodeAddress reply req.peerAddr
  | some node =>
      let reply := setCode reply .kOk
      let reply := setNodeIp reply node.netAddr.ip
      let reply := setNodePort reply node.netAddr.port
      let reply := setNodeAddress reply node.nodeAddr
      setNodePath reply node.readableAddr

/-- The message that `OnMessage` writes, where a handler has built one. -/
def builtReply (server : ResolveServer) (connection : ServiceConnection) (req : ResolveRequest) :
    Option ProtocolMessage :=
  match req.type with
  | .kInitializeSelf => some (initReply server.conf connection.peerAddr.ip req)
  | .kLookupNode => some (lookupReply server.conf req)
  | .unknown _ => none

end ResolveServer

def stringField (width : Nat) (value : List UInt8) : List UInt8 :=
  Memory.stringCells 0 value ++ List.replicate (width - value.length) 0

/-- The data of a message that holds these fields of a response and is zero
elsewhere. -/
def ResolveResponse.layout (resp : ResolveResponse) : List UInt8 :=
  LittleEndian.halfBytes resp.code.toInt16.toUInt16 ++
    (LittleEndian.halfBytes resp.type.toInt16.toUInt16 ++
      (LittleEndian.bytes resp.nodeAddr ++
        (LittleEndian.bytes resp.nodePort.toUInt32 ++
          (stringField kMaxIpSize resp.nodeIp ++
            (stringField kMaxNodePathSize resp.nodePath ++ List.replicate 868 0)))))

theorem write_stringField {value : List UInt8} {width : Nat} (fits : value.length ≤ width)
    (before after : List UInt8) :
    Memory.write (before ++ (stringField width [] ++ after)) before.length
        (Memory.stringCells 0 value) =
      before ++ (stringField width value ++ after) := by
  have split : stringField width [] =
      List.replicate value.length 0 ++ List.replicate (width - value.length) 0 := by
    rw [List.replicate_append_replicate, Nat.add_sub_cancel' fits]
    rfl
  rw [split, List.append_assoc, Memory.write_append, stringField, List.append_assoc]
  rw [List.length_replicate, Memory.length_stringCells]

theorem length_stringField {value : List UInt8} {width : Nat} (fits : value.length ≤ width) :
    (stringField width value).length = width := by
  rw [stringField, List.length_append, Memory.length_stringCells, List.length_replicate]
  omega

theorem ResolveResponse.length_layout (resp : ResolveResponse)
    (ipFits : resp.nodeIp.length ≤ kMaxIpSize)
    (pathFits : resp.nodePath.length ≤ kMaxNodePathSize) :
    resp.layout.length = ProtocolMessage.kMaxProtocolDataSize := by
  rw [layout]
  simp only [List.length_append, length_stringField ipFits, length_stringField pathFits,
    List.length_replicate, LittleEndian.length_halfBytes, LittleEndian.length_bytes]
  decide

namespace ResolveResponse.Builder

variable {message : ProtocolMessage} {resp : ResolveResponse}

theorem data_create : create.data = layout ⟨.kOk, .unknown 0, 0, 0, [], []⟩ := by
  decide +kernel

theorem data_setCode (stored : message.data = resp.layout) (code : ResolveServerError) :
    (setCode message code).data = layout { resp with code := code } := by
  rw [setCode, ProtocolMessage.data_setField, stored, layout]
  exact Memory.write_append [] (LittleEndian.halfBytes code.toInt16.toUInt16) _ rfl

theorem data_setType (stored : message.data = resp.layout) (type : ResolveResponseType) :
    (setType message type).data = layout { resp with type := type } := by
  rw [setType, ProtocolMessage.data_setField, stored, layout]
  exact Memory.write_append (LittleEndian.halfBytes resp.code.toInt16.toUInt16)
    (LittleEndian.halfBytes type.toInt16.toUInt16) _ rfl

theorem data_setNodeAddress (stored : message.data = resp.layout) (addr : UInt32) :
    (setNodeAddress message addr).data = layout { resp with nodeAddr := addr } := by
  have moved (after : List UInt8) := Memory.write_append
    (LittleEndian.halfBytes resp.code.toInt16.toUInt16 ++
      LittleEndian.halfBytes resp.type.toInt16.toUInt16)
    (LittleEndian.bytes addr) after (LittleEndian.length_bytes resp.nodeAddr)
  simp only [List.append_assoc] at moved
  rw [setNodeAddress, ProtocolMessage.data_setField, stored, layout]
  exact moved _

theorem data_setNodePort (stored : message.data = resp.layout) (port : Int32) :
    (setNodePort message port).data = layout { resp with nodePort := port } := by
  have moved (after : List UInt8) := Memory.write_append
    (LittleEndian.halfBytes resp.code.toInt16.toUInt16 ++
      (LittleEndian.halfBytes resp.type.toInt16.toUInt16 ++ LittleEndian.bytes resp.nodeAddr))
    (LittleEndian.bytes port.toUInt32) after (LittleEndian.length_bytes resp.nodePort.toUInt32)
  simp only [List.append_assoc] at moved
  rw [setNodePort, ProtocolMessage.data_setField, stored, layout]
  exact moved _

theorem data_setNodeIp (stored : message.data = resp.layout) (unset : resp.nodeIp = [])
    {ip : List UInt8} (fits : ip.length ≤ kMaxIpSize) :
    (setNodeIp message ip).data = layout { resp with nodeIp := ip } := by
  have moved (after : List UInt8) := write_stringField fits
    (LittleEndian.halfBytes resp.code.toInt16.toUInt16 ++
      (LittleEndian.halfBytes resp.type.toInt16.toUInt16 ++
        (LittleEndian.bytes resp.nodeAddr ++
          LittleEndian.bytes resp.nodePort.toUInt32))) after
  simp only [List.append_assoc] at moved
  rw [setNodeIp, ProtocolMessage.setStringField, ProtocolMessage.data_ensureLength,
    ProtocolMessage.store, stored, layout, unset]
  exact moved _

theorem data_setNodePath (stored : message.data = resp.layout)
    (whole : resp.nodeIp.length ≤ kMaxIpSize) (unset : resp.nodePath = [])
    {path : List UInt8} (fits : path.length ≤ kMaxNodePathSize) :
    (setNodePath message path).data = layout { resp with nodePath := path } := by
  have moved (after : List UInt8) := write_stringField fits
    (LittleEndian.halfBytes resp.code.toInt16.toUInt16 ++
      (LittleEndian.halfBytes resp.type.toInt16.toUInt16 ++
        (LittleEndian.bytes resp.nodeAddr ++
          (LittleEndian.bytes resp.nodePort.toUInt32 ++
            stringField kMaxIpSize resp.nodeIp)))) after
  have start : (LittleEndian.halfBytes resp.code.toInt16.toUInt16 ++
      (LittleEndian.halfBytes resp.type.toInt16.toUInt16 ++
        (LittleEndian.bytes resp.nodeAddr ++
          (LittleEndian.bytes resp.nodePort.toUInt32 ++
            stringField kMaxIpSize resp.nodeIp)))).length = 28 := by
    simp only [List.length_append, length_stringField whole]
    rfl
  simp only [start, List.append_assoc] at moved
  rw [setNodePath, ProtocolMessage.setLastField, ProtocolMessage.store, stored, layout, unset]
  exact moved _

end ResolveResponse.Builder

namespace ResolveServer

open ResolveResponse.Builder

/-- The responses that are built, by their fields and as messages. -/
inductive Builds (conf : ResolveServerConf) (peerIp : List UInt8) (req : ResolveRequest) :
    ResolveResponse → ProtocolMessage → Prop where
  | initRefused : conf.getNodeInfoByNetAddress ⟨peerIp, req.cpmdPort⟩ = none →
      Builds conf peerIp req ⟨.kNodeNotFound, .unknown 0, 0, 0, [], []⟩
        (setCode create .kNodeNotFound)
  | initialized {node : ConfNode} :
      conf.getNodeInfoByNetAddress ⟨peerIp, req.cpmdPort⟩ = some node →
      Builds conf peerIp req
        ⟨.kOk, .kUpdateSelf, node.nodeAddr, req.cpmdPort, peerIp, node.readableAddr⟩
        (setNodePath (setNodeIp (setNodePort (setNodeAddress (setType (setCode create .kOk)
          .kUpdateSelf) node.nodeAddr) req.cpmdPort) peerIp) node.readableAddr)
  | lookupFailed : conf.getNodeInfoByNodeAddress req.peerAddr = none →
      Builds conf peerIp req ⟨.kNodeNotFound, .kUpdateCache, req.peerAddr, 0, [], []⟩
        (setNodeAddress (setCode (setType create .kUpdateCache) .kNodeNotFound) req.peerAddr)
  | found {node : ConfNode} : conf.getNodeInfoByNodeAddress req.peerAddr = some node →
      Builds conf peerIp req
        ⟨.kOk, .kUpdateCache, node.nodeAddr, node.netAddr.port, node.netAddr.ip,
          node.readableAddr⟩
        (setNodePath (setNodeAddress (setNodePort (setNodeIp (setCode (setType create
          .kUpdateCache) .kOk) node.netAddr.ip) node.netAddr.port) node.nodeAddr)
          node.readableAddr)

theorem builds_of_onMessage {server : ResolveServer} {conns : FiniteMap Nat ServiceConnection}
    {conn : Nat} {connection : ServiceConnection} {req : ResolveRequest} {handled : Handled}
    {resp : ResolveResponse}
    (answered : server.onMessage conns conn connection req = some handled)
    (fields : handled.reply = some resp) :
    ∃ reply, server.builtReply connection req = some reply ∧
      Builds server.conf connection.peerAddr.ip req resp reply := by
  cases handles_of_onMessage answered with
  | initRefused kind missing =>
      cases fields
      exact ⟨_, by simp only [builtReply, kind, initReply, missing], .initRefused missing⟩
  | initialized kind listed _ =>
      cases fields
      exact ⟨_, by simp only [builtReply, kind, initReply, listed], .initialized listed⟩
  | lookupFailed kind _ _ missing =>
      cases fields
      exact ⟨_, by simp only [builtReply, kind, lookupReply, missing], .lookupFailed missing⟩
  | found kind _ _ listed =>
      cases fields
      exact ⟨_, by simp only [builtReply, kind, lookupReply, listed], .found listed⟩
  | unregistered _ _ | foreign _ _ _ _ | unknown _ => cases fields

theorem Builds.data {conf : ResolveServerConf} {peerIp : List UInt8} {req : ResolveRequest}
    {resp : ResolveResponse} {reply : ProtocolMessage} (builds : Builds conf peerIp req resp reply)
    (ipFits : resp.nodeIp.length ≤ kMaxIpSize)
    (pathFits : resp.nodePath.length ≤ kMaxNodePathSize) : reply.data = resp.layout := by
  cases builds with
  | initRefused _ => exact data_setCode data_create _
  | @initialized node _ =>
      have numbers := data_setNodePort (data_setNodeAddress (data_setType
        (data_setCode data_create .kOk) .kUpdateSelf) node.nodeAddr) req.cpmdPort
      exact data_setNodePath (data_setNodeIp numbers rfl ipFits) ipFits rfl pathFits
  | lookupFailed _ => exact data_setNodeAddress (data_setCode (data_setType data_create _) _) _
  | found _ =>
      have ip := data_setNodeIp (data_setCode (data_setType data_create .kUpdateCache) .kOk)
        rfl ipFits
      exact data_setNodePath (data_setNodeAddress (data_setNodePort ip _) _) ipFits rfl pathFits

/-- How much of the memory is sent: the fields that were set, and of the last
string no more than its own bytes. -/
theorem Builds.header {conf : ResolveServerConf} {peerIp : List UInt8} {req : ResolveRequest}
    {resp : ResolveResponse} {reply : ProtocolMessage}
    (builds : Builds conf peerIp req resp reply) :
    reply.type = MessageType.kResolveResponse.toInt16 ∧
      reply.magic = ProtocolMessage.kProtocolMessageMagic ∧
      (resp.code = .kOk ∧ reply.len = UInt16.ofNat (28 + resp.nodePath.length) ∨
        resp.code = .kNodeNotFound ∧ resp.type = .kUpdateCache ∧ reply.len = 8 ∨
        resp.code = .kNodeNotFound ∧ resp.type = .unknown 0 ∧ reply.len = 2) := by
  cases builds with
  | initRefused _ => exact ⟨rfl, rfl, .inr (.inr ⟨rfl, rfl, rfl⟩)⟩
  | initialized _ => exact ⟨rfl, rfl, .inl ⟨rfl, rfl⟩⟩
  | lookupFailed _ => exact ⟨rfl, rfl, .inr (.inl ⟨rfl, rfl, rfl⟩)⟩
  | found _ => exact ⟨rfl, rfl, .inl ⟨rfl, rfl⟩⟩

end ResolveServer

end Cpmd
