import Cpmd.ResolveReply
import Cpmd.ProtocolMessageCodecProperties
import Cpmd.Server

/-! What a daemon reads of the resolve server's replies. A frame ends with the
last field that was set, and the daemon's view of it does not. -/

set_option autoImplicit false

namespace Cpmd

open Library

namespace ResolveResponse

/-- The fields that a reply leaves out read as zero or empty in the bytes behind
it, and no string is cut short by a NUL of its own. -/
def Silent (resp : ResolveResponse) (behind : List UInt8) : Prop :=
  match resp.code, resp.type with
  | .kOk, _ => 0 ∉ resp.nodeIp ∧ 0 ∉ resp.nodePath ∧ Memory.string 0 behind = []
  | _, .kUpdateCache =>
      (LittleEndian.word behind).toInt32 = 0 ∧ Memory.string 0 (behind.drop 4) = [] ∧
        Memory.string 0 (behind.drop 20) = []
  | _, _ =>
      (LittleEndian.half behind).toInt16 = 0 ∧ LittleEndian.word (behind.drop 2) = 0 ∧
        (LittleEndian.word (behind.drop 6)).toInt32 = 0 ∧
        Memory.string 0 (behind.drop 10) = [] ∧ Memory.string 0 (behind.drop 26) = []

theorem string_stringField_append {value : List UInt8} {width : Nat}
    (fits : value.length < width) (rest : List UInt8) :
    Memory.string 0 (stringField width value ++ rest) = Memory.string 0 value := by
  obtain ⟨count, left⟩ : ∃ count, width - value.length = count + 1 :=
    ⟨width - value.length - 1, by omega⟩
  rw [stringField, left, List.append_assoc, Memory.string_stringCells_append,
    Memory.string_replicate_append, List.append_nil]
  split
  · rfl
  · rename_i absent
    exact (Memory.string_of_not_mem absent).symm

theorem take_layout {resp : ResolveResponse} (ipFits : resp.nodeIp.length ≤ kMaxIpSize) :
    resp.layout.take (28 + resp.nodePath.length) =
      LittleEndian.halfBytes resp.code.toInt16.toUInt16 ++
        (LittleEndian.halfBytes resp.type.toInt16.toUInt16 ++
          (LittleEndian.bytes resp.nodeAddr ++
            (LittleEndian.bytes resp.nodePort.toUInt32 ++
              (stringField kMaxIpSize resp.nodeIp ++ Memory.stringCells 0 resp.nodePath)))) := by
  have start : (LittleEndian.halfBytes resp.code.toInt16.toUInt16 ++
      (LittleEndian.halfBytes resp.type.toInt16.toUInt16 ++
        (LittleEndian.bytes resp.nodeAddr ++
          (LittleEndian.bytes resp.nodePort.toUInt32 ++
            (stringField kMaxIpSize resp.nodeIp ++
              Memory.stringCells 0 resp.nodePath))))).length = 28 + resp.nodePath.length := by
    simp only [List.length_append, length_stringField ipFits, Memory.length_stringCells]
    simp only [LittleEndian.length_halfBytes, LittleEndian.length_bytes, kMaxIpSize]
    omega
  have whole (width : Nat) (after : List UInt8) :
      stringField width resp.nodePath ++ after = Memory.stringCells 0 resp.nodePath ++
        (List.replicate (width - resp.nodePath.length) 0 ++ after) := by
    rw [stringField, List.append_assoc]
  rw [layout, whole]
  simp only [← List.append_assoc] at start ⊢
  simp only [List.append_assoc _ (List.replicate _ _)]
  exact List.take_left' start

theorem ofData_sent {resp : ResolveResponse} (ipFits : resp.nodeIp.length < kMaxIpSize)
    (behind : List UInt8) :
    ofData (resp.layout.take (28 + resp.nodePath.length) ++ behind) =
      ⟨.ofInt16 resp.code.toInt16, .ofInt16 resp.type.toInt16, resp.nodeAddr, resp.nodePort,
        Memory.string 0 resp.nodeIp,
        if 0 ∈ resp.nodePath then Memory.string 0 resp.nodePath
        else resp.nodePath ++ Memory.string 0 behind⟩ := by
  have width : (stringField kMaxIpSize resp.nodeIp).length = 16 :=
    length_stringField (Nat.le_of_lt ipFits)
  have passed : (stringField kMaxIpSize resp.nodeIp).drop 16 = [] :=
    List.drop_eq_nil_of_le (Nat.le_of_eq width)
  rw [take_layout (Nat.le_of_lt ipFits)]
  simp only [ofData, List.append_assoc, List.drop_append, width]
  simp [string_stringField_append ipFits, passed, Memory.string_stringCells_append]

theorem ofData_layout_eight (resp : ResolveResponse) (behind : List UInt8) :
    ofData (resp.layout.take 8 ++ behind) =
      ⟨.ofInt16 resp.code.toInt16, .ofInt16 resp.type.toInt16, resp.nodeAddr,
        (LittleEndian.word behind).toInt32, Memory.string 0 (behind.drop 4),
        Memory.string 0 (behind.drop 20)⟩ := by
  have sent : resp.layout.take 8 = LittleEndian.halfBytes resp.code.toInt16.toUInt16 ++
      (LittleEndian.halfBytes resp.type.toInt16.toUInt16 ++
        LittleEndian.bytes resp.nodeAddr) := rfl
  rw [sent]
  simp [ofData, List.append_assoc, List.drop_append]

theorem ofData_layout_two (resp : ResolveResponse) (behind : List UInt8) :
    ofData (resp.layout.take 2 ++ behind) =
      ⟨.ofInt16 resp.code.toInt16, .ofInt16 (LittleEndian.half behind).toInt16,
        LittleEndian.word (behind.drop 2), (LittleEndian.word (behind.drop 6)).toInt32,
        Memory.string 0 (behind.drop 10), Memory.string 0 (behind.drop 26)⟩ := by
  have sent : resp.layout.take 2 = LittleEndian.halfBytes resp.code.toInt16.toUInt16 := rfl
  rw [sent]
  simp [ofData, List.drop_append]

theorem unknown_zero_iff {value : Int16} :
    ResolveResponseType.ofInt16 value = .unknown 0 ↔ value = 0 := by
  unfold ResolveResponseType.ofInt16
  split
  · rename_i one
    subst one
    simp
  · split
    · rename_i two
      subst two
      simp
    · simp

end ResolveResponse

namespace ResolveServer

variable {conf : ResolveServerConf} {peerIp : List UInt8} {req : ResolveRequest}
  {resp : ResolveResponse} {reply : ProtocolMessage}

theorem Builds.contents (builds : Builds conf peerIp req resp reply)
    (ipFits : resp.nodeIp.length ≤ kMaxIpSize)
    (pathFits : resp.nodePath.length < kMaxNodePathSize) :
    (resp.code = .kOk ∧ reply.contents = resp.layout.take (28 + resp.nodePath.length)) ∨
      (resp.code = .kNodeNotFound ∧ resp.type = .kUpdateCache ∧
        reply.contents = resp.layout.take 8) ∨
      (resp.code = .kNodeNotFound ∧ resp.type = .unknown 0 ∧
        reply.contents = resp.layout.take 2) := by
  have stored := builds.data ipFits (Nat.le_of_lt pathFits)
  obtain ⟨_, _, length⟩ := builds.header
  simp only [ProtocolMessage.contents, stored]
  rcases length with ⟨code, sent⟩ | ⟨code, kind, sent⟩ | ⟨code, kind, sent⟩
  · refine .inl ⟨code, ?_⟩
    rw [sent, UInt16.toNat_ofNat_of_lt']
    simp only [kMaxNodePathSize, UInt16.size] at pathFits ⊢
    omega
  · exact .inr (.inl ⟨code, kind, by rw [sent]; rfl⟩)
  · exact .inr (.inr ⟨code, kind, by rw [sent]; rfl⟩)

theorem Builds.unset (builds : Builds conf peerIp req resp reply) (bad : resp.code ≠ .kOk) :
    resp.nodePort = 0 ∧ resp.nodeIp = [] ∧ resp.nodePath = [] ∧
      (resp.type = .unknown 0 → resp.nodeAddr = 0) := by
  cases builds with
  | initRefused _ => exact ⟨rfl, rfl, rfl, fun _ => rfl⟩
  | lookupFailed _ => exact ⟨rfl, rfl, rfl, fun kind => by cases kind⟩
  | initialized _ | found _ => exact absurd rfl bad

theorem Builds.sameType (builds : Builds conf peerIp req resp reply) :
    ResolveResponseType.ofInt16 resp.type.toInt16 = resp.type := by
  cases builds <;> rfl

theorem Builds.decode_iff (builds : Builds conf peerIp req resp reply)
    (ipFits : resp.nodeIp.length < kMaxIpSize) (pathFits : resp.nodePath.length < kMaxNodePathSize)
    (behind : List UInt8) :
    ResolveResponse.ofData (reply.contents ++ behind) = resp ↔ resp.Silent behind := by
  have missingNode :
      ResolveServerError.ofInt16 ResolveServerError.kNodeNotFound.toInt16 = .kNodeNotFound := rfl
  have unset := builds.unset
  have kind := builds.sameType
  rcases builds.contents (Nat.le_of_lt ipFits) pathFits with
    ⟨code, sent⟩ | ⟨code, type, sent⟩ | ⟨code, type, sent⟩
  · rw [sent, ResolveResponse.ofData_sent ipFits, kind]
    obtain ⟨_, _, _, _, ip, path⟩ := resp
    cases code
    by_cases cut : 0 ∈ path
    · simp [cut, Memory.string_eq_self_iff, ResolveResponse.Silent]
    · simp [cut, Memory.string_eq_self_iff, ResolveResponse.Silent, ResolveServerError.ofInt16,
        ResolveServerError.toInt16]
  · obtain ⟨port, ip, path, _⟩ := unset (by rw [code]; decide)
    rw [sent, ResolveResponse.ofData_layout_eight, kind]
    obtain ⟨_, _, _, _, _, _⟩ := resp
    dsimp only at code type port ip path
    subst code type port ip path
    simp [ResolveResponse.Silent, missingNode]
  · obtain ⟨port, ip, path, address⟩ := unset (by rw [code]; decide)
    rw [sent, ResolveResponse.ofData_layout_two]
    obtain ⟨_, _, _, _, _, _⟩ := resp
    dsimp only at code type port ip path address
    subst code type port ip path
    cases address rfl
    simp [ResolveResponse.Silent, ResolveResponse.unknown_zero_iff, missingNode]

theorem Builds.own (builds : Builds conf peerIp req resp reply) (kind : resp.type = .kUpdateSelf) :
    (Address.create resp.nodePath).nodeAddr = resp.nodeAddr := by
  cases builds with
  | initialized _ => rfl
  | initRefused _ | lookupFailed _ | found _ => cases kind

end ResolveServer

namespace ProtocolMessageCodec

theorem round_goes {buffer behind : List UInt8} {cursor next : Cursor}
    (goes : round buffer behind cursor = .inl next) :
    ∃ message, headerAt? buffer behind cursor.ptr = some message ∧
      next = cursor.advance message := by
  simp only [round] at goes
  split at goes
  · split at goes
    · cases goes
    · rename_i message header
      refine ⟨message, header, ?_⟩
      split at goes
      · cases goes
      · split at goes
        · cases goes
        · split at goes
          · cases goes
          · exact (Sum.inl.inj goes).symm
  · cases goes

theorem handed_headerAt {buffer behind : List UInt8} {cursor : Cursor}
    (reached : Loop.Reaches (round buffer behind) (entry buffer) cursor) :
    ∀ handed ∈ cursor.handed, headerAt? buffer behind handed.1 = some handed.2 := by
  induction reached with
  | refl => simp [entry]
  | tail _ goes holds =>
      obtain ⟨message, header, rfl⟩ := round_goes goes
      intro handed member
      rcases List.mem_append.mp member with old | new
      · exact holds handed old
      · cases List.mem_singleton.mp new
        exact header

theorem handed_frame {before more behind : List UInt8} {frame m : ProtocolMessage}
    {cursor : Cursor}
    (reached : Loop.Reaches (round (before ++ (frame.serialize ++ more)) behind)
      (entry (before ++ (frame.serialize ++ more))) cursor)
    (handed : (before.length, m) ∈ cursor.handed) :
    m = { frame with data := frame.contents ++ (more ++ behind) } := by
  have header : headerAt? _ behind before.length = some m := handed_headerAt reached _ handed
  rw [headerAt?, List.append_assoc, List.drop_left, ProtocolMessage.serialize] at header
  simp only [List.append_assoc, ProtocolMessage.overlay_header] at header
  split at header
  · exact (Option.some.inj header).symm
  · cases header

end ProtocolMessageCodec

namespace ResolveServer

/-- What a daemon makes of a reply that its codec hands over is what the resolve
server had built, exactly if the memory behind the frame is silent. -/
theorem decoded_iff_silent {server : ResolveServer} {conns : FiniteMap Nat ServiceConnection}
    {conn : Nat} {connection : ServiceConnection} {req : ResolveRequest} {handled : Handled}
    {resp : ResolveResponse} {reply m : ProtocolMessage}
    {before more behind : List UInt8} {cursor : ProtocolMessageCodec.Cursor}
    (answered : server.onMessage conns conn connection req = some handled)
    (fields : handled.reply = some resp) (built : server.builtReply connection req = some reply)
    (ipFits : resp.nodeIp.length ≤ 15) (pathFits : resp.nodePath.length ≤ 127)
    (reached : Loop.Reaches
      (ProtocolMessageCodec.round (before ++ (reply.serialize ++ more)) behind)
      (ProtocolMessageCodec.entry (before ++ (reply.serialize ++ more))) cursor)
    (handed : (before.length, m) ∈ cursor.handed) :
    (ResolveServerMessage.ofProtocolMessage m = .kResolveResponse resp ∧
      (resp.type = .kUpdateSelf → ∀ seen,
        ResolveServerMessage.ofProtocolMessage m = .kResolveResponse seen →
          ∀ daemon : Server, (daemon.updateSelfAddress seen).2 = true)) ↔
      resp.Silent (more ++ behind) := by
  obtain ⟨reply', built', builds⟩ := builds_of_onMessage answered fields
  rw [built] at built'
  cases built'
  obtain ⟨type, _, _⟩ := builds.header
  have seen : ResolveServerMessage.ofProtocolMessage m =
      .kResolveResponse (.ofData (reply.contents ++ (more ++ behind))) := by
    rw [ProtocolMessageCodec.handed_frame reached handed]
    simp only [ResolveServerMessage.ofProtocolMessage, type]
    rfl
  have decoded := builds.decode_iff (Nat.lt_succ_of_le ipFits) (Nat.lt_succ_of_le pathFits)
    (more ++ behind)
  rw [seen, ← decoded]
  constructor
  · intro both
    exact ResolveServerMessage.kResolveResponse.inj both.1
  · intro same
    refine ⟨congrArg _ same, fun kind other brought daemon => ?_⟩
    cases brought
    rw [same, Server.updateSelfAddress, if_neg (not_not_intro (builds.own kind))]

end ResolveServer

namespace Service

/-- The configuration with one node. -/
def singleConf (node : ConfNode) : ResolveServerConf where
  nodes := FiniteMap.assign ∅ node.nodeAddr node
  cacheNodes := FiniteMap.assign ∅ node.netAddr node
  keyed := by
    intro nodeAddr other found
    rw [FiniteMap.find_assign, FiniteMap.find_empty] at found
    split at found
    · rename_i same
      cases found
      exact same.symm
    · cases found
  pointed := by
    intro netAddr other found
    rw [FiniteMap.find_assign, FiniteMap.find_empty] at found
    split at found
    · cases found
      rw [FiniteMap.find_assign, if_pos rfl]
    · cases found

/-- The node `/b/` at 10.0.0.7. -/
def someTextNode : ConfNode := ⟨[47, 98, 47], ⟨[49, 48, 46, 48, 46, 48, 46, 55], 8123⟩⟩

def someServer : ResolveServer := ⟨singleConf someTextNode, ∅⟩

def someConnection : ServiceConnection :=
  ⟨⟨someTextNode.netAddr.ip, 50000⟩, .timerId 0, false, false⟩

/-- The answer to `someInitialize`, as its fields and as the message sent. -/
def someResponse : ResolveResponse :=
  ⟨.kOk, .kUpdateSelf, someTextNode.nodeAddr, 8123, someTextNode.netAddr.ip, [47, 98, 47]⟩

def someReply : ProtocolMessage :=
  ResolveServer.initReply someServer.conf someConnection.peerAddr.ip someInitialize

/-- The reply as it is handed over with these bytes behind it. -/
def someHanded (behind : List UInt8) : ProtocolMessage :=
  { someReply with data := someReply.contents ++ behind }

theorem someReply_handed (behind : List UInt8) :
    Loop.Reaches (ProtocolMessageCodec.round ([] ++ (someReply.serialize ++ [])) behind)
      (ProtocolMessageCodec.entry ([] ++ (someReply.serialize ++ [])))
      ⟨41, 0, [(0, someHanded behind)]⟩ :=
  Relation.ReflTransGen.single rfl

theorem decoded_iff_silent_zero :
    ResolveServerMessage.ofProtocolMessage (someHanded [0]) = .kResolveResponse someResponse ∧
      (someResponse.type = .kUpdateSelf → ∀ seen,
        ResolveServerMessage.ofProtocolMessage (someHanded [0]) = .kResolveResponse seen →
          ∀ daemon : Server, (daemon.updateSelfAddress seen).2 = true) := by
  have answered : ∃ handled, someServer.onMessage ∅ 0 someConnection someInitialize =
      some handled ∧ handled.reply = some someResponse := ⟨_, rfl, rfl⟩
  obtain ⟨handled, answered, fields⟩ := answered
  have silent : someResponse.Silent ([] ++ [0]) := ⟨by decide, by decide, rfl⟩
  exact (ResolveServer.decoded_iff_silent answered fields rfl (by decide) (by decide)
    (someReply_handed [0]) List.mem_cons_self).mpr silent

/-- With stale bytes behind the frame the path `/b/` reads as `/b/x/`, and the
daemon refuses its own address. -/
theorem not_decoded_stale :
    ∃ handled cursor m seen,
      someServer.onMessage ∅ 0 someConnection someInitialize = some handled ∧
      handled.reply = some someResponse ∧
      someServer.builtReply someConnection someInitialize = some someReply ∧
      Loop.Reaches (ProtocolMessageCodec.round someReply.serialize [120, 47, 0])
        (ProtocolMessageCodec.entry someReply.serialize) cursor ∧
      (0, m) ∈ cursor.handed ∧
      ResolveServerMessage.ofProtocolMessage m = .kResolveResponse seen ∧
      seen.nodePath ≠ someResponse.nodePath ∧
      ∀ daemon : Server, (daemon.updateSelfAddress seen).2 = false := by
  have reached := someReply_handed [120, 47, 0]
  refine ⟨_, _, _, _, rfl, rfl, rfl, reached, List.mem_cons_self, rfl, by decide, fun daemon => ?_⟩
  have mismatch : (Address.create [47, 98, 47, 120, 47]).nodeAddr ≠ someTextNode.nodeAddr := by
    decide
  exact congrArg Prod.snd (if_pos mismatch)

end Service

end Cpmd
