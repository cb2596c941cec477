import Cpmd.RecordBuilder

/-! The builders of requests and responses: their setters may be called in any order,
and what was set is received. -/

set_option autoImplicit false

namespace Cpmd

open Library

namespace ResolveRequest.Builder

inductive Member where
  | type
  | selfAddr
  | cpmdPort
  | peerAddr
deriving DecidableEq

inductive Call where
  | setType (type : ResolveRequestType)
  | setSelfAddress (addr : UInt32)
  | setPort (port : Int32)
  | setPeerAddress (peerAddr : UInt32)

def run (message : ProtocolMessage) : Call → ProtocolMessage
  | .setType type => setType message type
  | .setSelfAddress addr => setSelfAddress message addr
  | .setPort port => setPort message port
  | .setPeerAddress peerAddr => setPeerAddress message peerAddr

/-- `offsetof(ResolveRequest, Field)`. -/
def offset : Member → Nat
  | .type => 0
  | .selfAddr => 4
  | .cpmdPort => 8
  | .peerAddr => 12

/-- `sizeof(ResolveRequest::Field)`. -/
def width : Member → Nat
  | .type => 2
  | .selfAddr | .cpmdPort | .peerAddr => 4

theorem offset_apart {left right : Member} (different : left ≠ right) :
    offset left + width left ≤ offset right ∨ offset right + width right ≤ offset left := by
  cases left <;> cases right <;> first | exact absurd rfl different | decide

def memberLayout : Layout Member := ⟨offset, width, offset_apart⟩

def setting : Call → Setting Member
  | .setType type => .field .type (LittleEndian.halfBytes type.toInt16.toUInt16)
  | .setSelfAddress addr => .field .selfAddr (LittleEndian.bytes addr)
  | .setPort port => .field .cpmdPort (LittleEndian.bytes port.toUInt32)
  | .setPeerAddress peerAddr => .field .peerAddr (LittleEndian.bytes peerAddr)

def given : Call → Option Int
  | .setType type => some type.toInt16.toInt
  | .setSelfAddress addr => some addr.toNat
  | .setPort port => some port.toInt
  | .setPeerAddress peerAddr => some peerAddr.toNat

def integer (req : ResolveRequest) : Member → Option Int
  | .type => some req.type.toInt16.toInt
  | .selfAddr => some req.selfAddr.toNat
  | .cpmdPort => some req.cpmdPort.toInt
  | .peerAddr => some req.peerAddr.toNat

def scalar : Member → Option Scalar
  | .type => some .enumeration
  | .selfAddr | .peerAddr => some .unsigned
  | .cpmdPort => some .signed

theorem finish_lt (member : Member) :
    memberLayout.finish member < ProtocolMessage.kMaxProtocolDataSize := by
  cases member <;> decide

theorem run_eq (message : ProtocolMessage) (call : Call) :
    run message call = (setting call).apply memberLayout message := by
  cases call <;> rfl

theorem setting_fits (call : Call) : (setting call).Fits memberLayout := by
  cases call <;> rfl

theorem width_scalar (member : Member) (kind : Scalar) (known : scalar member = some kind) :
    memberLayout.width member = kind.width := by
  cases member <;> cases known <;> rfl

theorem field_of_given (call : Call) (value : Int) (known : given call = some value) :
    ∃ member kind cells, setting call = .field member cells ∧ scalar member = some kind ∧
      kind.decode cells = value := by
  cases call <;> cases known <;> exact ⟨_, _, _, rfl, rfl, by simp [Scalar.decode]⟩

theorem integer_ofData (data : List UInt8) (member : Member) :
    integer (ofData data) member =
      (scalar member).map (Scalar.decode (data.drop (memberLayout.offset member))) := by
  cases member <;> simp [integer, ofData, scalar, Scalar.decode, memberLayout, offset,
    ResolveRequestType.toInt16_ofInt16]

def record : RecordBuilder Member Call ResolveRequest where
  messageType := .kResolveRequest
  layout := memberLayout
  run := run
  Asserts := fun _ => True
  setting := setting
  given := given
  ofData := ofData
  integer := integer
  scalar := scalar
  small := finish_lt
  run_eq := run_eq
  fits := fun call _ => setting_fits call
  width_scalar := width_scalar
  field_of_given := field_of_given
  integer_ofData := integer_ofData

end ResolveRequest.Builder

namespace ResolveResponse.Builder

inductive Member where
  | code
  | type
  | nodeAddr
  | nodePort
  | nodeIp
  | nodePath
deriving DecidableEq

inductive Call where
  | setCode (code : ResolveServerError)
  | setType (type : ResolveResponseType)
  | setNodeAddress (addr : UInt32)
  | setNodePort (port : Int32)
  | setNodeIp (ip : List UInt8)
  | setNodePath (path : List UInt8)

def run (message : ProtocolMessage) : Call → ProtocolMessage
  | .setCode code => setCode message code
  | .setType type => setType message type
  | .setNodeAddress addr => setNodeAddress message addr
  | .setNodePort port => setNodePort message port
  | .setNodeIp ip => setNodeIp message ip
  | .setNodePath path => setNodePath message path

def Asserts : Call → Prop
  | .setNodeIp ip => AssertsNodeIp ip
  | .setNodePath path => AssertsNodePath path
  | .setCode _ | .setType _ | .setNodeAddress _ | .setNodePort _ => True

/-- `offsetof(ResolveResponse, Field)`. -/
def offset : Member → Nat
  | .code => 0
  | .type => 2
  | .nodeAddr => 4
  | .nodePort => 8
  | .nodeIp => 12
  | .nodePath => 28

/-- `sizeof(ResolveResponse::Field)`. -/
def width : Member → Nat
  | .code | .type => 2
  | .nodeAddr | .nodePort => 4
  | .nodeIp => kMaxIpSize
  | .nodePath => kMaxNodePathSize

theorem offset_apart {left right : Member} (different : left ≠ right) :
    offset left + width left ≤ offset right ∨ offset right + width right ≤ offset left := by
  cases left <;> cases right <;> first | exact absurd rfl different | decide

def memberLayout : Layout Member := ⟨offset, width, offset_apart⟩

def setting : Call → Setting Member
  | .setCode code => .field .code (LittleEndian.halfBytes code.toInt16.toUInt16)
  | .setType type => .field .type (LittleEndian.halfBytes type.toInt16.toUInt16)
  | .setNodeAddress addr => .field .nodeAddr (LittleEndian.bytes addr)
  | .setNodePort port => .field .nodePort (LittleEndian.bytes port.toUInt32)
  | .setNodeIp ip => .stringField .nodeIp ip
  | .setNodePath path => .lastField .nodePath path

def given : Call → Option Int
  | .setCode code => some code.toInt16.toInt
  | .setType type => some type.toInt16.toInt
  | .setNodeAddress addr => some addr.toNat
  | .setNodePort port => some port.toInt
  | .setNodeIp _ | .setNodePath _ => none

def integer (resp : ResolveResponse) : Member → Option Int
  | .code => some resp.code.toInt16.toInt
  | .type => some resp.type.toInt16.toInt
  | .nodeAddr => some resp.nodeAddr.toNat
  | .nodePort => some resp.nodePort.toInt
  | .nodeIp | .nodePath => none

def scalar : Member → Option Scalar
  | .code | .type => some .enumeration
  | .nodeAddr => some .unsigned
  | .nodePort => some .signed
  | .nodeIp | .nodePath => none

theorem finish_lt (member : Member) :
    memberLayout.finish member < ProtocolMessage.kMaxProtocolDataSize := by
  cases member <;> decide

theorem run_eq (message : ProtocolMessage) (call : Call) :
    run message call = (setting call).apply memberLayout message := by
  cases call <;> rfl

/-- The static assertion of `DefineLastFieldSetter`. -/
theorem finish_le_nodePath {other : Member} (different : other ≠ .nodePath) :
    memberLayout.finish other ≤ memberLayout.offset .nodePath := by
  cases other <;> first | exact absurd rfl different | decide

theorem setting_fits (call : Call) (asserts : Asserts call) : (setting call).Fits memberLayout := by
  cases call with
  | setCode code => rfl
  | setType type => rfl
  | setNodeAddress addr => rfl
  | setNodePort port => rfl
  | setNodeIp ip => exact asserts
  | setNodePath path => exact ⟨asserts, fun _ different => finish_le_nodePath different⟩

theorem width_scalar (member : Member) (kind : Scalar) (known : scalar member = some kind) :
    memberLayout.width member = kind.width := by
  cases member <;> cases known <;> rfl

theorem field_of_given (call : Call) (value : Int) (known : given call = some value) :
    ∃ member kind cells, setting call = .field member cells ∧ scalar member = some kind ∧
      kind.decode cells = value := by
  cases call <;> cases known <;> exact ⟨_, _, _, rfl, rfl, by simp [Scalar.decode]⟩

theorem integer_ofData (data : List UInt8) (member : Member) :
    integer (ofData data) member =
      (scalar member).map (Scalar.decode (data.drop (memberLayout.offset member))) := by
  cases member <;> simp [integer, ofData, scalar, Scalar.decode, memberLayout, offset,
    ResolveResponseType.toInt16_ofInt16, ResolveServerError.toInt16_ofInt16]

def record : RecordBuilder Member Call ResolveResponse where
  messageType := .kResolveResponse
  layout := memberLayout
  run := run
  Asserts := Asserts
  setting := setting
  given := given
  ofData := ofData
  integer := integer
  scalar := scalar
  small := finish_lt
  run_eq := run_eq
  fits := setting_fits
  width_scalar := width_scalar
  field_of_given := field_of_given
  integer_ofData := integer_ofData

end ResolveResponse.Builder

/-- Any different setters of a request or a response may be called in any order, and
what was set is received. -/
theorem builders_lawful :
    ResolveRequest.Builder.record.Lawful ∧ ResolveResponse.Builder.record.Lawful :=
  ⟨RecordBuilder.lawful _, RecordBuilder.lawful _⟩

/-- Of the path `/b/` only the string is covered, and a request with `2 ^ 31` zeros
behind it is not handed over. -/
theorem not_builders_cover_and_deliver :
    (¬ ∀ path : List UInt8, ResolveResponse.Builder.AssertsNodePath path → 0 ∉ path →
      ResolveResponse.Builder.memberLayout.finish .nodePath ≤
        (ResolveResponse.Builder.record.build [.setNodePath path]).len.toNat) ∧
    ¬ ∀ following behind, ∃ ended received rest,
      ProtocolMessageCodec.OnRead
          ((ResolveRequest.Builder.record.build [.setType .kLookupNode]).serialize ++ following)
          behind ended ∧
        ended.last.handed = (0, received) :: rest := by
  constructor
  · intro covers
    exact absurd (covers [47, 98, 47] (by decide) (by decide)) (by decide)
  · intro delivered
    have length : (List.replicate (2 ^ 31) (0 : UInt8)).length = 2 ^ 31 := List.length_replicate
    generalize List.replicate (2 ^ 31) (0 : UInt8) = zeros at length
    have frame : (ResolveRequest.Builder.record.build
        [.setType .kLookupNode]).serialize.length = 12 := by decide
    have counted : ((ResolveRequest.Builder.record.build
        [.setType .kLookupNode]).serialize ++ zeros).length = 12 + 2 ^ 31 := by
      rw [List.length_append, frame, length]
    obtain ⟨ended, received, rest, read, handed⟩ := delivered zeros []
    have stopped := ProtocolMessageCodec.onRead_of_uncountable
      (m := ResolveRequest.Builder.record.build [.setType .kLookupNode]) rfl (by decide) zeros []
      (by omega) (by omega)
    rw [read.unique stopped] at handed
    cases handed

end Cpmd
