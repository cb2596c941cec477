import Cpmd.Configuration
import Cpmd.ResponseDecoding

/-! The memory of the reply that `OnMessage` writes: what a builder has cleared and
filled in, and what nothing was written to. -/

set_option autoImplicit false

namespace Cpmd

open Library

/-- The node's path and ip pass the assertions of the builder. -/
def ConfNode.FitsFields (node : ConfNode) : Prop :=
  ResolveResponse.Builder.AssertsNodeIp node.netAddr.ip ∧
    ResolveResponse.Builder.AssertsNodePath node.readableAddr

def ResolveServerConf.FitsFields (conf : ResolveServerConf) : Prop :=
  ∀ nodeAddr node, conf.getNodeInfoByNodeAddress nodeAddr = some node → node.FitsFields

/-- One frame with a response: whatever lies behind it, the codec hands it over and
leaves nothing. -/
def ProtocolMessage.IsResponseFrame (bytes : List UInt8) : Prop :=
  ∃ m : ProtocolMessage, bytes = m.serialize ∧ m.magic = kProtocolMessageMagic ∧
    m.type = MessageType.kResolveResponse.toInt16 ∧ m.len.toNat < kMaxProtocolDataSize ∧
    ∀ behind, ProtocolMessageCodec.OnRead bytes behind
      (.left ⟨bytes.length, 0, [(0, { m with data := m.contents ++ behind })]⟩)

namespace ResolveServer

/-- The bytes that `OnMessage` writes where its local `reply` holds `memory`, whose data
goes on behind the object. Only the constructor of a builder clears it. -/
def writtenReply (server : ResolveServer) (conns : FiniteMap Nat ServiceConnection) (conn : Nat)
    (connection : ServiceConnection) (req : ResolveRequest) (memory : ProtocolMessage) :
    Option (List UInt8) :=
  match server.onMessage conns conn connection req with
  | none => none
  | some handled =>
      match handled.reply with
      | none => some memory.serialize
      | some _ => (server.builtReply connection req).map ProtocolMessage.serialize

/-- The same bytes are written whatever the memory held, and they are one frame. -/
def RepliesCleanly (server : ResolveServer) (conns : FiniteMap Nat ServiceConnection) (conn : Nat)
    (connection : ServiceConnection) (req : ResolveRequest) : Prop :=
  ∃ bytes, (∀ memory : ProtocolMessage,
      ProtocolMessage.kMaxProtocolDataSize ≤ memory.data.length →
        server.writtenReply conns conn connection req memory = some bytes) ∧
    ProtocolMessage.IsResponseFrame bytes

/-- A builder is constructed, and no null context is met: an initialisation finds the
timer of its connection, a lookup is from a node that is registered. -/
def ReachesBuilder (server : ResolveServer) (conns : FiniteMap Nat ServiceConnection)
    (connection : ServiceConnection) (req : ResolveRequest) : Prop :=
  match req.type with
  | .kInitializeSelf =>
      ∀ node ∈ server.conf.getNodeInfoByNetAddress ⟨connection.peerAddr.ip, req.cpmdPort⟩,
        ∃ timer, connection.context = .timerId timer
  | .kLookupNode =>
      ∃ registered ∈ server.connections.find req.selfAddr,
        registeredAddr conns registered = some req.selfAddr
  | .unknown _ => False

theorem reachesBuilder_iff {server : ResolveServer} {conns : FiniteMap Nat ServiceConnection}
    {conn : Nat} {connection : ServiceConnection} {req : ResolveRequest} :
    server.ReachesBuilder conns connection req ↔
      ∃ handled resp, server.onMessage conns conn connection req = some handled ∧
        handled.reply = some resp := by
  constructor
  · intro reaches
    unfold ReachesBuilder at reaches
    cases kind : req.type with
    | kInitializeSelf =>
        rw [kind] at reaches
        cases listed : server.conf.getNodeInfoByNetAddress
            ⟨connection.peerAddr.ip, req.cpmdPort⟩ with
        | none => exact ⟨_, _, (Handles.initRefused kind listed).onMessage, rfl⟩
        | some node =>
            obtain ⟨timer, held⟩ := reaches node listed
            exact ⟨_, _, (Handles.initialized kind listed held).onMessage, rfl⟩
    | kLookupNode =>
        rw [kind] at reaches
        obtain ⟨registered, entry, held⟩ := reaches
        cases listed : server.conf.getNodeInfoByNodeAddress req.peerAddr with
        | none => exact ⟨_, _, (Handles.lookupFailed kind entry held listed).onMessage, rfl⟩
        | some node => exact ⟨_, _, (Handles.found kind entry held listed).onMessage, rfl⟩
    | unknown type =>
        rw [kind] at reaches
        exact reaches.elim
  · intro built
    obtain ⟨handled, resp, returned, reply⟩ := built
    unfold ReachesBuilder
    cases handles_of_onMessage returned with
    | initRefused kind missing => simp [kind, missing]
    | initialized kind listed held => simp [kind, held]
    | lookupFailed kind entry held _ | found kind entry held _ => simp [kind, entry, held]
    | unregistered _ _ | foreign _ _ _ _ | unknown _ => cases reply

variable {conf : ResolveServerConf} {peerIp : List UInt8} {req : ResolveRequest}
  {resp : ResolveResponse} {reply : ProtocolMessage}

theorem Builds.fitsFields (builds : Builds conf peerIp req resp reply) (indexed : conf.Indexed)
    (fits : conf.FitsFields) :
    ResolveResponse.Builder.AssertsNodeIp resp.nodeIp ∧
      ResolveResponse.Builder.AssertsNodePath resp.nodePath := by
  cases builds with
  | initRefused _ | lookupFailed _ => exact ⟨Nat.zero_lt_succ _, Nat.zero_lt_succ _⟩
  | @initialized node listed =>
      have own : node.netAddr = ⟨peerIp, req.cpmdPort⟩ := indexed _ _ listed
      obtain ⟨ipFits, pathFits⟩ := fits _ _ (conf.pointed listed)
      rw [own] at ipFits
      exact ⟨ipFits, pathFits⟩
  | found listed => exact fits _ _ listed

theorem Builds.length_contents (builds : Builds conf peerIp req resp reply)
    (ipFits : ResolveResponse.Builder.AssertsNodeIp resp.nodeIp)
    (pathFits : ResolveResponse.Builder.AssertsNodePath resp.nodePath) :
    reply.len.toNat < ProtocolMessage.kMaxProtocolDataSize ∧
      reply.contents.length = reply.len.toNat := by
  have stored := builds.data (Nat.le_of_lt ipFits) (Nat.le_of_lt pathFits)
  obtain ⟨_, _, length⟩ := builds.header
  have width : resp.layout.length = ProtocolMessage.kMaxProtocolDataSize :=
    resp.length_layout (Nat.le_of_lt ipFits) (Nat.le_of_lt pathFits)
  have small : reply.len.toNat < ProtocolMessage.kMaxProtocolDataSize := by
    rcases length with ⟨_, sent⟩ | ⟨_, _, sent⟩ | ⟨_, _, sent⟩
    · rw [sent, UInt16.toNat_ofNat_of_lt']
      · simp only [ResolveResponse.Builder.AssertsNodePath, kMaxNodePathSize] at pathFits
        simp only [ProtocolMessage.kMaxProtocolDataSize]
        omega
      · simp only [ResolveResponse.Builder.AssertsNodePath, kMaxNodePathSize] at pathFits
        simp only [UInt16.size]
        omega
    · rw [sent]
      decide
    · rw [sent]
      decide
  refine ⟨small, ?_⟩
  rw [ProtocolMessage.contents, stored, List.length_take, width]
  exact Nat.min_eq_left (Nat.le_of_lt small)

theorem Builds.isResponseFrame (builds : Builds conf peerIp req resp reply)
    (indexed : conf.Indexed) (fits : conf.FitsFields) :
    ProtocolMessage.IsResponseFrame reply.serialize := by
  obtain ⟨ipFits, pathFits⟩ := builds.fitsFields indexed fits
  obtain ⟨small, stored⟩ := builds.length_contents ipFits pathFits
  obtain ⟨type, magic, _⟩ := builds.header
  exact ⟨reply, rfl, magic, type, small,
    ProtocolMessageCodec.onRead_serialize magic small stored⟩

/-- A reply that was never written to shows the memory it was given. -/
theorem writtenReply_of_untouched {server : ResolveServer}
    {conns : FiniteMap Nat ServiceConnection} {conn : Nat} {connection : ServiceConnection}
    {handled : Handled} (returned : server.onMessage conns conn connection req = some handled)
    (untouched : handled.reply = none) (memory : ProtocolMessage) :
    server.writtenReply conns conn connection req memory = some memory.serialize := by
  simp only [writtenReply, returned, untouched]

theorem not_repliesCleanly_of_untouched {server : ResolveServer}
    {conns : FiniteMap Nat ServiceConnection} {conn : Nat} {connection : ServiceConnection}
    {handled : Handled} (returned : server.onMessage conns conn connection req = some handled)
    (untouched : handled.reply = none) : ¬ server.RepliesCleanly conns conn connection req := by
  intro cleanly
  obtain ⟨bytes, same, _⟩ := cleanly
  let zeros : ProtocolMessage :=
    ⟨0, 0, 0, 0, List.replicate ProtocolMessage.kMaxProtocolDataSize 0⟩
  have whole : ProtocolMessage.kMaxProtocolDataSize ≤ zeros.data.length :=
    Nat.le_of_eq List.length_replicate.symm
  have first := same zeros whole
  have second := same { zeros with type := 1 } whole
  rw [writtenReply_of_untouched returned untouched] at first second
  cases first.trans second.symm

/-- The reply to a request shows nothing of the memory it was built in, and is one
frame, exactly if a builder is constructed on the way. -/
theorem repliesCleanly_iff {server : ResolveServer} {tree : Option PropertyTree}
    {interface : ResolveServerConf.Interface}
    (accepted : ResolveServerConf.createFromFile tree = some (interface, server.conf))
    (fits : server.conf.FitsFields) (conns : FiniteMap Nat ServiceConnection) (conn : Nat)
    (connection : ServiceConnection) (req : ResolveRequest) :
    server.RepliesCleanly conns conn connection req ↔
      server.ReachesBuilder conns connection req := by
  have indexed := ResolveServerConf.indexed_createFromFile accepted
  rw [@reachesBuilder_iff server conns conn]
  constructor
  · intro cleanly
    cases returned : server.onMessage conns conn connection req with
    | none =>
        obtain ⟨bytes, same, _⟩ := cleanly
        have written := same ⟨0, 0, 0, 0, List.replicate ProtocolMessage.kMaxProtocolDataSize 0⟩
          (Nat.le_of_eq List.length_replicate.symm)
        simp [writtenReply, returned] at written
    | some handled =>
        cases touched : handled.reply with
        | some resp => exact ⟨handled, resp, rfl, touched⟩
        | none => exact absurd cleanly (not_repliesCleanly_of_untouched returned touched)
  · intro answered
    obtain ⟨handled, resp, returned, fields⟩ := answered
    obtain ⟨reply, built, builds⟩ := builds_of_onMessage returned fields
    refine ⟨reply.serialize, fun memory _ => ?_, builds.isResponseFrame indexed fits⟩
    simp only [writtenReply, returned, fields, built, Option.map_some]

end ResolveServer

namespace Service

/-- A file with one node, and what is made of it. -/
def someTextTree : PropertyTree where
  interface := some [.server (some .tcp) (some [49, 48, 46, 48, 46, 48, 46, 49]) (some 9999)]
  nodes := some [.node (some [47, 98, 47]) (some [49, 48, 46, 48, 46, 48, 46, 55]) (some 8123)]

def someTextConf : ResolveServerConf :=
  ResolveServerConf.empty.addNode someTextNode (ResolveServerConf.absent_empty someTextNode)

theorem someTextTree_accepted : ResolveServerConf.createFromFile (some someTextTree) =
    some (⟨some ⟨[49, 48, 46, 48, 46, 48, 46, 49], 9999⟩, none⟩, someTextConf) := rfl

theorem someTextConf_fits : someTextConf.FitsFields := by
  intro nodeAddr node listed
  have member : node ∈ someTextConf.nodes.values := FiniteMap.mem_values.mpr ⟨nodeAddr, listed⟩
  have fits : ∀ node ∈ someTextConf.nodes.values, node.FitsFields := by
    intro node member
    cases List.mem_singleton.mp member
    exact ⟨by decide, by decide⟩
  exact fits node member

/-- The first request of the node's daemon. -/
theorem repliesCleanly_iff_initialize :
    (ResolveServer.mk someTextConf ∅).RepliesCleanly ∅ 0 someConnection someInitialize := by
  refine (ResolveServer.repliesCleanly_iff someTextTree_accepted someTextConf_fits ∅ 0
    someConnection someInitialize).mpr ?_
  intro node _
  exact ⟨0, rfl⟩

/-- A request of type 7 is answered with whatever the memory held. -/
theorem not_repliesCleanly_unknownType :
    ResolveServerConf.createFromFile (some someTextTree) =
        some (⟨some ⟨[49, 48, 46, 48, 46, 48, 46, 49], 9999⟩, none⟩, someTextConf) ∧
      someTextConf.FitsFields ∧
      ¬ (ResolveServer.mk someTextConf ∅).RepliesCleanly ∅ 0 someConnection
        ⟨.unknown 7, 0, 0, 0⟩ :=
  ⟨someTextTree_accepted, someTextConf_fits,
    ResolveServer.not_repliesCleanly_of_untouched rfl rfl⟩

end Service

end Cpmd
