import Cpmd.Host
import Cpmd.MessageCodec
import Cpmd.ProtocolBuilder
import Cpmd.ProtocolMessageCodec
import Cpmd.ResolveServerProperties
import Cpmd.ServerProperties
import Cpmd.Library.Dispatch

/-! The receive loops together with the callbacks they were given. A callback can
close the connection, but the loop goes on to the next message of its buffer. -/

set_option autoImplicit false

namespace Cpmd

open Library

/-- The codec itself closes the connection here and returns. -/
def MessageCodec.closesAt (buffer : List UInt8) (cursor : Cursor) : Bool :=
  match round buffer cursor with
  | .inr (.closed _) => true
  | .inr (.left _) | .inr (.fault _) | .inl _ => false

def ProtocolMessageCodec.closesAt (buffer behind : List UInt8) (cursor : Cursor) : Bool :=
  match round buffer behind cursor with
  | .inr (.closed _) => true
  | .inr (.left _) | .inr (.fault _) | .inl _ => false

/-- What `OnRead` has done up to this point of its loop. -/
def MessageCodec.actsUpTo {State : Type} (callback : Dispatch.Handler State Message)
    (state : State) (buffer : List UInt8) (cursor : Cursor) : List (Dispatch.Act Message) :=
  Dispatch.trace callback state (cursor.handed.map Prod.snd) (closesAt buffer cursor)

def ProtocolMessageCodec.actsUpTo {State : Type}
    (callback : Dispatch.Handler State ProtocolMessage) (state : State)
    (buffer behind : List UInt8) (cursor : Cursor) : List (Dispatch.Act ProtocolMessage) :=
  Dispatch.trace callback state (cursor.handed.map Prod.snd) (closesAt buffer behind cursor)

/-- Once the connection has been closed, by the codec or by the callback, `OnRead`
passes no message of this buffer to the callback. -/
def MessageCodec.HeedsClose {State : Type} (callback : Dispatch.Handler State Message)
    (state : State) (buffer : List UInt8) : Prop :=
  ∀ cursor, Reaches buffer cursor → Dispatch.HeedsClose (actsUpTo callback state buffer cursor)

def ProtocolMessageCodec.HeedsClose {State : Type}
    (callback : Dispatch.Handler State ProtocolMessage) (state : State)
    (buffer behind : List UInt8) : Prop :=
  ∀ cursor, Loop.Reaches (round buffer behind) (entry buffer) cursor →
    Dispatch.HeedsClose (actsUpTo callback state buffer behind cursor)

/-- Of the messages of this buffer, the callback refuses none but the last. -/
def MessageCodec.RefusedLast {State : Type} (refuses : State → Message → Prop)
    (callback : Dispatch.Handler State Message) (state : State) (buffer : List UInt8) : Prop :=
  ∀ cursor, Reaches buffer cursor →
    Dispatch.RefusedLast refuses callback 0 state (cursor.handed.map Prod.snd)

def ProtocolMessageCodec.RefusedLast {State : Type} (refuses : State → ProtocolMessage → Prop)
    (callback : Dispatch.Handler State ProtocolMessage) (state : State)
    (buffer behind : List UInt8) : Prop :=
  ∀ cursor, Loop.Reaches (round buffer behind) (entry buffer) cursor →
    Dispatch.RefusedLast refuses callback 0 state (cursor.handed.map Prod.snd)

/-- `HandleRemoteNodeMessage`; for each call, `memory` is what lies behind the message. -/
def Host.handleRemoteNodeMessage (written : Nat → Bool) (memory : Nat → List UInt8) :
    Dispatch.Handler Host Message :=
  fun call host m =>
    let handled := host.handleRemoteMessage (written call) (memory call) m
    some (handled.1, !handled.2.2)

/-- `HandleResolveServerMessage`, as the callback of a connection. -/
def Daemon.handleResolveServerMessage (conn : ConnId) :
    Dispatch.Handler Daemon.State ProtocolMessage :=
  fun _ state m =>
    let handled := state.server.handleResolveServerMessage state.network conn
      (.ofProtocolMessage m)
    some ((settle state.network handled).1, decide (.close conn ∈ handled.2))

/-- `ResolveServer::OnMessage`, which looks at the data whatever the message's type. -/
def Service.onMessage (conn : Nat) (written : Nat → Bool) :
    Dispatch.Handler Service.State ProtocolMessage :=
  fun call state m =>
    match step state (.request conn (.ofData m.data) (written call)) with
    | some (after, replied) => some (after, replied.any fun reply => !reply.preserve)
    | none => none

def Host.Refuses (host : Host) (m : Message) : Prop :=
  m.remoteAddress.nodeAddr ≠ host.daemon.server.selfAddress

def Daemon.Refuses (_ : Daemon.State) (m : ProtocolMessage) : Prop :=
  MessageType.ofInt16 m.type ≠ .kResolveResponse

/-- The request names no node of the configuration, claims an address that no
connection or one of another node is registered under, or has no known type. -/
def ResolveServer.Refuses (server : ResolveServer) (conns : FiniteMap Nat ServiceConnection)
    (connection : ServiceConnection) (req : ResolveRequest) : Prop :=
  match req.type with
  | .kInitializeSelf =>
      server.conf.getNodeInfoByNetAddress ⟨connection.peerAddr.ip, req.cpmdPort⟩ = none
  | .kLookupNode =>
      ∀ registered ∈ server.connections.find req.selfAddr,
        ∃ nodeAddr ∈ registeredAddr conns registered, nodeAddr ≠ req.selfAddr
  | .unknown _ => True

def Service.Refuses (conn : Nat) (state : Service.State) (m : ProtocolMessage) : Prop :=
  ∃ connection ∈ state.conns.find conn,
    state.server.Refuses state.conns connection (.ofData m.data)

theorem Host.handleRemoteNodeMessage_closes_iff (written : Nat → Bool)
    (memory : Nat → List UInt8) (call : Nat) (host : Host) (m : Message) :
    (∃ next, handleRemoteNodeMessage written memory call host m = some (next, true)) ↔
      host.Refuses m := by
  unfold handleRemoteNodeMessage handleRemoteMessage Refuses
  by_cases foreign : m.remoteAddress.nodeAddr = host.daemon.server.selfAddress <;> simp [foreign]

theorem Daemon.handleResolveServerMessage_closes_iff (conn : ConnId) (call : Nat)
    (state : Daemon.State) (m : ProtocolMessage) :
    (∃ next, handleResolveServerMessage conn call state m = some (next, true)) ↔
      Refuses state m := by
  have closes : (∃ next, handleResolveServerMessage conn call state m = some (next, true)) ↔
      .close conn ∈ (state.server.handleResolveServerMessage state.network conn
        (.ofProtocolMessage m)).2 := by
    simp [handleResolveServerMessage]
  rw [closes, Refuses, ResolveServerMessage.ofProtocolMessage]
  cases MessageType.ofInt16 m.type with
  | kResolveResponse =>
      simp only [Server.handleResolveServerMessage, ne_eq, not_true_eq_false, iff_false]
      cases (ResolveResponse.ofData m.data).type with
      | kUpdateSelf | unknown _ => simp
      | kUpdateCache =>
          rcases state.server.updateNodeAddressCache_cases state.network (.ofData m.data) with
            ⟨_, _, _, updated⟩ | ⟨_, updated⟩
          · simp [updated, Server.registerNode]
          · simp [updated]
  | kClientHandShake | kResolveRequest | unknown _ => simp [Server.handleResolveServerMessage]

theorem ResolveServer.onMessage_refuses_iff (server : ResolveServer)
    (conns : FiniteMap Nat ServiceConnection) (conn : Nat) (connection : ServiceConnection)
    (req : ResolveRequest) :
    (∃ handled, server.onMessage conns conn connection req = some handled ∧
      handled.preserve = false) ↔ server.Refuses conns connection req := by
  constructor
  · intro refused
    obtain ⟨handled, returned, closes⟩ := refused
    unfold Refuses
    cases handles_of_onMessage returned with
    | initRefused kind missing => simpa only [kind] using missing
    | initialized _ _ _ | lookupFailed _ _ _ _ | found _ _ _ _ => cases closes
    | unregistered kind missing => simp [kind, missing]
    | foreign kind entry held other => simp [kind, entry, held, Ne.symm other]
    | unknown kind => simp only [kind]
  · intro refuses
    unfold Refuses at refuses
    cases kind : req.type with
    | kInitializeSelf =>
        rw [kind] at refuses
        exact ⟨_, (Handles.initRefused kind refuses).onMessage, rfl⟩
    | kLookupNode =>
        rw [kind] at refuses
        cases entry : server.connections.find req.selfAddr with
        | none => exact ⟨_, (Handles.unregistered kind entry).onMessage, rfl⟩
        | some registered =>
            obtain ⟨nodeAddr, held, other⟩ := refuses registered entry
            exact ⟨_, (Handles.foreign kind entry held other.symm).onMessage, rfl⟩
    | unknown type => exact ⟨_, (Handles.unknown kind).onMessage, rfl⟩

theorem Service.onMessage_eq_some {conn : Nat} {written : Nat → Bool} {call : Nat}
    {state next : Service.State} {m : ProtocolMessage} {closes : Bool}
    (returned : onMessage conn written call state m = some (next, closes)) :
    ∃ connection handled, state.conns.find conn = some connection ∧
      state.server.onMessage state.conns conn connection (.ofData m.data) = some handled ∧
      closes = !handled.preserve ∧
      next.conns.find conn = some { connection with
        context := handled.context
        closed := connection.closed || closes } := by
  unfold onMessage at returned
  cases found : state.conns.find conn with
  | none => simp [step, found] at returned
  | some connection =>
      cases answered : state.server.onMessage state.conns conn connection (.ofData m.data) with
      | none => simp [step, found, answered] at returned
      | some handled =>
          obtain ⟨after, stepped, moved⟩ := step_request found answered (written call)
          simp only [stepped, List.any_cons, List.any_nil, Bool.or_false, Option.some.injEq,
            Prod.mk.injEq] at returned
          obtain ⟨rfl, rfl⟩ := returned
          exact ⟨connection, handled, rfl, answered, rfl, moved⟩

theorem Service.onMessage_closes_iff (conn : Nat) (written : Nat → Bool) (call : Nat)
    (state : Service.State) (m : ProtocolMessage) :
    (∃ next, onMessage conn written call state m = some (next, true)) ↔
      Refuses conn state m := by
  constructor
  · intro went
    obtain ⟨next, returned⟩ := went
    obtain ⟨connection, handled, found, answered, closes, _⟩ := onMessage_eq_some returned
    refine ⟨connection, found, ?_⟩
    rw [← state.server.onMessage_refuses_iff state.conns conn]
    exact ⟨handled, answered, by simpa using closes⟩
  · intro stays
    obtain ⟨connection, found, refused⟩ := stays
    rw [← state.server.onMessage_refuses_iff state.conns conn] at refused
    obtain ⟨handled, answered, dropped⟩ := refused
    obtain ⟨after, stepped, _⟩ := step_request found answered (written call)
    exact ⟨after, by simp [onMessage, stepped, dropped]⟩

/-- A request that is not refused leaves the connection as open as it was. -/
theorem Service.onMessage_keeps_open {conn : Nat} {written : Nat → Bool} {call : Nat}
    {state next : Service.State} {m : ProtocolMessage} {closes : Bool}
    (opened : ∀ connection ∈ state.conns.find conn, connection.closed = false)
    (accepted : ¬ Refuses conn state m)
    (returned : onMessage conn written call state m = some (next, closes)) :
    ∀ connection ∈ next.conns.find conn, connection.closed = false := by
  obtain ⟨connection, handled, found, _, _, moved⟩ := onMessage_eq_some returned
  have preserved : closes = false := by
    cases closes with
    | false => rfl
    | true =>
        exact absurd ((onMessage_closes_iff conn written call state m).mp ⟨next, returned⟩) accepted
  intro after held
  rw [Option.mem_def, moved] at held
  cases held
  simp [preserved, opened connection found]

theorem MessageCodec.heedsClose_iff {State : Type} {refuses : State → Message → Prop}
    {callback : Dispatch.Handler State Message}
    (closes : ∀ call state m, (∃ next, callback call state m = some (next, true)) ↔
      refuses state m)
    (state : State) (buffer : List UInt8) :
    HeedsClose callback state buffer ↔ RefusedLast refuses callback state buffer :=
  forall₂_congr fun _ _ => Dispatch.heedsClose_trace_iff closes state _ _

theorem ProtocolMessageCodec.heedsClose_iff {State : Type}
    {refuses : State → ProtocolMessage → Prop}
    {callback : Dispatch.Handler State ProtocolMessage}
    (closes : ∀ call state m, (∃ next, callback call state m = some (next, true)) ↔
      refuses state m)
    (state : State) (buffer behind : List UInt8) :
    HeedsClose callback state buffer behind ↔
      RefusedLast refuses callback state buffer behind :=
  forall₂_congr fun _ _ => Dispatch.heedsClose_trace_iff closes state _ _

/-- With each of the three callbacks, no message is passed on after a close exactly
if no message but the last is refused; each request is then handled on an open
connection. -/
theorem onRead_heedsClose_iff (written : Nat → Bool) (memory : Nat → List UInt8) (host : Host)
    (daemon : Daemon.State) (resolver : ConnId) (service : Service.State) (conn : Nat)
    (buffer behind : List UInt8) :
    (MessageCodec.HeedsClose (Host.handleRemoteNodeMessage written memory) host buffer ↔
      MessageCodec.RefusedLast Host.Refuses (Host.handleRemoteNodeMessage written memory) host
        buffer) ∧
    (ProtocolMessageCodec.HeedsClose (Daemon.handleResolveServerMessage resolver) daemon buffer
        behind ↔
      ProtocolMessageCodec.RefusedLast Daemon.Refuses
        (Daemon.handleResolveServerMessage resolver) daemon buffer behind) ∧
    (ProtocolMessageCodec.HeedsClose (Service.onMessage conn written) service buffer behind ↔
      ProtocolMessageCodec.RefusedLast (Service.Refuses conn) (Service.onMessage conn written)
        service buffer behind) ∧
    (ProtocolMessageCodec.RefusedLast (Service.Refuses conn) (Service.onMessage conn written)
        service buffer behind →
      (∀ connection ∈ service.conns.find conn, connection.closed = false) →
      ∀ cursor, Loop.Reaches (ProtocolMessageCodec.round buffer behind)
          (ProtocolMessageCodec.entry buffer) cursor →
        ∀ earlier m later before, cursor.handed.map Prod.snd = earlier ++ m :: later →
          Dispatch.handled (Service.onMessage conn written) 0 service earlier = some before →
          ∀ connection ∈ before.conns.find conn, connection.closed = false) := by
  refine ⟨?_, ?_, ?_, ?_⟩
  · exact MessageCodec.heedsClose_iff (Host.handleRemoteNodeMessage_closes_iff written memory)
      host buffer
  · exact ProtocolMessageCodec.heedsClose_iff
      (Daemon.handleResolveServerMessage_closes_iff resolver) daemon buffer behind
  · exact ProtocolMessageCodec.heedsClose_iff (Service.onMessage_closes_iff conn written) service
      buffer behind
  · intro last opened cursor reached earlier m later before split served
    exact (last cursor reached).invariant
      (fun state => ∀ connection ∈ state.conns.find conn, connection.closed = false)
      (fun _ _ _ _ _ opened accepted returned =>
        Service.onMessage_keeps_open opened accepted returned) opened split served

namespace Service

/-- The request of a daemon that serves this port. -/
def initializeFrame (port : Int32) : ProtocolMessage :=
  ResolveRequest.Builder.setPort
    (ResolveRequest.Builder.setType ResolveRequest.Builder.create .kInitializeSelf) port

def oneConnection : State :=
  ⟨⟨someConf, ∅⟩, FiniteMap.assign ∅ 0 ⟨somePeerAddr, .timerId 0, false, false⟩, 1,
    FiniteMap.assign ∅ 0 0, 1⟩

/-- The request for the address of a node, from the node itself. -/
def lookupFrame (nodeAddr : UInt32) : ProtocolMessage :=
  ResolveRequest.Builder.setPeerAddress
    (ResolveRequest.Builder.setSelfAddress
      (ResolveRequest.Builder.setType ResolveRequest.Builder.create .kLookupNode) nodeAddr) nodeAddr

/-- The configured port, and behind it, in one buffer, a lookup. -/
def acceptedTwice : List UInt8 :=
  (initializeFrame 8123).serialize ++ (lookupFrame someConfNode.nodeAddr).serialize

theorem acceptedTwice_handed {cursor : ProtocolMessageCodec.Cursor}
    (reached : Loop.Reaches (ProtocolMessageCodec.round acceptedTwice [])
      (ProtocolMessageCodec.entry acceptedTwice) cursor) :
    cursor = ⟨0, 48, []⟩ ∨ cursor = ⟨22, 26, [(0, .overlay acceptedTwice)]⟩ ∨
      cursor =
        ⟨48, 0, [(0, .overlay acceptedTwice), (22, .overlay (acceptedTwice.drop 22))]⟩ := by
  induction reached with
  | refl => exact .inl rfl
  | tail _ goes holds =>
      rcases holds with rfl | rfl | rfl
      · cases goes
        exact .inr (.inl rfl)
      · cases goes
        exact .inr (.inr rfl)
      · cases goes

/-- Neither request is refused, and the connection is open when both are answered. -/
theorem onRead_heedsClose_accepted :
    ProtocolMessageCodec.HeedsClose (onMessage 0 fun _ => true) oneConnection acceptedTwice [] ∧
      ∃ cursor after connection,
        Loop.Reaches (ProtocolMessageCodec.round acceptedTwice [])
          (ProtocolMessageCodec.entry acceptedTwice) cursor ∧
        cursor.handed.length = 2 ∧
        Dispatch.handled (onMessage 0 fun _ => true) 0 oneConnection
          (cursor.handed.map Prod.snd) = some after ∧
        after.conns.find 0 = some connection ∧ connection.closed = false := by
  have accepted : ¬ Refuses 0 oneConnection (.overlay acceptedTwice) := by
    intro refuses
    obtain ⟨connection, member, unknown⟩ := refuses
    cases member
    have missing : someConf.getNodeInfoByNetAddress ⟨somePeerAddr.ip, 8123⟩ = none := unknown
    exact absurd missing (by decide)
  refine ⟨(onRead_heedsClose_iff (fun _ => true) (fun _ => [])
    (Host.initial 8123 somePeerAddr [47, 116, 109, 112])
    (Daemon.State.initial 8123 somePeerAddr) 0 oneConnection 0 acceptedTwice
    []).2.2.1.mpr fun cursor reached => ?_, ?_⟩
  · intro earlier m later split more before served
    rcases acceptedTwice_handed reached with rfl | rfl | rfl
    · cases earlier <;> cases split
    · rcases earlier with _ | ⟨_, _ | _⟩ <;> cases split
      exact absurd rfl more
    · rcases earlier with _ | ⟨_, _ | ⟨_, _ | _⟩⟩ <;> cases split
      · cases served
        exact accepted
      · exact absurd rfl more
  · have first : Loop.Reaches (ProtocolMessageCodec.round acceptedTwice [])
        (ProtocolMessageCodec.entry acceptedTwice)
        ⟨22, 26, [(0, .overlay acceptedTwice)]⟩ := .single rfl
    have second : Loop.Reaches (ProtocolMessageCodec.round acceptedTwice [])
        (ProtocolMessageCodec.entry acceptedTwice)
        ⟨48, 0, [(0, .overlay acceptedTwice), (22, .overlay (acceptedTwice.drop 22))]⟩ :=
      first.round rfl
    exact ⟨_, _, _, second, rfl, rfl, rfl, rfl⟩

/-- A port that is not configured, and behind it, in one buffer, the right one. -/
def refusedThenAccepted : List UInt8 :=
  (initializeFrame 1).serialize ++ (initializeFrame 8123).serialize

theorem refusedThenAccepted_handed :
    Loop.Reaches (ProtocolMessageCodec.round refusedThenAccepted [])
      (ProtocolMessageCodec.entry refusedThenAccepted)
      ⟨44, 0,
        [(0, .overlay refusedThenAccepted), (22, .overlay (refusedThenAccepted.drop 22))]⟩ := by
  have first : Loop.Reaches (ProtocolMessageCodec.round refusedThenAccepted [])
      (ProtocolMessageCodec.entry refusedThenAccepted)
      ⟨22, 22, [(0, .overlay refusedThenAccepted)]⟩ := .single rfl
  exact first.round rfl

/-- The refused connection is closed, and the request behind registers it. -/
theorem not_heedsClose_registers :
    step (State.initial someConf) (.newConnection somePeerAddr) = some (oneConnection, []) ∧
      ¬ ProtocolMessageCodec.HeedsClose (onMessage 0 fun _ => true) oneConnection
        refusedThenAccepted [] ∧
      ∃ cursor after connection,
        Loop.Reaches (ProtocolMessageCodec.round refusedThenAccepted [])
          (ProtocolMessageCodec.entry refusedThenAccepted) cursor ∧
        Dispatch.handled (onMessage 0 fun _ => true) 0 oneConnection
          (cursor.handed.map Prod.snd) = some after ∧
        after.conns.find 0 = some connection ∧ connection.closed = true ∧
        after.server.connections.find someConfNode.nodeAddr = some 0 := by
  have reached := refusedThenAccepted_handed
  refine ⟨rfl, fun heeds => ?_, _, _, _, reached, rfl, rfl, rfl, rfl⟩
  exact heeds _ reached [_] [_] rfl _ (List.mem_singleton.mpr rfl)

end Service

end Cpmd
