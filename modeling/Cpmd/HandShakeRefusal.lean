import Cpmd.ClientImpl
import Cpmd.HostProperties

/-! A handshake as the client and the daemon see it in their messages' memory, and what
the client makes of a reply that refuses it. -/

set_option autoImplicit false

namespace Cpmd

open Library

namespace HandShakeError

def ofInt16 (value : Int16) : HandShakeError :=
  if value = 0 then .kOk
  else if value = -100 then .kAlreadyRegistered
  else if value = -101 then .kFailedToCreateBus
  else .unknown value

def toInt16 : HandShakeError → Int16
  | .kOk => 0
  | .kAlreadyRegistered => -100
  | .kFailedToCreateBus => -101
  | .unknown value => value

end HandShakeError

/-- `as<HandShakeResponse*>()`. A path goes on up to the next NUL, be it outside its
field. -/
def HandShakeResponse.ofData (data : List UInt8) : HandShakeResponse where
  code := .ofInt16 (LittleEndian.half data).toInt16
  inputTunnelPath := Memory.string 0 (data.drop 2)
  outputTunnelPath := Memory.string 0 (data.drop (2 + kMaxPathSize))

/-- The response in the memory of a message. -/
def HandShakeResponse.ofMessage (bytes : List UInt8) : HandShakeResponse :=
  .ofData (ProtocolMessage.overlay bytes).data

namespace Host

def writeCode (out : List UInt8) (code : HandShakeError) : List UInt8 :=
  Memory.write out ProtocolMessage.kMinProtocolMessageSize
    (LittleEndian.halfBytes code.toInt16.toUInt16)

def writePaths (out : List UInt8) (reply : HandShakeResponse) : List UInt8 :=
  let field := ProtocolMessage.kMinProtocolMessageSize + 2
  let out := Memory.write out (field + kMaxPathSize)
    (Memory.strncpy 0 kMaxPathSize reply.outputTunnelPath)
  Memory.write out field (Memory.strncpy 0 kMaxPathSize reply.inputTunnelPath)

/-- What is written of a response over the message `out`: the paths only with `kOk`. -/
def writeReply (out : List UInt8) (reply : HandShakeResponse) : List UInt8 :=
  let out := writeCode out reply.code
  if reply.code = .kOk then writePaths out reply else out

/-- `HandleInitCommand` with the message `out` of the output buffer as it was left, and
the datagram that is sent. -/
def replyTo (host : Host) (restoreOrCreate : List UInt8 → UInt32 → Option (List (List UInt8)))
    (data out : List UInt8) : Host × Option (List UInt8) :=
  let handled := host.handleInitCommand restoreOrCreate data (.ofMessage out)
  (handled.1, handled.2.map (writeReply out))

end Host

namespace ClientImpl

/-- `m` is the memory of the local message. -/
def request (m name : List UInt8) (bufferSize : Int32) : List UInt8 :=
  let field := ProtocolMessage.kMinProtocolMessageSize
  let m := Memory.write m (field + 4) (Memory.strncpy 0 kMaxNameSize name)
  Memory.write m field (LittleEndian.bytes bufferSize.toUInt32)

/-- `SendAndRecv` with a message to be filled; `exchange` is the one with a string. -/
def sendAndRecv (exchange : List UInt8 → Except Status (List UInt8)) (sent : List UInt8) :
    Except Status (List UInt8) :=
  match exchange sent with
  | .error status => .error status
  | .ok reply =>
      if reply.length ≠ ProtocolMessage.sizeof then .error .kInvalidReply else .ok reply

/-- `connected` is the result of `ConnectTo`, and `restoreFrom` gives the records of the
bus that a path is opened as, or nothing. -/
def init (m name : List UInt8) (bufferSize : Int32) (connected : Status)
    (exchange : List UInt8 → Except Status (List UInt8))
    (restoreFrom : List UInt8 → Int32 → Option (List (List UInt8))) :
    Status × Option ClientImpl :=
  if connected ≠ .kOk then (connected, none)
  else
    match sendAndRecv exchange (request m name bufferSize) with
    | .error status => (status, none)
    | .ok reply =>
        let resp := HandShakeResponse.ofMessage reply
        match restoreFrom resp.inputTunnelPath bufferSize,
            restoreFrom resp.outputTunnelPath bufferSize with
        | some input, some output => (.kOk, some ⟨input, output⟩)
        | _, _ => (.kCreateBusFailed, none)

end ClientImpl

namespace Host

variable {host after : Host} {restoreOrCreate : List UInt8 → UInt32 → Option (List (List UInt8))}
  {data out reply : List UInt8}

theorem length_writeCode (sized : out.length = ProtocolMessage.sizeof) (code : HandShakeError) :
    (writeCode out code).length = ProtocolMessage.sizeof := by
  refine (Memory.length_write ?_).trans sized
  rw [sized, LittleEndian.length_halfBytes]
  decide

theorem length_writeOutputPath (sized : out.length = ProtocolMessage.sizeof)
    (path : List UInt8) :
    (Memory.write out (ProtocolMessage.kMinProtocolMessageSize + 2 + kMaxPathSize)
      (Memory.strncpy 0 kMaxPathSize path)).length = ProtocolMessage.sizeof := by
  refine (Memory.length_write ?_).trans sized
  rw [sized, Memory.length_strncpy]
  decide

theorem length_writePaths (sized : out.length = ProtocolMessage.sizeof)
    (response : HandShakeResponse) :
    (writePaths out response).length = ProtocolMessage.sizeof := by
  have first := length_writeOutputPath sized response.outputTunnelPath
  refine (Memory.length_write ?_).trans first
  rw [first, Memory.length_strncpy]
  decide

theorem take_writePaths (sized : out.length = ProtocolMessage.sizeof)
    (response : HandShakeResponse) :
    (writePaths out response).take (ProtocolMessage.kMinProtocolMessageSize + 2) =
      out.take (ProtocolMessage.kMinProtocolMessageSize + 2) := by
  have first := length_writeOutputPath sized response.outputTunnelPath
  rw [writePaths, Memory.take_write_of_le (Nat.le_refl _), Memory.take_write_of_le]
  · exact Nat.le_add_right _ _
  · rw [sized]
    decide
  · rw [first]
    decide

theorem half_writeReply (sized : out.length = ProtocolMessage.sizeof)
    (response : HandShakeResponse) :
    LittleEndian.half ((writeReply out response).drop ProtocolMessage.kMinProtocolMessageSize) =
      response.code.toInt16.toUInt16 := by
  have start : (writeReply out response).take (ProtocolMessage.kMinProtocolMessageSize + 2) =
      (writeCode out response.code).take (ProtocolMessage.kMinProtocolMessageSize + 2) := by
    rw [writeReply]
    split
    · exact take_writePaths (length_writeCode sized response.code) response
    · rfl
  have inside : ProtocolMessage.kMinProtocolMessageSize ≤ out.length := by
    rw [sized]
    decide
  rw [← LittleEndian.half_take, List.take_drop, start, ← List.take_drop]
  rw [LittleEndian.half_take, writeCode, Memory.drop_write inside]
  exact LittleEndian.half_halfBytes_append _ _

theorem length_writeReply (sized : out.length = ProtocolMessage.sizeof)
    (response : HandShakeResponse) :
    (writeReply out response).length = ProtocolMessage.sizeof := by
  rw [writeReply]
  split
  · exact length_writePaths (length_writeCode sized response.code) response
  · exact length_writeCode sized response.code

/-- Both buses are opened, and are empty. -/
theorem replyTo_opened (host : Host) (sized : data.length = ProtocolMessage.sizeof)
    (out : List UInt8) :
    host.replyTo (fun _ _ => some []) data out =
      (host.register (Address.create (handShakeName data)).clientAddr
          (host.newClient (handShakeName data) [] []),
        some (writeReply out ⟨.kOk, host.getOutputBusPath (handShakeName data),
          host.getInputBusPath (handShakeName data)⟩)) := by
  rw [replyTo, handleInitCommand, if_neg (not_not.mpr sized)]
  rfl

/-- No bus can be opened. -/
theorem replyTo_failed (host : Host) (sized : data.length = ProtocolMessage.sizeof)
    (out : List UInt8) :
    host.replyTo (fun _ _ => none) data out = (host, some (writeCode out .kFailedToCreateBus)) := by
  rw [replyTo, handleInitCommand, if_neg (not_not.mpr sized)]
  rfl

/-- The paths in the message are those that were there. -/
theorem ofMessage_writeCode (sized : out.length = ProtocolMessage.sizeof)
    (code : HandShakeError) :
    HandShakeResponse.ofMessage (writeCode out code) =
      { HandShakeResponse.ofMessage out with code := .ofInt16 code.toInt16 } := by
  have inside : ProtocolMessage.kMinProtocolMessageSize ≤ out.length := by
    rw [sized]
    decide
  have beyond : (LittleEndian.halfBytes code.toInt16.toUInt16).drop (2 + kMaxPathSize) = [] :=
    List.drop_eq_nil_of_le (by rw [LittleEndian.length_halfBytes]; exact Nat.le_add_right _ _)
  simp only [HandShakeResponse.ofMessage, HandShakeResponse.ofData, ProtocolMessage.overlay,
    writeCode, Memory.drop_write inside]
  simp [beyond, List.drop_append, List.drop_drop, Nat.add_assoc]

/-- A reply with another code than `kOk` holds that code and, as paths, what was left in
the output buffer. -/
theorem refused_replyTo (sized : out.length = ProtocolMessage.sizeof)
    (replied : host.replyTo restoreOrCreate data out = (after, some reply))
    (refused : (HandShakeResponse.ofMessage reply).code ≠ .kOk) :
    after = host ∧ reply = writeCode out .kFailedToCreateBus := by
  obtain ⟨server, written⟩ := Prod.mk.inj replied
  obtain ⟨response, answered, sent⟩ := Option.map_eq_some_iff.mp written
  rcases host.handleInitCommand_cases restoreOrCreate data (.ofMessage out) with
    ⟨same, code⟩ | ⟨input, output, accepted⟩
  · have failed := code response answered
    refine ⟨server.symm.trans same, ?_⟩
    rw [← sent, writeReply, failed, if_neg (by decide)]
  · rw [accepted] at answered
    cases answered
    have read := half_writeReply sized
      ⟨.kOk, host.getOutputBusPath (handShakeName data), host.getInputBusPath (handShakeName data)⟩
    rw [sent] at read
    refine absurd ?_ refused
    simp only [HandShakeResponse.ofMessage, HandShakeResponse.ofData, ProtocolMessage.overlay, read]
    rfl

end Host

namespace ClientImpl

theorem length_request {m : List UInt8} (sized : m.length = ProtocolMessage.sizeof)
    (name : List UInt8) (bufferSize : Int32) :
    (request m name bufferSize).length = ProtocolMessage.sizeof := by
  have named : (Memory.write m (ProtocolMessage.kMinProtocolMessageSize + 4)
      (Memory.strncpy 0 kMaxNameSize name)).length = ProtocolMessage.sizeof := by
    refine (Memory.length_write ?_).trans sized
    rw [sized, Memory.length_strncpy]
    decide
  refine (Memory.length_write ?_).trans named
  rw [named, LittleEndian.length_bytes]
  decide

theorem init_eq_kOk_iff {m name reply : List UInt8} {bufferSize : Int32}
    (exchange : List UInt8 → Except Status (List UInt8))
    (received : exchange (request m name bufferSize) = .ok reply)
    (sized : reply.length = ProtocolMessage.sizeof)
    (restoreFrom : List UInt8 → Int32 → Option (List (List UInt8))) :
    (init m name bufferSize .kOk exchange restoreFrom).1 = .kOk ↔
      restoreFrom (HandShakeResponse.ofMessage reply).inputTunnelPath bufferSize ≠ none ∧
        restoreFrom (HandShakeResponse.ofMessage reply).outputTunnelPath bufferSize ≠ none := by
  simp only [init, sendAndRecv, received, sized, ne_eq, not_true_eq_false, if_false]
  cases restoreFrom (HandShakeResponse.ofMessage reply).inputTunnelPath bufferSize with
  | none => simp
  | some input =>
      cases restoreFrom (HandShakeResponse.ofMessage reply).outputTunnelPath bufferSize with
      | none => simp
      | some output => simp

/-- A refused handshake is reported to the client, and leaves the daemon's clients as
they were, exactly if a bus cannot be restored from one of the paths that an earlier
reply has left in the output buffer. -/
theorem init_reports_iff {host after : Host}
    {restoreOrCreate : List UInt8 → UInt32 → Option (List (List UInt8))}
    {m name out reply : List UInt8} {bufferSize : Int32}
    (sized : out.length = ProtocolMessage.sizeof)
    (replied : host.replyTo restoreOrCreate (request m name bufferSize) out =
      (after, some reply))
    (refused : (HandShakeResponse.ofMessage reply).code ≠ .kOk)
    (exchange : List UInt8 → Except Status (List UInt8))
    (received : exchange (request m name bufferSize) = .ok reply)
    (restoreFrom : List UInt8 → Int32 → Option (List (List UInt8))) :
    ((init m name bufferSize .kOk exchange restoreFrom).1 ≠ .kOk ∧
        after.clients = host.clients) ↔
      restoreFrom (HandShakeResponse.ofMessage out).inputTunnelPath bufferSize = none ∨
        restoreFrom (HandShakeResponse.ofMessage out).outputTunnelPath bufferSize = none := by
  obtain ⟨same, sent⟩ := Host.refused_replyTo sized replied refused
  have width : reply.length = ProtocolMessage.sizeof := by
    rw [sent]
    exact Host.length_writeCode sized .kFailedToCreateBus
  rw [Ne, init_eq_kOk_iff exchange received width, sent, Host.ofMessage_writeCode sized, same]
  simp only [and_true, ne_eq, not_and_or, not_not]

/-- For examples, the memory of a message in which nothing has been written. -/
def cleared : List UInt8 := List.replicate ProtocolMessage.sizeof 0

def freshHost : Host := Host.initial 8123 Daemon.someResolveServer [47, 116, 109, 112]

theorem length_cleared : cleared.length = ProtocolMessage.sizeof := List.length_replicate

/-- Both buses of a client are missing, and the output buffer holds no paths. -/
theorem init_reports_iff_cleared :
    (init cleared [98] 4096 .kOk
        (fun _ => .ok (Host.writeCode cleared .kFailedToCreateBus)) (fun _ _ => none)).1 ≠
      .kOk := by
  have refused : (HandShakeResponse.ofMessage
      (Host.writeCode cleared .kFailedToCreateBus)).code ≠ .kOk := by
    rw [Host.ofMessage_writeCode length_cleared]
    decide
  have reported := init_reports_iff length_cleared
    (freshHost.replyTo_failed (length_request length_cleared [98] 4096) cleared)
    refused (fun _ => .ok (Host.writeCode cleared .kFailedToCreateBus)) rfl (fun _ _ => none)
  exact (reported.mpr (.inl rfl)).1

def firstReply : HandShakeResponse :=
  ⟨.kOk, freshHost.getOutputBusPath [97], freshHost.getInputBusPath [97]⟩

/-- The reply to `a` is still in the output buffer when `b` is refused, and `b` takes
the buses of `a` for its own. -/
theorem not_init_reports_stale :
    ∃ registered out reply,
      freshHost.replyTo (fun _ _ => some []) (request cleared [97] 4096) cleared =
        (registered, some out) ∧
      registered.replyTo (fun _ _ => none) (request cleared [98] 4096) out =
        (registered, some reply) ∧
      (HandShakeResponse.ofMessage reply).code = .kFailedToCreateBus ∧
      (init cleared [98] 4096 .kOk (fun _ => .ok reply) fun path _ =>
        if path = freshHost.getInputBusPath [97] ∨ path = freshHost.getOutputBusPath [97] then
          some []
        else none).1 = .kOk := by
  have named : Host.handShakeName (request cleared [97] 4096) = [97] := by decide +kernel
  have accepted : freshHost.replyTo (fun _ _ => some []) (request cleared [97] 4096) cleared =
      (freshHost.register (Host.someKey [97]) (freshHost.newClient [97] [] []),
        some (Host.writeReply cleared firstReply)) := by
    rw [freshHost.replyTo_opened (length_request length_cleared [97] 4096) cleared, named]
    rfl
  have left : HandShakeResponse.ofMessage (Host.writeReply cleared firstReply) = firstReply := by
    decide +kernel
  have sized := Host.length_writeReply length_cleared firstReply
  have stale : HandShakeResponse.ofMessage (Host.writeCode (Host.writeReply cleared firstReply)
      .kFailedToCreateBus) = { firstReply with code := .kFailedToCreateBus } := by
    rw [Host.ofMessage_writeCode sized, left]
    rfl
  refine ⟨_, _, _, accepted, Host.replyTo_failed _ (length_request length_cleared [98] 4096) _,
    congrArg HandShakeResponse.code stale, ?_⟩
  refine (init_eq_kOk_iff (fun _ => .ok _) rfl
    (Host.length_writeCode sized .kFailedToCreateBus) _).mpr ?_
  rw [stale]
  constructor
  · rw [if_pos (.inr rfl)]
    exact Option.some_ne_none []
  · rw [if_pos (.inl rfl)]
    exact Option.some_ne_none []

end ClientImpl

end Cpmd
