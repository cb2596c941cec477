import Cpmd.HandShakeRefusal

/-! A handshake that succeeds, from the client's request to the buses it opens: what each
side reads of the other's message, and whose buses the client ends up with. -/

set_option autoImplicit false

namespace Cpmd

open Library

namespace ClientImpl

variable {m name : List UInt8} (sized : m.length = ProtocolMessage.sizeof)

include sized in
theorem data_request (name : List UInt8) (bufferSize : Int32) :
    (ProtocolMessage.overlay (request m name bufferSize)).data =
      LittleEndian.bytes bufferSize.toUInt32 ++ (Memory.strncpy 0 kMaxNameSize name ++
        m.drop (ProtocolMessage.kMinProtocolMessageSize + 4 + kMaxNameSize)) := by
  have named : (Memory.write m (ProtocolMessage.kMinProtocolMessageSize + 4)
      (Memory.strncpy 0 kMaxNameSize name)).length = ProtocolMessage.sizeof := by
    refine (Memory.length_write ?_).trans sized
    rw [sized, Memory.length_strncpy]
    decide
  have inside : ProtocolMessage.kMinProtocolMessageSize ≤ (Memory.write m
      (ProtocolMessage.kMinProtocolMessageSize + 4)
      (Memory.strncpy 0 kMaxNameSize name)).length := by
    rw [named]
    decide
  have before : ProtocolMessage.kMinProtocolMessageSize + 4 ≤ m.length := by
    rw [sized]
    decide
  change (request m name bufferSize).drop ProtocolMessage.kMinProtocolMessageSize = _
  rw [request, Memory.drop_write inside, LittleEndian.length_bytes, Memory.drop_write before,
    Memory.length_strncpy]

include sized in
/-- The daemon reads the name up to its first NUL if that fits, and else goes on behind
its field. -/
theorem handShakeName_request (name : List UInt8) (bufferSize : Int32) :
    Host.handShakeName (request m name bufferSize) =
      if (Memory.string 0 name).length < kMaxNameSize then Memory.string 0 name
      else (Memory.string 0 name).take kMaxNameSize ++ Memory.string 0
        (m.drop (ProtocolMessage.kMinProtocolMessageSize + 4 + kMaxNameSize)) := by
  have data := data_request sized name bufferSize
  rw [Host.handShakeName, HandShakeRequest.ofData, data]
  dsimp only
  rw [List.drop_left' (LittleEndian.length_bytes _), Memory.string_strncpy_append]

end ClientImpl

/-- A string that its field holds together with the NUL behind it. -/
def FitsField (width : Nat) (value : List UInt8) : Prop :=
  value.length < width ∧ (0 : UInt8) ∉ value

theorem FitsField.string_strncpy_append {width : Nat} {value : List UInt8}
    (fits : FitsField width value)
    (rest : List UInt8) :
    Memory.string 0 (Memory.strncpy 0 width value ++ rest) = value := by
  rw [Memory.string_strncpy_append, Memory.string_of_not_mem fits.2, if_pos fits.1]

namespace Host

variable {out : List UInt8} (sized : out.length = ProtocolMessage.sizeof)

include sized in
theorem ofMessage_writeReply {input output : List UInt8} (inputFits : FitsField kMaxPathSize input)
    (outputFits : FitsField kMaxPathSize output) :
    HandShakeResponse.ofMessage (writeReply out ⟨.kOk, input, output⟩) =
      ⟨.kOk, input, output⟩ := by
  have code := half_writeReply sized ⟨.kOk, input, output⟩
  have first := length_writeOutputPath (length_writeCode sized .kOk) output
  have inside : ProtocolMessage.kMinProtocolMessageSize + 2 ≤ (Memory.write (writeCode out .kOk)
      (ProtocolMessage.kMinProtocolMessageSize + 2 + kMaxPathSize)
      (Memory.strncpy 0 kMaxPathSize output)).length := by
    rw [first]
    decide
  have behind : ProtocolMessage.kMinProtocolMessageSize + 2 + kMaxPathSize ≤
      (writeCode out .kOk).length := by
    rw [length_writeCode sized]
    decide
  have paths : (writeReply out ⟨.kOk, input, output⟩).drop
      (ProtocolMessage.kMinProtocolMessageSize + 2) =
      Memory.strncpy 0 kMaxPathSize input ++ (Memory.strncpy 0 kMaxPathSize output ++
        (writeCode out .kOk).drop
          (ProtocolMessage.kMinProtocolMessageSize + 2 + kMaxPathSize + kMaxPathSize)) := by
    rw [writeReply, if_pos rfl, writePaths, Memory.drop_write inside, Memory.length_strncpy,
      Memory.drop_write behind, Memory.length_strncpy]
  simp only [HandShakeResponse.ofMessage, HandShakeResponse.ofData, ProtocolMessage.overlay, code,
    List.drop_drop]
  rw [← Nat.add_assoc, ← List.drop_drop (i := kMaxPathSize), paths,
    List.drop_left' (Memory.length_strncpy _ _), inputFits.string_strncpy_append,
    outputFits.string_strncpy_append]
  rfl

theorem fits_getBusPath {host : Host} {suffix name : List UInt8}
    (located : (0 : UInt8) ∉ host.busLocation) (named : (0 : UInt8) ∉ name)
    (ends : (0 : UInt8) ∉ suffix) : FitsField kMaxPathSize (host.getBusPath suffix name) := by
  constructor
  · exact Nat.lt_of_le_of_lt (List.length_take_le _ _) (by decide)
  · intro member
    have whole := List.mem_of_mem_take member
    simp [located, named, ends, Address.slash] at whole

/-- The register server's side of `SendAndRecv`; where it sends nothing the client waits
in vain. -/
def exchange (host : Host) (restoreOrCreate : List UInt8 → UInt32 → Option (List (List UInt8)))
    (out sent : List UInt8) : Except Status (List UInt8) :=
  match (host.replyTo restoreOrCreate sent out).2 with
  | some reply => .ok reply
  | none => .error .kSocketTimeout

/-- The daemon's side where both buses can be opened for the name it has read. -/
theorem replyTo_of_opened {host : Host}
    {restoreOrCreate : List UInt8 → UInt32 → Option (List (List UInt8))} {data name : List UInt8}
    {input output : List (List UInt8)} (whole : data.length = ProtocolMessage.sizeof)
    (named : handShakeName data = name)
    (restored : restoreOrCreate (host.getInputBusPath name)
      (LittleEndian.word (ProtocolMessage.overlay data).data) = some input)
    (created : restoreOrCreate (host.getOutputBusPath name)
      (LittleEndian.word (ProtocolMessage.overlay data).data) = some output)
    (out : List UInt8) :
    host.replyTo restoreOrCreate data out =
      (host.register (Address.create name).clientAddr (host.newClient name input output),
        some (writeReply out
          ⟨.kOk, host.getOutputBusPath name, host.getInputBusPath name⟩)) := by
  subst named
  rw [replyTo, handleInitCommand, if_neg (not_not_intro whole)]
  simp only [handShakeName, HandShakeRequest.ofData] at restored created ⊢
  rw [restored, created]
  rfl

/-- The client is registered if there is none under its key, and else all stay as they are. -/
theorem find_register_eq (host : Host) (key other : UInt32) (client : LocalClient) :
    (host.register key client).clients.find other =
      if other = key ∧ host.clients.find other = none then some client
      else host.clients.find other := by
  rw [find_register]
  by_cases own : other = key
  · subst own
    cases found : host.clients.find other <;> simp
  · simp [own]

end Host

namespace ClientImpl

/-- Whatever the two messages' memory held before, the daemon reads the client's own name, and
registers it with these two buses if its key is free; and the client takes the bus that was
opened for the daemon's writes as its input, and the other as its output. If another client
stands under the key, the daemon uses neither. -/
theorem init_wires {host : Host}
    {restoreOrCreate : List UInt8 → UInt32 → Option (List (List UInt8))}
    {m name out : List UInt8} {bufferSize : Int32} {input output : List (List UInt8)}
    (sized : m.length = ProtocolMessage.sizeof) (left : out.length = ProtocolMessage.sizeof)
    (named : FitsField kMaxNameSize name) (located : (0 : UInt8) ∉ host.busLocation)
    (restored : restoreOrCreate (host.getInputBusPath name) bufferSize.toUInt32 = some input)
    (created : restoreOrCreate (host.getOutputBusPath name) bufferSize.toUInt32 = some output)
    (restoreFrom : List UInt8 → Int32 → Option (List (List UInt8))) :
    (host.replyTo restoreOrCreate (request m name bufferSize) out).1 =
        host.register (Address.create name).clientAddr (host.newClient name input output) ∧
      (∀ key, (host.replyTo restoreOrCreate (request m name bufferSize) out).1.clients.find key =
        if key = (Address.create name).clientAddr ∧ host.clients.find key = none then
          some (host.newClient name input output)
        else host.clients.find key) ∧
      init m name bufferSize .kOk (host.exchange restoreOrCreate out) restoreFrom =
        match restoreFrom (host.getOutputBusPath name) bufferSize,
            restoreFrom (host.getInputBusPath name) bufferSize with
        | some input, some output => (.kOk, some ⟨input, output⟩)
        | _, _ => (.kCreateBusFailed, none) := by
  have read : Host.handShakeName (request m name bufferSize) = name := by
    rw [handShakeName_request sized, Memory.string_of_not_mem named.2, if_pos named.1]
  have size : LittleEndian.word (ProtocolMessage.overlay (request m name bufferSize)).data =
      bufferSize.toUInt32 := by
    rw [data_request sized, LittleEndian.word_bytes_append]
  rw [← size] at restored created
  have replied := Host.replyTo_of_opened (length_request sized name bufferSize) read restored
    created out
  have seen : HandShakeResponse.ofMessage (Host.writeReply out
      ⟨.kOk, host.getOutputBusPath name, host.getInputBusPath name⟩) =
      ⟨.kOk, host.getOutputBusPath name, host.getInputBusPath name⟩ :=
    Host.ofMessage_writeReply left (Host.fits_getBusPath located named.2 (by decide))
      (Host.fits_getBusPath located named.2 (by decide))
  have received : sendAndRecv (host.exchange restoreOrCreate out) (request m name bufferSize) =
      .ok (Host.writeReply out
        ⟨.kOk, host.getOutputBusPath name, host.getInputBusPath name⟩) := by
    simp [sendAndRecv, Host.exchange, replied, Host.length_writeReply left]
  refine ⟨congrArg Prod.fst replied, fun key => ?_, ?_⟩
  · rw [replied]
    exact host.find_register_eq _ _ _
  cases first : restoreFrom (host.getOutputBusPath name) bufferSize with
  | none => simp [init, received, seen, first]
  | some _ =>
      cases second : restoreFrom (host.getInputBusPath name) bufferSize with
      | none => simp [init, received, seen, first, second]
      | some _ => simp [init, received, seen, first, second]

/-- The client `a` on a host without clients, and then `b/a`, which has the same key. -/
theorem init_wires_fresh :
    init cleared [97] 4096 .kOk (freshHost.exchange (fun _ _ => some []) cleared)
        (fun _ _ => some []) = (.kOk, some ⟨[], []⟩) ∧
      ∃ host, host = (freshHost.replyTo (fun _ _ => some []) (request cleared [97] 4096)
          cleared).1 ∧
        host.clients.find (Address.create [97]).clientAddr =
          some (freshHost.newClient [97] [] []) ∧
        init cleared [98, 47, 97] 4096 .kOk (host.exchange (fun _ _ => some []) cleared)
          (fun _ _ => some []) = (.kOk, some ⟨[], []⟩) ∧
        ∀ key, (host.replyTo (fun _ _ => some []) (request cleared [98, 47, 97] 4096)
          cleared).1.clients.find key = host.clients.find key := by
  obtain ⟨registered, found, wired⟩ := @init_wires freshHost (fun _ _ => some []) cleared [97]
    cleared 4096 [] [] length_cleared length_cleared ⟨by decide, by decide⟩ (by decide) rfl rfl
    fun _ _ => some []
  obtain ⟨_, same, again⟩ := @init_wires (freshHost.replyTo (fun _ _ => some [])
    (request cleared [97] 4096) cleared).1 (fun _ _ => some []) cleared [98, 47, 97] cleared 4096
    [] [] length_cleared length_cleared ⟨by decide, by decide⟩ (by rw [registered]; decide) rfl rfl
    fun _ _ => some []
  have taken := found (Address.create [97]).clientAddr
  rw [if_pos ⟨rfl, rfl⟩] at taken
  refine ⟨wired, _, rfl, taken, again, fun key => ?_⟩
  rw [same, if_neg]
  rintro ⟨rfl, free⟩
  have shared : (Address.create [98, 47, 97]).clientAddr = (Address.create [97]).clientAddr := by
    decide
  rw [shared, taken] at free
  cases free

end ClientImpl

end Cpmd
