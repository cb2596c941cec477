import Cpmd.ClientInfo
import Cpmd.Daemon
import Cpmd.ProtocolMessage
import Cpmd.Library.Memory
import Mathlib.Data.List.Sort

/-! A daemon together with its local clients: how they register by datagrams, and
how messages go between their buses and other nodes. A result `none` is an end
iterator used all the same. -/

set_option autoImplicit false

namespace Cpmd

open Library

def kMaxNameSize : Nat := 1 <<< 7

def kMaxPathSize : Nat := 1 <<< 7

inductive HandShakeError where
  | kOk
  | kAlreadyRegistered
  | kFailedToCreateBus
  | unknown (code : Int16)
deriving DecidableEq

structure HandShakeRequest where
  bufferSize : UInt32
  name : List UInt8
deriving DecidableEq

/-- `as<const HandShakeRequest*>()`. -/
def HandShakeRequest.ofData (data : List UInt8) : HandShakeRequest where
  bufferSize := LittleEndian.word data
  name := Memory.string 0 (data.drop 4)

/-- The paths are those read up to their first NUL. -/
structure HandShakeResponse where
  code : HandShakeError
  inputTunnelPath : List UInt8
  outputTunnelPath : List UInt8
deriving DecidableEq

/-- `sizeof(ProtocolMessage)`: the end of `data`, aligned for `magic`. -/
def ProtocolMessage.sizeof : Nat := (kMinProtocolMessageSize + kMaxProtocolDataSize + 3) / 4 * 4

/-- A registered client, with the paths that its two buses are backed by. -/
structure LocalClient extends ClientInfo where
  inputPath : List UInt8
  outputPath : List UInt8
deriving DecidableEq

structure Host where
  daemon : Daemon.State
  busLocation : List UInt8
  clients : FiniteMap UInt32 LocalClient

namespace Host

/-- `"%s/%s_input.bus"` and `"%s/%s_output.bus"`, behind the name. -/
def inputSuffix : List UInt8 := [95, 105, 110, 112, 117, 116, 46, 98, 117, 115]

def outputSuffix : List UInt8 := [95, 111, 117, 116, 112, 117, 116, 46, 98, 117, 115]

/-- `snprintf` cuts what does not fit, for the terminator as well. -/
def getBusPath (host : Host) (suffix name : List UInt8) : List UInt8 :=
  (host.busLocation ++ Address.slash :: (name ++ suffix)).take (kMaxPathSize - 1)

def getInputBusPath (host : Host) (name : List UInt8) : List UInt8 :=
  host.getBusPath inputSuffix name

def getOutputBusPath (host : Host) (name : List UInt8) : List UInt8 :=
  host.getBusPath outputSuffix name

/-- `out` is what stands in the reply's memory. The result is absent where the
function returns -1; `restoreOrCreate` gives the records of the bus that a path is
opened as, or nothing. -/
def handleInitCommand (host : Host)
    (restoreOrCreate : List UInt8 → UInt32 → Option (List (List UInt8))) (data : List UInt8)
    (out : HandShakeResponse) : Host × Option HandShakeResponse :=
  if data.length ≠ ProtocolMessage.sizeof then (host, none)
  else
    let req := HandShakeRequest.ofData (ProtocolMessage.overlay data).data
    let inputBusPath := host.getInputBusPath req.name
    let outputBusPath := host.getOutputBusPath req.name
    match restoreOrCreate inputBusPath req.bufferSize,
        restoreOrCreate outputBusPath req.bufferSize with
    | some input, some output =>
        let addr := Address.create req.name
        let client : LocalClient := ⟨⟨req.name, addr, input, output⟩, inputBusPath, outputBusPath⟩
        ({ host with clients := (host.clients.emplace addr.clientAddr client).1 },
          some ⟨.kOk, outputBusPath, inputBusPath⟩)
    | _, _ => (host, some { out with code := .kFailedToCreateBus })

/-- What became of a message: `source` is the client whose bus it was read from, if
it is not from another node, `writes` lists the calls of `WriteMessage` with their
results, `bytes` is what these were given, and `droped` and `effects` are what was
dropped for it, and done, when it was forwarded. -/
structure Routed where
  source : Option UInt32
  given : Message
  handled : Message
  writes : List (UInt32 × Bool)
  bytes : List UInt8
  droped : Option Message
  effects : List Effect
deriving DecidableEq

def putClient (host : Host) (key : UInt32) (client : LocalClient) : Host :=
  { host with clients := host.clients.assign key client }

/-- `it->second->WriteMessage(m)` where a client is found at the address. -/
def deliver (host : Host) (written : Bool) (behind : List UInt8) (m : Message) :
    Host × List (UInt32 × Bool) :=
  match host.clients.find m.remoteAddress.clientAddr with
  | none => (host, [])
  | some client =>
      let wrote := client.writeMessage m behind written
      (host.putClient m.remoteAddress.clientAddr { client with toClientInfo := wrote.1 },
        [(m.remoteAddress.clientAddr, wrote.2)])

/-- The name of the source client is looked up for the log, in any case. -/
def handleToLocalMessage (host : Host) (written : Bool) (behind : List UInt8) (m : Message) :
    Option (Host × List (UInt32 × Bool)) :=
  match host.clients.find m.sourceAddress.clientAddr with
  | none => none
  | some _ => some (host.deliver written behind m)

/-- The last component is the result, whether the connection is to be preserved. -/
def handleRemoteMessage (host : Host) (written : Bool) (behind : List UInt8) (m : Message) :
    Host × List (UInt32 × Bool) × Bool :=
  if m.remoteAddress.nodeAddr ≠ host.daemon.server.selfAddress then (host, [], false)
  else
    let delivered := host.deliver written behind m
    (delivered.1, delivered.2, true)

/-- The body of `HandleBusMessage`'s inner loop, for a client and the message just
read from its bus, with `behind` behind it in memory. -/
def handleClientMessage (host : Host) (writes : Nat → Bool) (behind : List UInt8)
    (client : LocalClient) (m : Message) : Option (Host × Routed) :=
  let stamped := host.daemon.server.stamp client.addr.clientAddr m
  if host.daemon.server.isLocal stamped.remoteAddress then
    match host.handleToLocalMessage (writes 0) behind stamped with
    | none => none
    | some delivered =>
        some (delivered.1,
          ⟨some client.addr.clientAddr, m, stamped, delivered.2, stamped.image behind, none,
            []⟩)
  else
    let handled :=
      host.daemon.server.handleToRemoteMessage host.daemon.network writes stamped
    some ({ host with daemon := ⟨handled.1, host.daemon.network.carryOutAll handled.2.2⟩ },
      ⟨some client.addr.clientAddr, m, stamped, [], [], handled.2.1, handled.2.2⟩)

/-- The inner loop: `writes` gives, for each message in turn, the outcomes of the
`Write`s made for it, and `behind` the memory behind it. There are no more rounds than
records, and one to find that `ReadMessage` returns false. -/
def drain (writes : Nat → Nat → Bool) (behind : Nat → List UInt8) (key : UInt32) :
    Nat → Nat → Host → Option (Host × List Routed)
  | 0, _, _ => none
  | fuel + 1, count, host =>
      match host.clients.find key with
      | none => none
      | some client =>
          let read := client.readMessage
          let left := host.putClient key { client with toClientInfo := read.1 }
          match read.2 with
          | none => some (left, [])
          | some m =>
              match left.handleClientMessage (writes count) (behind count) client m with
              | none => none
              | some (next, routed) =>
                  match drain writes behind key fuel (count + 1) next with
                  | none => none
                  | some (last, rest) => some (last, routed :: rest)

def pending (host : Host) (key : UInt32) : List (List UInt8) :=
  match host.clients.find key with
  | some client => client.input
  | none => []

/-- The outer loop over these keys of `clients_`. -/
def drainAll (writes : UInt32 → Nat → Nat → Bool) (behind : UInt32 → Nat → List UInt8) :
    List UInt32 → Host → Option (Host × List Routed)
  | [], host => some (host, [])
  | key :: keys, host =>
      match drain (writes key) (behind key) key ((host.pending key).length + 1) 0 host with
      | none => none
      | some (next, routed) =>
          match drainAll writes behind keys next with
          | none => none
          | some (last, rest) => some (last, routed ++ rest)

/-- The map is ordered by its keys. -/
def handleBusMessage (host : Host) (writes : UInt32 → Nat → Nat → Bool)
    (behind : UInt32 → Nat → List UInt8) : Option (Host × List Routed) :=
  drainAll writes behind (host.clients.keys.insertionSort (· ≤ ·)) host

inductive Event where
  /-- A datagram on the register server's port. -/
  | handShake (restoreOrCreate : List UInt8 → UInt32 → Option (List (List UInt8)))
      (data : List UInt8) (out : HandShakeResponse)
  /-- The daemon handles an event that is not a client's doing. -/
  | daemon (event : Daemon.Event)
  /-- A message decoded on a connection that another node has opened. -/
  | remoteMessage (m : Message) (written : Bool) (behind : List UInt8)
  /-- One call of `HandleBusMessage`. -/
  | busMessage (writes : UInt32 → Nat → Nat → Bool) (behind : UInt32 → Nat → List UInt8)
  /-- The client registered at a key puts a record on its bus. -/
  | submit (key : UInt32) (record : List UInt8)
  /-- It takes the first record off its other bus. -/
  | receive (key : UInt32)

def initial (messageServerPort : Int32) (resolveServerAddress : NetAddress)
    (busLocation : List UInt8) : Host :=
  ⟨Daemon.State.initial messageServerPort resolveServerAddress, busLocation, ∅⟩

def step (host : Host) : Event → Option (Host × List Routed)
  | .handShake restoreOrCreate data out =>
      some ((host.handleInitCommand restoreOrCreate data out).1, [])
  | .daemon (.busMessage _ _ _) => none
  | .daemon event =>
      (Daemon.step host.daemon event).map fun stepped => ({ host with daemon := stepped.1 }, [])
  | .remoteMessage m written behind =>
      let handled := host.handleRemoteMessage written behind m
      some (handled.1, [⟨none, m, m, handled.2.1, m.image behind, none, []⟩])
  | .busMessage writes behind => host.handleBusMessage writes behind
  | .submit key record =>
      match host.clients.find key with
      | none => none
      | some client =>
          some (host.putClient key { client with input := client.input ++ [record] }, [])
  | .receive key =>
      match host.clients.find key with
      | none => none
      | some client => some (host.putClient key { client with output := client.output.drop 1 }, [])

def machine : EventMachine Host Event Routed := ⟨step⟩

/-- For examples, the datagram of a handshake with this name. -/
def handShakeData (name : List UInt8) : List UInt8 :=
  List.replicate 10 0 ++ LittleEndian.bytes 4096 ++ name ++
    List.replicate (1022 - name.length) 0

/-- It finds both buses empty. -/
def handShakeOf (name : List UInt8) : Event :=
  .handShake (fun _ _ => some []) (handShakeData name) ⟨.kOk, [], []⟩

def someKey (name : List UInt8) : UInt32 := (Address.create name).clientAddr

end Host

end Cpmd
