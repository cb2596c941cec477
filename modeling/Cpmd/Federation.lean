import Cpmd.HostForwarding
import Cpmd.DaemonConnections
import Cpmd.Library.KeyedValues
import Mathlib.Logic.Function.Basic

/-! Any number of hosts, and the connections that their daemons have made to one
another, with the bytes that are under way on each. -/

set_option autoImplicit false

namespace Cpmd

open Library

/-- `OnRead` on what is unread with a chunk behind it, where its loop ends within so
many rounds: the connection afterwards, and the messages handed over. -/
def MessageCodec.receive (rounds : Nat) (connection : Connection) (chunk : List UInt8) :
    Option (Connection × List Message) :=
  let buffer := connection.unread ++ chunk
  match Loop.run (round buffer) rounds (entry buffer) with
  | some (.left last) =>
      some (⟨buffer.drop (consumed buffer last), false,
        connection.received ++ last.handed.map Prod.snd⟩, last.handed.map Prod.snd)
  | some (.closed last) =>
      some (⟨buffer, true, connection.received ++ last.handed.map Prod.snd⟩,
        last.handed.map Prod.snd)
  | some (.fault _) | none => none

/-- `HandleRemoteNodeMessage` for the messages of one `OnRead`, which goes on when the
handler has closed the connection. The last component tells whether it never did. -/
def Host.handleRemoteNodeMessages (written : Nat → Bool) (memory : Nat → List UInt8) :
    Nat → List Message → Host → Host × List Routed × Bool
  | _, [], host => (host, [], true)
  | count, m :: rest, host =>
      let handled := host.handleRemoteMessage (written count) (memory count) m
      let later := handleRemoteNodeMessages written memory (count + 1) rest handled.1
      (later.1, ⟨none, m, m, handled.2.1, m.image (memory count), none, []⟩ :: later.2.1,
        handled.2.2 && later.2.2)

namespace Federation

/-- A connection that `source` has made to `target`: the source daemon's own object for
it, the bytes written on it that have not arrived, and the target's reading end, which
is closed once either side or the network has ended the connection. -/
structure Link (Peer : Type) where
  source : Peer
  conn : ConnId
  target : Peer
  inFlight : List UInt8
  reading : MessageCodec.Connection

structure State (Peer : Type) where
  hosts : Peer → Host
  links : List (Link Peer)

inductive Event (Peer : Type) where
  /-- A handshake, a call of `HandleBusMessage`, or what a local client does. -/
  | host (peer : Peer) (event : Host.Event)
  /-- A daemon handles an event of its own connections, other than that one to another
  node comes up. -/
  | daemon (peer : Peer) (event : Daemon.Event)
  /-- A daemon's connection to the message server of another comes up. -/
  | connected (source target : Peer) (addr : NetAddress) (writes : Nat → Bool)
  /-- Of the bytes under way on a connection the first `count` arrive, and are read
  together with what was left unread before. -/
  | arrived (link count rounds : Nat) (written : Nat → Bool) (memory : Nat → List UInt8)
  /-- A connection ends, and what is under way on it is lost. -/
  | lost (link : Nat)

inductive Output (Peer : Type) where
  /-- A host was given a message: by a client on its bus, or on a connection of the
  origin. -/
  | logged (peer : Peer) (origin : Option (Peer × ConnId)) (entry : Host.Routed)
  /-- A daemon did this while it handled an event of its connections. -/
  | did (peer : Peer) (effect : Effect)

variable {Peer : Type} [DecidableEq Peer]

def State.initial (messageServerPort : Peer → Int32) (resolveServerAddress : Peer → NetAddress)
    (busLocation : Peer → List UInt8) : State Peer where
  hosts := fun peer =>
    Host.initial (messageServerPort peer) (resolveServerAddress peer) (busLocation peer)
  links := []

def Link.send (peer : Peer) (effects : List Effect) (link : Link Peer) : Link Peer :=
  if link.source = peer then
    { link with inFlight := link.inFlight ++
        Message.stream (valuesAt link.conn (effects.filterMap Effect.written)) }
  else link

/-- The target has read the first `count` bytes under way. -/
def Link.read (link : Link Peer) (count : Nat) (reading : MessageCodec.Connection) : Link Peer :=
  { link with inFlight := link.inFlight.drop count, reading := reading }

def Link.finish (link : Link Peer) : Link Peer :=
  { link with reading := { link.reading with closed := true } }

/-- A host goes on, and what its daemon writes goes out behind what is under way. -/
def State.act (state : State Peer) (peer : Peer) (host : Host) (effects : List Effect) :
    State Peer where
  hosts := Function.update state.hosts peer host
  links := state.links.map (Link.send peer effects)

def State.addLink (state : State Peer) (link : Link Peer) : State Peer :=
  { state with links := state.links ++ [link] }

def State.putLink (state : State Peer) (index : Nat) (link : Link Peer) : State Peer :=
  { state with links := state.links.set index link }

def State.putHost (state : State Peer) (peer : Peer) (host : Host) : State Peer :=
  { state with hosts := Function.update state.hosts peer host }

def ownEvent : Host.Event → Bool
  | .handShake _ _ _ | .busMessage _ _ | .submit _ _ | .receive _ => true
  | .daemon _ | .remoteMessage _ _ _ => false

/-- A connection that comes up on this event leads to another node. -/
def toNode (server : Server) : Daemon.Event → Bool
  | .connected addr _ => !server.isResolveServerAddress addr
  | .busMessage _ _ _ | .resolveServerMessage _ _ | .connectError _ | .foundClosed _
  | .disconnected _ | .retry _ => false

def State.daemonStep (state : State Peer) (peer : Peer) (event : Daemon.Event) :
    Option (State Peer × List (Output Peer)) :=
  match event with
  | .busMessage _ _ _ => none
  | event =>
      (Daemon.step (state.hosts peer).daemon event).map fun stepped =>
        (state.act peer { state.hosts peer with daemon := stepped.1 } stepped.2,
          stepped.2.map (Output.did peer))

def step (state : State Peer) : Event Peer → Option (State Peer × List (Output Peer))
  | .host peer event =>
      if ownEvent event then
        (Host.step (state.hosts peer) event).map fun stepped =>
          (state.act peer stepped.1 (Host.effectsOf stepped.2),
            stepped.2.map (Output.logged peer none))
      else none
  | .daemon peer event =>
      if toNode (state.hosts peer).daemon.server event then none
      else state.daemonStep peer event
  | .connected source target addr writes =>
      if toNode (state.hosts source).daemon.server (.connected addr writes) then
        (state.addLink ⟨source, (state.hosts source).daemon.network.nextId, target, [],
          .fresh⟩).daemonStep source (.connected addr writes)
      else none
  | .arrived index count rounds written memory =>
      match state.links[index]? with
      | some link =>
          if link.reading.closed then none
          else
            match MessageCodec.receive rounds link.reading (link.inFlight.take count) with
            | some (reading, handed) =>
                let handled :=
                  (state.hosts link.target).handleRemoteNodeMessages written memory 0 handed
                let closed := reading.closed || !handled.2.2
                some ((state.putHost link.target handled.1).putLink index
                    (link.read count { reading with closed := closed }),
                  handled.2.1.map (Output.logged link.target (some (link.source, link.conn))))
            | none => none
      | none => none
  | .lost index =>
      match state.links[index]? with
      | some link =>
          if link.reading.closed then none else some (state.putLink index link.finish, [])
      | none => none

variable (Peer) in
def machine : EventMachine (State Peer) (Event Peer) (Output Peer) := ⟨step⟩

/-- All that a host was given by its clients and by other nodes, in order. -/
def logOf (peer : Peer) (outputs : List (Output Peer)) : List Host.Routed :=
  outputs.filterMap fun
    | .logged other _ entry => if other = peer then some entry else none
    | .did _ _ => none

def effectsBy (peer : Peer) (outputs : List (Output Peer)) : List Effect :=
  outputs.flatMap fun
    | .logged other _ entry => if other = peer then entry.effects else []
    | .did other effect => if other = peer then [effect] else []

/-- What a daemon has written on its connections to other nodes. -/
def writtenBy (peer : Peer) (outputs : List (Output Peer)) : List (ConnId × Message) :=
  (effectsBy peer outputs).filterMap Effect.written

/-- What was read from a daemon's connections at their other ends. -/
def arrivedFrom (peer : Peer) (outputs : List (Output Peer)) : List (ConnId × Message) :=
  outputs.filterMap fun
    | .logged _ (some (source, conn)) entry =>
        if source = peer then some (conn, entry.given) else none
    | .logged _ none _ | .did _ _ => none

/-- Two hosts for examples, which are told their addresses, with a client each: `a` of the one
sends a message to `b` of the other, whose node is looked up and connected to, and it arrives
in two parts. -/
def someStart : State Bool :=
  State.initial (fun _ => 8123) (fun _ => Daemon.someResolveServer) fun _ => [47, 116, 109, 112]

def someFarNode : UInt32 := (Address.create [47, 98, 47]).nodeAddr

def someNearNode : UInt32 := (Address.create [47, 97, 47]).nodeAddr

def someNearAnswer : ResolveServerMessage :=
  .kResolveResponse ⟨.kOk, .kUpdateSelf, someNearNode, 8123, [10, 0, 0, 6], [47, 97, 47]⟩

def someFarMessage : Message :=
  ⟨⟨0, 0⟩, ⟨someFarNode, Host.someKey [98]⟩, Message.kMagic, 3, [72, 105, 33]⟩

def someFarAnswer : ResolveServerMessage :=
  .kResolveResponse ⟨.kOk, .kUpdateCache, someFarNode, 8123, [10, 0, 0, 7], [47, 98, 47]⟩

def someEvents : List (Event Bool) :=
  [.host false (Host.handShakeOf [97]), .host true (Host.handShakeOf [98]),
    .daemon false (.connected Daemon.someResolveServer fun _ => true),
    .daemon true (.connected Daemon.someResolveServer fun _ => true),
    .daemon false (.resolveServerMessage 0 someNearAnswer),
    .daemon true (.resolveServerMessage 0 (.kResolveResponse Daemon.someSelfResponse)),
    .host false (.submit (Host.someKey [97]) someFarMessage.serialize),
    .host false (.busMessage (fun _ _ _ => true) fun _ _ => []),
    .daemon false (.resolveServerMessage 0 someFarAnswer),
    .connected false true ⟨[10, 0, 0, 7], 8123⟩ fun _ => true,
    .arrived 0 10 3 (fun _ => true) fun _ => [], .arrived 0 100 3 (fun _ => true) fun _ => []]

end Federation

end Cpmd
