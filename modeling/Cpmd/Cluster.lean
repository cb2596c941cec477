import Cpmd.ResolveSession
import Cpmd.ResolveReply
import Cpmd.RequestDecoding
import Cpmd.ProtocolMessageCodec
import Mathlib.Logic.Function.Basic

/-! One resolve server and any number of daemons, with the bytes that are under way
on each connection between them. -/

set_option autoImplicit false

namespace Cpmd

open Library

/-- One round of `OnRead` on what has arrived: the message handed over, and how many
bytes it takes. -/
def ProtocolMessageCodec.firstHanded (arrived behind : List UInt8) :
    Option (ProtocolMessage × Nat) :=
  match round arrived behind (entry arrived) with
  | .inl next => next.handed.head?.map fun handed => (handed.2, next.ptr)
  | .inr _ => none

/-- What is written on a connection for a request. -/
def Effect.requestBytes (conn : ConnId) : Effect → List UInt8
  | .requested other req =>
      if other = conn then
        match req.built with
        | some message => message.serialize
        | none => []
      else []
  | .connectTo _ | .registered _ _ | .wrote _ _ _ | .close _ | .connectLater _ => []

/-- What is written in answer to a request, and what counts of it: what follows a
request that is refused is not a response. -/
def ResolveServer.replyBytes (server : ResolveServer) (connection : ServiceConnection)
    (replied : Service.Replied) : List UInt8 :=
  if replied.preserve && replied.written then
    match server.builtReply connection replied.req with
    | some message => message.serialize
    | none => []
  else []

namespace Cluster

/-- A connection of a daemon to the resolve server: the daemon's own object for it,
and the bytes that have been written on it and not been consumed. -/
structure Link (Peer : Type) where
  peer : Peer
  conn : ConnId
  toServer : List UInt8
  toDaemon : List UInt8

/-- Links go by the resolve server's object for the connection. -/
structure State (Peer : Type) where
  service : Service.State
  daemons : Peer → Daemon.State
  links : Nat → Option (Link Peer)

/-- Of a stream, the first `count` bytes have arrived, with memory `behind` them. -/
inductive Event (Peer : Type) where
  /-- A daemon handles an event that is not the resolve server's doing. -/
  | daemon (peer : Peer) (event : Daemon.Event)
  /-- The resolve server handles an event other than a request of a daemon. -/
  | service (event : Service.Event)
  /-- A daemon's connection to the resolve server comes up. -/
  | connected (peer : Peer) (peerAddr : NetAddress) (writes : Nat → Bool)
  /-- The resolve server reads a message; `written` is the outcome of the `Write` of
  its reply. -/
  | request (served count : Nat) (behind : List UInt8) (written : Bool)
  /-- A daemon reads a message of the resolve server. -/
  | response (served count : Nat) (behind : List UInt8)

variable {Peer : Type} [DecidableEq Peer]

def State.initial (messageServerPort : Peer → Int32) (resolveServerAddress : Peer → NetAddress)
    (conf : ResolveServerConf) : State Peer where
  service := Service.State.initial conf
  daemons := fun peer =>
    Daemon.State.initial (messageServerPort peer) (resolveServerAddress peer)
  links := fun _ => none

def Link.send (peer : Peer) (effects : List Effect) (link : Link Peer) : Link Peer :=
  if link.peer = peer then
    { link with toServer := link.toServer ++ effects.flatMap (Effect.requestBytes link.conn) }
  else link

/-- The resolve server consumes the request at the head and writes its answer. -/
def Link.answer (link : Link Peer) (size : Nat) (reply : List UInt8) : Link Peer :=
  { link with toServer := link.toServer.drop size, toDaemon := link.toDaemon ++ reply }

/-- A daemon handles an event, and its requests go out after what is on the way. -/
def State.handle (state : State Peer) (peer : Peer) (event : Daemon.Event) :
    Option (State Peer) :=
  match Daemon.step (state.daemons peer) event with
  | some (after, effects) =>
      some { state with
        daemons := Function.update state.daemons peer after
        links := fun served => (state.links served).map (Link.send peer effects) }
  | none => none

def State.putLink (state : State Peer) (served : Nat) (link : Link Peer) : State Peer :=
  { state with links := Function.update state.links served (some link) }

def fromDaemon (state : State Peer) : Service.Event → Bool
  | .request conn _ _ => (state.links conn).isSome
  | .newConnection _ | .kickOff _ | .foundClosed _ | .close _ => false

/-- Nothing is read from a connection whose `OnClose` has run. Where the codec hands
nothing over there is no step; that it may close the connection is an event of the
daemon or of the resolve server by itself. -/
def step (state : State Peer) : Event Peer → Option (State Peer × List Service.Replied)
  | .daemon peer event =>
      if ResolveSession.fromResolveServer (state.daemons peer).server event then none
      else (state.handle peer event).map (·, [])
  | .service event =>
      if fromDaemon state event then none
      else (Service.step state.service event).map fun stepped =>
        ({ state with service := stepped.1 }, stepped.2)
  | .connected peer peerAddr writes =>
      match Service.step state.service (.newConnection peerAddr) with
      | some (service, _) =>
          let link := Link.mk peer (state.daemons peer).network.nextId [] []
          (State.handle ({ state with service := service }.putLink state.service.nextConn link)
            peer (.connected (state.daemons peer).server.resolveServerAddress writes)).map (·, [])
      | none => none
  | .request served count behind written =>
      match state.links served, state.service.conns.find served with
      | some link, some connection =>
          if connection.released then none
          else
            match ProtocolMessageCodec.firstHanded (link.toServer.take count) behind with
            | some (m, size) =>
                (Service.step state.service (.request served (.ofData m.data) written)).map
                  fun stepped =>
                    ({ state with service := stepped.1 }.putLink served
                        (link.answer size
                          (stepped.2.flatMap (state.service.server.replyBytes connection))),
                      stepped.2)
            | none => none
      | _, _ => none
  | .response served count behind =>
      match state.links served with
      | some link =>
          match ProtocolMessageCodec.firstHanded (link.toDaemon.take count) behind with
          | some (m, size) =>
              (State.handle
                (state.putLink served { link with toDaemon := link.toDaemon.drop size }) link.peer
                (.resolveServerMessage link.conn (.ofProtocolMessage m))).map (·, [])
          | none => none
      | none => none

variable (Peer) in
def machine : EventMachine (State Peer) (Event Peer) Service.Replied := ⟨step⟩

inductive Transition (state : State Peer) :
    Event Peer → State Peer → List Service.Replied → Prop where
  | daemon {peer : Peer} {event : Daemon.Event} {after : State Peer} :
      ResolveSession.fromResolveServer (state.daemons peer).server event = false →
      state.handle peer event = some after → Transition state (.daemon peer event) after []
  | service {event : Service.Event} {service : Service.State}
      {replies : List Service.Replied} :
      Service.step state.service event = some (service, replies) →
      Transition state (.service event) { state with service := service } replies
  | connected {peer : Peer} {peerAddr : NetAddress} {writes : Nat → Bool}
      {service : Service.State} {replies : List Service.Replied} {after : State Peer} :
      Service.step state.service (.newConnection peerAddr) = some (service, replies) →
      State.handle ({ state with service := service }.putLink state.service.nextConn
          ⟨peer, (state.daemons peer).network.nextId, [], []⟩) peer
        (.connected (state.daemons peer).server.resolveServerAddress writes) = some after →
      Transition state (.connected peer peerAddr writes) after []
  | request {served count size : Nat} {behind : List UInt8} {written : Bool} {link : Link Peer}
      {connection : ServiceConnection} {m : ProtocolMessage} {service : Service.State}
      {replies : List Service.Replied} :
      state.links served = some link → state.service.conns.find served = some connection →
      ProtocolMessageCodec.firstHanded (link.toServer.take count) behind = some (m, size) →
      Service.step state.service (.request served (.ofData m.data) written) =
        some (service, replies) →
      Transition state (.request served count behind written)
        ({ state with service := service }.putLink served
          (link.answer size
            (replies.flatMap (state.service.server.replyBytes connection)))) replies
  | response {served count size : Nat} {behind : List UInt8} {link : Link Peer}
      {m : ProtocolMessage} {after : State Peer} :
      state.links served = some link →
      ProtocolMessageCodec.firstHanded (link.toDaemon.take count) behind = some (m, size) →
      State.handle (state.putLink served { link with toDaemon := link.toDaemon.drop size })
        link.peer (.resolveServerMessage link.conn (.ofProtocolMessage m)) = some after →
      Transition state (.response served count behind) after []

theorem step_transition {state after : State Peer} {event : Event Peer}
    {outputs : List Service.Replied} (stepped : step state event = some (after, outputs)) :
    Transition state event after outputs := by
  cases event with
  | daemon peer event =>
      simp only [step] at stepped
      split at stepped
      · cases stepped
      · rename_i others
        obtain ⟨_, handled, settled⟩ := Option.map_eq_some_iff.mp stepped
        cases settled
        exact .daemon (Bool.eq_false_iff.mpr others) handled
  | service event =>
      simp only [step] at stepped
      split at stepped
      · cases stepped
      · obtain ⟨_, served, settled⟩ := Option.map_eq_some_iff.mp stepped
        cases settled
        exact .service served
  | connected peer peerAddr writes =>
      simp only [step] at stepped
      split at stepped
      · rename_i opened
        obtain ⟨_, handled, settled⟩ := Option.map_eq_some_iff.mp stepped
        cases settled
        exact .connected opened handled
      · cases stepped
  | request served count behind written =>
      simp only [step] at stepped
      split at stepped
      · rename_i linked found
        split at stepped
        · cases stepped
        · split at stepped
          · rename_i handed
            obtain ⟨_, answered, settled⟩ := Option.map_eq_some_iff.mp stepped
            cases settled
            exact .request linked found handed answered
          · cases stepped
      · cases stepped
  | response served count behind =>
      simp only [step] at stepped
      split at stepped
      · rename_i linked
        split at stepped
        · rename_i handed
          obtain ⟨_, handled, settled⟩ := Option.map_eq_some_iff.mp stepped
          cases settled
          exact .response linked handed handled
        · cases stepped
      · cases stepped

end Cluster

end Cpmd
