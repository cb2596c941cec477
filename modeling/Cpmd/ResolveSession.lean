import Cpmd.Daemon
import Cpmd.ResolveServer

/-! A daemon and the resolve server together, with what is under way between
them on the one connection that the daemon opens. -/

set_option autoImplicit false

namespace Cpmd

open Library

def Effect.requestOn (conn : ConnId) : Effect → Option ResolveRequest
  | .requested other request => if other = conn then some request else none
  | _ => none

/-- What the daemon can read of a response: of one that is not `kOk` no more is
sent than its first fields, and the path goes on with what follows in the buffer
up to a NUL. -/
def ResolveResponse.ReadAs (sent seen : ResolveResponse) : Prop :=
  seen.code = sent.code ∧ seen.type = sent.type ∧ seen.nodeAddr = sent.nodeAddr ∧
    (sent.code = .kOk → seen.nodePort = sent.nodePort ∧ seen.nodeIp = sent.nodeIp ∧
      sent.nodePath <+: seen.nodePath)

instance (sent seen : ResolveResponse) : Decidable (sent.ReadAs seen) :=
  inferInstanceAs (Decidable (seen.code = sent.code ∧ seen.type = sent.type ∧
    seen.nodeAddr = sent.nodeAddr ∧ (sent.code = .kOk → seen.nodePort = sent.nodePort ∧
      seen.nodeIp = sent.nodeIp ∧ sent.nodePath <+: seen.nodePath)))

/-- What follows a request that is refused is not a response. -/
def Service.Replied.sent (replied : Service.Replied) : Option ResolveResponse :=
  if replied.preserve && replied.written then replied.reply else none

namespace ResolveSession

structure Link where
  conn : ConnId
  served : Nat
deriving DecidableEq

structure State where
  daemon : Daemon.State
  service : Service.State
  link : Option Link
  toServer : List ResolveRequest
  toDaemon : List ResolveResponse

inductive Event where
  /-- The daemon handles an event that is not the resolve server's doing. -/
  | daemon (event : Daemon.Event)
  /-- The resolve server handles an event other than a request of the daemon. -/
  | service (event : Service.Event)
  /-- The connection comes up, from this port, and `kInitializeSelf` is queued. -/
  | connected (port : Int32)
  /-- A request arrives; `written` is the outcome of the `Write` of its reply. -/
  | request (written : Bool)
  /-- A response arrives, and reads as `seen`. -/
  | response (seen : ResolveResponse)

def State.initial (messageServerPort : Int32) (resolveServerAddress : NetAddress)
    (conf : ResolveServerConf) : State :=
  ⟨Daemon.State.initial messageServerPort resolveServerAddress, Service.State.initial conf,
    none, [], []⟩

def fromResolveServer (server : Server) : Daemon.Event → Bool
  | .resolveServerMessage _ _ => true
  | .connected addr _ => server.isResolveServerAddress addr
  | .busMessage _ _ _ | .connectError _ | .foundClosed _ | .disconnected _ | .retry _ => false

def fromDaemon (link : Option Link) : Service.Event → Bool
  | .request conn _ _ => link.any (·.served == conn)
  | .newConnection _ | .kickOff _ | .foundClosed _ | .close _ => false

/-- The daemon handles an event, and its requests go out after those on the way. -/
def State.handle (state : State) (event : Daemon.Event) : Option State :=
  match Daemon.step state.daemon event with
  | some (after, effects) =>
      some { state with
        daemon := after
        toServer := state.toServer ++ match state.link with
          | some link => effects.filterMap (Effect.requestOn link.conn)
          | none => [] }
  | none => none

/-- `ip` is where the resolve server sees the daemon. Nothing is read from a
connection whose `OnClose` has run. -/
def step (ip : List UInt8) (state : State) : Event → Option (State × List Service.Replied)
  | .daemon event =>
      if fromResolveServer state.daemon.server event then none
      else (state.handle event).map (·, [])
  | .service event =>
      if fromDaemon state.link event then none
      else (Service.step state.service event).map fun stepped =>
        ({ state with service := stepped.1 }, [])
  | .connected port =>
      match state.link, Service.step state.service (.newConnection ⟨ip, port⟩) with
      | none, some (service, _) =>
          (State.handle
            { state with
              service := service
              link := some ⟨state.daemon.network.nextId, state.service.nextConn⟩ }
            (.connected state.daemon.server.resolveServerAddress fun _ => true)).map (·, [])
      | _, _ => none
  | .request written =>
      match state.link, state.toServer with
      | some link, req :: rest =>
          if (state.service.conns.find link.served).any (·.released) then none
          else (Service.step state.service (.request link.served req written)).map fun stepped =>
            ({ state with
              service := stepped.1
              toServer := rest
              toDaemon := state.toDaemon ++ stepped.2.filterMap Service.Replied.sent },
              stepped.2)
      | _, _ => none
  | .response seen =>
      match state.link, state.toDaemon with
      | some link, sent :: rest =>
          if sent.ReadAs seen then
            (State.handle { state with toDaemon := rest }
              (.resolveServerMessage link.conn (.kResolveResponse seen))).map (·, [])
          else none
      | _, _ => none

def machine (ip : List UInt8) : EventMachine State Event Service.Replied := ⟨step ip⟩

inductive Transition (ip : List UInt8) (state : State) :
    Event → State → List Service.Replied → Prop where
  | daemon {event : Daemon.Event} {after : State} :
      fromResolveServer state.daemon.server event = false → state.handle event = some after →
      Transition ip state (.daemon event) after []
  | service {event : Service.Event} {service : Service.State}
      {replies : List Service.Replied} :
      fromDaemon state.link event = false →
      Service.step state.service event = some (service, replies) →
      Transition ip state (.service event) { state with service := service } []
  | connected {port : Int32} {service : Service.State} {replies : List Service.Replied}
      {after : State} :
      state.link = none →
      Service.step state.service (.newConnection ⟨ip, port⟩) = some (service, replies) →
      State.handle
        { state with
          service := service
          link := some ⟨state.daemon.network.nextId, state.service.nextConn⟩ }
        (.connected state.daemon.server.resolveServerAddress fun _ => true) = some after →
      Transition ip state (.connected port) after []
  | request {written : Bool} {link : Link} {req : ResolveRequest} {rest : List ResolveRequest}
      {service : Service.State} {replies : List Service.Replied} :
      state.link = some link → state.toServer = req :: rest →
      (state.service.conns.find link.served).any (·.released) = false →
      Service.step state.service (.request link.served req written) = some (service, replies) →
      Transition ip state (.request written)
        { state with
          service := service
          toServer := rest
          toDaemon := state.toDaemon ++ replies.filterMap Service.Replied.sent } replies
  | response {seen sent : ResolveResponse} {link : Link} {rest : List ResolveResponse}
      {after : State} :
      state.link = some link → state.toDaemon = sent :: rest → sent.ReadAs seen →
      State.handle { state with toDaemon := rest }
        (.resolveServerMessage link.conn (.kResolveResponse seen)) = some after →
      Transition ip state (.response seen) after []

theorem step_transition {ip : List UInt8} {state after : State} {event : Event}
    {outputs : List Service.Replied}
    (stepped : step ip state event = some (after, outputs)) :
    Transition ip state event after outputs := by
  cases event with
  | daemon event =>
      simp only [step] at stepped
      split at stepped
      · cases stepped
      · rename_i others
        obtain ⟨_, handled, settled⟩ := Option.map_eq_some_iff.mp stepped
        cases settled
        exact .daemon (Bool.eq_false_iff.mpr others) handled
  | service event =>
      simp only [step] at stepped
      split at stepped
      · cases stepped
      · rename_i others
        obtain ⟨_, served, settled⟩ := Option.map_eq_some_iff.mp stepped
        cases settled
        exact .service (Bool.eq_false_iff.mpr others) served
  | connected port =>
      simp only [step] at stepped
      split at stepped
      · rename_i unlinked opened
        obtain ⟨_, handled, settled⟩ := Option.map_eq_some_iff.mp stepped
        cases settled
        exact .connected unlinked opened handled
      · cases stepped
  | request written =>
      simp only [step] at stepped
      split at stepped
      · rename_i linked queue
        split at stepped
        · cases stepped
        · rename_i unreleased
          obtain ⟨_, served, settled⟩ := Option.map_eq_some_iff.mp stepped
          cases settled
          exact .request linked queue (Bool.eq_false_iff.mpr unreleased) served
      · cases stepped
  | response seen =>
      simp only [step] at stepped
      split at stepped
      · rename_i linked queue
        split at stepped
        · rename_i reads
          obtain ⟨_, handled, settled⟩ := Option.map_eq_some_iff.mp stepped
          cases settled
          exact .response linked queue reads handled
        · cases stepped
      · cases stepped

end ResolveSession

end Cpmd
