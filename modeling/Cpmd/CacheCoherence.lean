import Cpmd.ReplyMemory
import Cpmd.ResolvedAddresses
import Cpmd.ResolveServerProperties

/-! What the daemons hold as the addresses of other nodes, against the configuration
of the resolve server. -/

set_option autoImplicit false

namespace Cpmd

open Library

/-- Paths and ips fit the fields of a response, each with a NUL behind it. -/
def ResolveServerConf.Fits (conf : ResolveServerConf) : Prop :=
  ∀ nodeAddr node, conf.getNodeInfoByNodeAddress nodeAddr = some node →
    0 ∉ node.netAddr.ip ∧ node.netAddr.ip.length < kMaxIpSize ∧
      node.readableAddr.length < kMaxNodePathSize

theorem ResolveServerConf.Fits.fitsFields {conf : ResolveServerConf} (fits : conf.Fits) :
    conf.FitsFields := fun nodeAddr node listed => (fits nodeAddr node listed).2

/-- A response tells a daemon no net address but the configured one, and that of no
node but one that the daemon has. -/
def ResolveResponse.Truthful (conf : ResolveServerConf) (daemon : Server)
    (resp : ResolveResponse) : Prop :=
  resp.type = .kUpdateCache → daemon.known resp.nodeAddr = true ∧
    (resp.code = .kOk → ∃ listed, conf.getNodeInfoByNodeAddress resp.nodeAddr = some listed ∧
      listed.netAddr = ⟨resp.nodeIp, resp.nodePort⟩)

namespace ResolveServer

/-- The reply to a request that was not refused; a lookup was for a node that the
daemon has. -/
def Answers (conf : ResolveServerConf) (daemon : Server) (reply : ProtocolMessage) : Prop :=
  ∃ peerIp req resp, Builds conf peerIp req resp reply ∧ resp.type ≠ .unknown 0 ∧
    (resp.type = .kUpdateCache → daemon.known req.peerAddr = true)

theorem Answers.mono {conf : ResolveServerConf} {daemon after : Server}
    {reply : ProtocolMessage} (answers : Answers conf daemon reply)
    (grows : ∀ nodeAddress, daemon.known nodeAddress = true → after.known nodeAddress = true) :
    Answers conf after reply := by
  obtain ⟨peerIp, req, resp, builds, accepted, known⟩ := answers
  exact ⟨peerIp, req, resp, builds, accepted, fun kind => grows _ (known kind)⟩

theorem answer_of_preserve {server : ResolveServer} {conns : FiniteMap Nat ServiceConnection}
    {conn : Nat} {connection : ServiceConnection} {req : ResolveRequest} {handled : Handled}
    (returned : server.onMessage conns conn connection req = some handled)
    (preserve : handled.preserve = true) :
    ∃ resp, handled.reply = some resp ∧ resp.type ≠ .unknown 0 ∧
      (resp.type = .kUpdateCache → req.type = .kLookupNode) := by
  cases handles_of_onMessage returned with
  | initialized _ _ _ =>
      exact ⟨_, rfl, ResolveResponseType.noConfusion, ResolveResponseType.noConfusion⟩
  | lookupFailed kind _ _ _ | found kind _ _ _ =>
      exact ⟨_, rfl, ResolveResponseType.noConfusion, fun _ => kind⟩
  | initRefused _ _ | unregistered _ _ | foreign _ _ _ _ | unknown _ => cases preserve

/-- A `kUpdateCache` response is about the node asked for, and good only with what
the configuration says of it. -/
theorem Builds.about {conf : ResolveServerConf} {peerIp : List UInt8} {req : ResolveRequest}
    {resp : ResolveResponse} {reply : ProtocolMessage} (builds : Builds conf peerIp req resp reply)
    (kind : resp.type = .kUpdateCache) :
    resp.nodeAddr = req.peerAddr ∧
      (resp.code = .kOk → ∃ listed, conf.getNodeInfoByNodeAddress req.peerAddr = some listed ∧
        listed.netAddr = ⟨resp.nodeIp, resp.nodePort⟩) := by
  cases builds with
  | initRefused _ | initialized _ => cases kind
  | lookupFailed _ => exact ⟨rfl, fun good => by cases good⟩
  | @found node listed => exact ⟨conf.keyed listed, fun _ => ⟨node, listed, rfl⟩⟩

theorem Answers.truthful {conf : ResolveServerConf} {daemon : Server} {reply : ProtocolMessage}
    (answers : Answers conf daemon reply) (indexed : conf.Indexed) (fits : conf.Fits)
    (behind : List UInt8) :
    (ResolveResponse.ofData (reply.contents ++ behind)).Truthful conf daemon := by
  obtain ⟨peerIp, req, resp, builds, accepted, known⟩ := answers
  obtain ⟨ipFits, pathFits⟩ := builds.fitsFields indexed fits.fitsFields
  intro kind
  rcases builds.contents (Nat.le_of_lt ipFits) pathFits with
    ⟨code, sent⟩ | ⟨code, _, sent⟩ | ⟨_, unset, _⟩
  · rw [sent, ResolveResponse.ofData_sent ipFits] at kind ⊢
    have cached : resp.type = .kUpdateCache := builds.sameType.symm.trans kind
    obtain ⟨asked, good⟩ := builds.about cached
    obtain ⟨listed, found, own⟩ := good code
    have clean := (fits _ _ found).1
    rw [own] at clean
    dsimp only at clean ⊢
    rw [asked, Memory.string_of_not_mem clean]
    exact ⟨known cached, fun _ => ⟨listed, found, own⟩⟩
  · rw [sent, ResolveResponse.ofData_layout_eight] at kind ⊢
    have cached : resp.type = .kUpdateCache := builds.sameType.symm.trans kind
    dsimp only
    rw [(builds.about cached).1]
    refine ⟨known cached, fun good => ?_⟩
    rw [code] at good
    cases good
  · exact absurd unset accepted

end ResolveServer

theorem Service.written_replies {before after : Service.State} {served : Nat}
    {connection : ServiceConnection} {req : ResolveRequest} {written : Bool}
    {replies : List Service.Replied} {daemon : Server}
    (found : before.conns.find served = some connection)
    (stepped : Service.step before (.request served req written) = some (after, replies))
    (asked : req.type = .kLookupNode → daemon.known req.peerAddr = true) :
    Framing.Written ProtocolMessage.serialize
      (ResolveServer.Answers before.server.conf daemon)
      (replies.flatMap (before.server.replyBytes connection)) := by
  simp only [Service.step, found] at stepped
  split at stepped
  · cases stepped
  · rename_i handled returned
    cases stepped
    apply Framing.Written.flatMap
    intro replied member
    cases List.mem_singleton.mp member
    unfold ResolveServer.replyBytes
    split
    · rename_i kept
      obtain ⟨resp, fields, accepted, lookup⟩ :=
        ResolveServer.answer_of_preserve returned (Bool.and_eq_true_iff.mp kept).1
      obtain ⟨reply, built, builds⟩ := ResolveServer.builds_of_onMessage returned fields
      simp only [built]
      exact .single ⟨_, req, resp, builds, accepted, fun kind => asked (lookup kind)⟩
    · exact .nil

namespace ProtocolMessageCodec

theorem firstHanded_eq_some {arrived behind : List UInt8} {m : ProtocolMessage} {size : Nat}
    (handed : firstHanded arrived behind = some (m, size)) :
    m = ProtocolMessage.overlay (arrived ++ behind) ∧ m.size = size ∧ size ≤ arrived.length := by
  unfold firstHanded at handed
  split at handed
  · rename_i next goes
    obtain ⟨message, seen, inside, rfl⟩ := (atHead_entry arrived).round_goes goes
    simp only [Cursor.advance, entry, List.nil_append, List.head?_cons, Option.map_some,
      Nat.zero_add, Option.some.injEq, Prod.mk.injEq] at handed
    obtain ⟨rfl, rfl⟩ := handed
    exact ⟨seen, rfl, inside⟩
  · cases handed

/-- Each message that the loop of `OnRead` hands over is the first one of the bytes it
has come to. -/
theorem AtHead.firstHanded {buffer head behind : List UInt8} {cursor next : Cursor}
    (atHead : AtHead buffer head cursor) (goes : round buffer behind cursor = .inl next) :
    ∃ m size, ProtocolMessageCodec.firstHanded head behind = some (m, size) ∧
      next = cursor.advance m ∧ AtHead buffer (head.drop size) next := by
  obtain ⟨m, seen, inside, rfl⟩ := atHead.round_goes goes
  refine ⟨m, m.size, ?_, rfl, atHead.advance inside⟩
  have whole : ProtocolMessage.kMinProtocolMessageSize ≤ head.length :=
    Nat.le_trans (Nat.le_add_right _ _) inside
  have first : round head behind (entry head) = .inl ((entry head).advance m) := by
    have own := (atHead_entry head).nbytes
    simp only [round, atHead.nbytes, own, whole, if_true, atHead.headerAt behind whole,
      (atHead_entry head).headerAt behind whole, ← seen] at goes ⊢
    split at goes
    · cases goes
    · rename_i marked
      rw [if_neg marked]
      split at goes
      · cases goes
      · rename_i small
        rw [if_neg small]
        split at goes
        · cases goes
        · rename_i received
          rw [if_neg received]
  rw [ProtocolMessageCodec.firstHanded, first]
  simp [Cursor.advance, entry]

/-- From a stream of whole frames the first one is handed over, with what follows it
still in view. -/
theorem firstHanded_written {good : ProtocolMessage → Prop}
    (sized : ∀ message, good message → message.len.toNat ≤ message.data.length)
    {stream behind : List UInt8} {count size : Nat} {m : ProtocolMessage}
    (written : Framing.Written ProtocolMessage.serialize good stream)
    (handed : firstHanded (stream.take count) behind = some (m, size)) :
    ∃ message more, good message ∧ m = { message with data := message.contents ++ more } ∧
      Framing.Written ProtocolMessage.serialize good (stream.drop size) := by
  obtain ⟨seen, taken, inside⟩ := firstHanded_eq_some handed
  have least : ProtocolMessage.kMinProtocolMessageSize ≤ (stream.take count).length := by
    refine Nat.le_trans ?_ inside
    rw [← taken]
    exact Nat.le_add_right _ _
  cases written with
  | nil => simp [ProtocolMessage.kMinProtocolMessageSize] at least
  | @cons message rest holds later =>
      have length := sized message holds
      have contents : message.contents.length = message.len.toNat := by
        rw [ProtocolMessage.contents, List.length_take, Nat.min_eq_left length]
      have enough : ProtocolMessage.kMinProtocolMessageSize ≤ count := by
        rw [List.length_take] at least
        omega
      have split : (message.serialize ++ rest).take count = message.header ++
          (message.contents ++ rest).take (count - ProtocolMessage.kMinProtocolMessageSize) := by
        rw [ProtocolMessage.serialize, List.append_assoc, List.take_append,
          message.length_header, List.take_of_length_le]
        rw [message.length_header]
        exact enough
      rw [split] at seen inside
      rw [List.append_assoc, ProtocolMessage.overlay_header] at seen
      have whole : size = ProtocolMessage.kMinProtocolMessageSize + message.len.toNat := by
        rw [← taken, seen]
        rfl
      have fits : message.len.toNat ≤ count - ProtocolMessage.kMinProtocolMessageSize := by
        rw [List.length_append, message.length_header, List.length_take, whole] at inside
        omega
      refine ⟨message, rest.take (count - ProtocolMessage.kMinProtocolMessageSize -
        message.len.toNat) ++ behind, holds, ?_, ?_⟩
      · rw [seen, List.take_append, contents, List.take_of_length_le (by rw [contents]; exact fits),
          List.append_assoc]
      · have consumed : (message.serialize ++ rest).drop size = rest := by
          apply List.drop_left'
          rw [ProtocolMessage.serialize, List.length_append, message.length_header, contents,
            whole]
        rw [consumed]
        exact later

end ProtocolMessageCodec

theorem Server.Requests.sized {server : Server} {message : ProtocolMessage}
    (requests : server.Requests message) : message.len.toNat ≤ message.data.length := by
  cases requests with
  | initSelf port =>
      rw [ResolveRequest.data_initRequest, ResolveRequest.length_layout]
      exact Nat.le_of_ble_eq_true rfl
  | lookup selfAddress _ =>
      rw [ResolveRequest.data_lookupRequest, ResolveRequest.length_layout]
      exact Nat.le_of_ble_eq_true rfl

theorem Server.Requests.decode {server : Server} {message : ProtocolMessage}
    (requests : server.Requests message) (behind : List UInt8) :
    (ResolveRequest.ofData (message.contents ++ behind)).type = .kLookupNode →
      server.known (ResolveRequest.ofData (message.contents ++ behind)).peerAddr = true := by
  cases requests with
  | initSelf port =>
      rw [ResolveRequest.ofData_initRequest]
      exact ResolveRequestType.noConfusion
  | lookup selfAddress known =>
      rw [ResolveRequest.ofData_lookupRequest]
      exact fun _ => known

theorem ResolveServer.Answers.sized {conf : ResolveServerConf} {daemon : Server}
    {reply : ProtocolMessage} (answers : Answers conf daemon reply) (indexed : conf.Indexed)
    (fits : conf.Fits) : reply.len.toNat ≤ reply.data.length := by
  obtain ⟨_, _, resp, builds, _, _⟩ := answers
  obtain ⟨ipFits, pathFits⟩ := builds.fitsFields indexed fits.fitsFields
  have whole := (builds.length_contents ipFits pathFits).2
  rw [ProtocolMessage.contents, List.length_take] at whole
  omega

theorem ResolveServer.Answers.ofProtocolMessage {conf : ResolveServerConf} {daemon : Server}
    {reply : ProtocolMessage} (answers : Answers conf daemon reply) (data : List UInt8) :
    ResolveServerMessage.ofProtocolMessage { reply with data := data } =
      .kResolveResponse (.ofData data) := by
  obtain ⟨_, _, _, builds, _, _⟩ := answers
  simp only [ResolveServerMessage.ofProtocolMessage, builds.header.1]
  rfl

namespace Cluster

variable {Peer : Type} {conf : ResolveServerConf}

/-- What is under way on a link: requests that its daemon may make, and answers that
it may be given. -/
structure Link.Sound (conf : ResolveServerConf) (daemon : Server) (link : Link Peer) : Prop where
  requests : Framing.Written ProtocolMessage.serialize daemon.Requests link.toServer
  responses : Framing.Written ProtocolMessage.serialize (ResolveServer.Answers conf daemon)
    link.toDaemon

theorem Link.Sound.grow {daemon after : Server} {link : Link Peer} (sound : link.Sound conf daemon)
    (grows : ∀ nodeAddress, daemon.known nodeAddress = true → after.known nodeAddress = true) :
    link.Sound conf after where
  requests := sound.requests.mono fun _ requests => requests.mono grows
  responses := sound.responses.mono fun _ answers => answers.mono grows

/-- The configuration stays, each node is resolved to what it says, and the links
carry nothing else. -/
structure Coherent (conf : ResolveServerConf) (state : State Peer) : Prop where
  configured : state.service.server.conf = conf
  cached : ∀ peer nodeAddress addr,
    (state.daemons peer).server.resolvedAt nodeAddress = some addr →
    ∃ listed, conf.getNodeInfoByNodeAddress nodeAddress = some listed ∧ listed.netAddr = addr
  links : ∀ served link, state.links served = some link →
    link.Sound conf (state.daemons link.peer).server

theorem coherent_initial (messageServerPort : Peer → Int32)
    (resolveServerAddress : Peer → NetAddress) (conf : ResolveServerConf) :
    Coherent conf (State.initial messageServerPort resolveServerAddress conf) where
  configured := rfl
  cached := by
    intro peer nodeAddress addr resolved
    cases resolved
  links := by
    intro served link linked
    cases linked

theorem Coherent.serve {state : State Peer} (coherent : Coherent conf state)
    {service : Service.State} (same : service.server.conf = state.service.server.conf) :
    Coherent conf { state with service := service } where
  configured := same.trans coherent.configured
  cached := coherent.cached
  links := coherent.links

theorem Coherent.putLink {state : State Peer} (coherent : Coherent conf state) {served : Nat}
    {link : Link Peer} (sound : link.Sound conf (state.daemons link.peer).server) :
    Coherent conf (state.putLink served link) where
  configured := coherent.configured
  cached := coherent.cached
  links := by
    intro other known linked
    change Function.update state.links served (some link) other = some known at linked
    by_cases own : other = served
    · subst own
      rw [Function.update_self] at linked
      cases linked
      exact sound
    · rw [Function.update_of_ne own] at linked
      exact coherent.links other known linked

variable [DecidableEq Peer]

/-- A daemon handles an event, which must not bring a net address but the configured
one. -/
theorem Coherent.handle {state after : State Peer} {peer : Peer} {event : Daemon.Event}
    (coherent : Coherent conf state) (handled : state.handle peer event = some after)
    (truthful : ∀ conn resp, event = .resolveServerMessage conn (.kResolveResponse resp) →
      resp.Truthful conf (state.daemons peer).server) : Coherent conf after := by
  unfold State.handle at handled
  split at handled
  · rename_i later effects stepped
    cases handled
    have transition := Daemon.step_transition stepped
    have grows (nodeAddress : UInt32)
        (known : (state.daemons peer).server.known nodeAddress = true) :
        later.server.known nodeAddress = true := transition.known known
    refine ⟨coherent.configured, fun other nodeAddress addr resolved => ?_,
      fun served link linked => ?_⟩
    · dsimp only at resolved
      by_cases own : other = peer
      · subst own
        rw [Function.update_self] at resolved
        rcases transition.resolvedAt resolved with
          old | ⟨conn, resp, rfl, kind, rfl, rfl, certain⟩
        · exact coherent.cached other nodeAddress addr old
        · obtain ⟨known, listed⟩ := truthful conn resp rfl kind
          rcases certain with good | missing
          · exact listed good
          · rw [known] at missing
            cases missing
      · rw [Function.update_of_ne own] at resolved
        exact coherent.cached other nodeAddress addr resolved
    · obtain ⟨old, present, rfl⟩ := Option.map_eq_some_iff.mp linked
      have sound := coherent.links served old present
      unfold Link.send
      by_cases own : old.peer = peer
      · subst own
        rw [if_pos rfl]
        dsimp only
        rw [Function.update_self]
        have grown := sound.grow grows
        exact ⟨grown.requests.append (transition.requests old.conn), grown.responses⟩
      · rw [if_neg own]
        dsimp only
        rw [Function.update_of_ne own]
        exact sound
  · cases handled

theorem Coherent.preserved {before after : State Peer} {event : Event Peer}
    {outputs : List Service.Replied} (coherent : Coherent conf before) (indexed : conf.Indexed)
    (fits : conf.Fits) (stepped : step before event = some (after, outputs)) :
    Coherent conf after := by
  cases step_transition stepped with
  | daemon others handled =>
      apply coherent.handle handled
      intro conn resp same
      subst same
      cases others
  | service served => exact coherent.serve (Service.step_transition served).conf
  | connected opened handled =>
      have unchanged := (Service.step_transition opened).conf
      apply Coherent.handle ((coherent.serve unchanged).putLink ⟨.nil, .nil⟩) handled
      intro conn resp same
      cases same
  | @request served count size behind written link connection m service replies linked found
      handed answered =>
      have sound := coherent.links served link linked
      obtain ⟨message, more, requests, rfl, left⟩ := ProtocolMessageCodec.firstHanded_written
        (fun _ requests => Server.Requests.sized requests) sound.requests handed
      have replied := Service.written_replies found answered (requests.decode more)
      rw [coherent.configured] at replied
      exact (coherent.serve (Service.step_transition answered).conf).putLink
        ⟨left, sound.responses.append replied⟩
  | @response served count size behind link m after linked handed handled =>
      have sound := coherent.links served link linked
      obtain ⟨reply, more, answers, rfl, left⟩ := ProtocolMessageCodec.firstHanded_written
        (fun _ answers => ResolveServer.Answers.sized answers indexed fits) sound.responses handed
      have taken : Coherent conf (before.putLink served
          { link with toDaemon := link.toDaemon.drop size }) :=
        coherent.putLink ⟨sound.requests, left⟩
      apply taken.handle handled
      intro conn resp same
      rw [answers.ofProtocolMessage] at same
      cases same
      exact answers.truthful indexed fits more

/-- In every run, a node in state `kResolved` has the net address that the
configuration gives it. -/
theorem coherent_run {tree : Option PropertyTree} {interface : ResolveServerConf.Interface}
    (accepted : ResolveServerConf.createFromFile tree = some (interface, conf))
    (fits : conf.Fits) {messageServerPort : Peer → Int32}
    {resolveServerAddress : Peer → NetAddress}
    {history : List (EventMachine.Taken (State Peer) (Event Peer) Service.Replied)}
    {state : State Peer}
    (run : (machine Peer).Run (fun _ _ => True)
      (State.initial messageServerPort resolveServerAddress conf) history state)
    {peer : Peer} {nodeAddress : UInt32} {node : Node}
    (found : (state.daemons peer).server.findNode nodeAddress = some node)
    (known : node.resolved = true) :
    ∃ listed, conf.getNodeInfoByNodeAddress nodeAddress = some listed ∧
      node.addressOf known = listed.netAddr := by
  have coherent := run.state_invariant (Coherent conf)
    (coherent_initial messageServerPort resolveServerAddress conf)
    (fun _ _ _ _ holds _ stepped => holds.preserved
      (ResolveServerConf.indexed_createFromFile accepted) fits stepped)
  have resolved : (state.daemons peer).server.resolvedAt nodeAddress =
      some (node.addressOf known) := by
    rw [Server.resolvedAt_of_find found, Node.resolvedAddress, if_pos known, Node.addressOf,
      Option.some_get]
  obtain ⟨listed, entry, same⟩ := coherent.cached peer nodeAddress _ resolved
  exact ⟨listed, entry, same.symm⟩

/-- The node `/c/` at 10.0.0.8, and a file with this node and `/b/`. -/
def someOtherNode : ConfNode := ⟨[47, 99, 47], ⟨[49, 48, 46, 48, 46, 48, 46, 56], 8123⟩⟩

def someTree : PropertyTree where
  interface := some [.server (some .tcp) (some [49, 48, 46, 48, 46, 48, 46, 49]) (some 9999)]
  nodes := some [
    .node (some [47, 98, 47]) (some [49, 48, 46, 48, 46, 48, 46, 55]) (some 8123),
    .node (some [47, 99, 47]) (some [49, 48, 46, 48, 46, 48, 46, 56]) (some 8123)]

def someListing : ResolveServerConf :=
  (ResolveServerConf.empty.addNode Service.someTextNode
    (ResolveServerConf.absent_empty Service.someTextNode)).addNode someOtherNode (by decide)

theorem someTree_accepted : ResolveServerConf.createFromFile (some someTree) =
    some (⟨some ⟨[49, 48, 46, 48, 46, 48, 46, 49], 9999⟩, none⟩, someListing) := rfl

theorem someListing_fits : someListing.Fits := by
  intro nodeAddr node listed
  have member : node ∈ someListing.nodes.values := FiniteMap.mem_values.mpr ⟨nodeAddr, listed⟩
  have fits : ∀ node ∈ someListing.nodes.values, 0 ∉ node.netAddr.ip ∧
      node.netAddr.ip.length < kMaxIpSize ∧ node.readableAddr.length < kMaxNodePathSize := by
    decide
  exact fits node member

/-- A daemon initialises itself and looks up the other node, and reads the answer with
stale bytes behind it. -/
theorem coherent_run_lookup :
    ∃ history state node, ∃ known : node.resolved = true,
      (machine Bool).Run (fun _ _ => True)
        (State.initial (fun _ => 8123) (fun _ => Daemon.someResolveServer) someListing)
        history state ∧
      (state.daemons true).server.findNode someOtherNode.nodeAddr = some node ∧
      ∃ listed, someListing.getNodeInfoByNodeAddress someOtherNode.nodeAddr = some listed ∧
        node.addressOf known = listed.netAddr := by
  obtain ⟨history, state, run, reached⟩ := EventMachine.exists_run_of_any
    (machine Bool) (fun _ _ => True)
    (State.initial (fun _ => 8123) (fun _ => Daemon.someResolveServer) someListing)
    [.connected true ⟨Service.someTextNode.netAddr.ip, 50000⟩ (fun _ => true),
      .request 0 22 [] true, .response 0 41 [0],
      .daemon true (.busMessage 1
        ⟨⟨0, 0⟩, ⟨someOtherNode.nodeAddr, 2⟩, Message.kMagic, 3, [72, 105, 33]⟩ (fun _ => true)),
      .request 0 26 [] true, .response 0 41 [120, 47]]
    (fun reached => (reached.2.daemons true).server.has Node.resolved someOtherNode.nodeAddr)
    (by decide +kernel)
  obtain ⟨node, found, known⟩ := Server.has_iff.mp reached
  exact ⟨history, state, node, known, run, found,
    coherent_run someTree_accepted someListing_fits run found known⟩

end Cluster

end Cpmd
