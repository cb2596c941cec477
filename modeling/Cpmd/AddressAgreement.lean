import Cpmd.ConfigurationIndexes
import Cpmd.HandShake
import Cpmd.ReadableAddresses

/-! The parties that make addresses of different parts of one readable address: its
sender of the whole, the resolve server of the node's path, the node's daemon of the
client's name. -/

set_option autoImplicit false

namespace Cpmd

open Library

namespace Host

theorem exists_client_of_accepted {messageServerPort : Int32} {resolveServerAddress : NetAddress}
    {busLocation : List UInt8} {history : List (EventMachine.Taken Host Event Routed)}
    {host : Host} (run : machine.Run (fun _ _ => True)
      (initial messageServerPort resolveServerAddress busLocation) history host)
    {taken : EventMachine.Taken Host Event Routed} (member : taken ∈ history)
    {name : List UInt8} {reply : HandShakeResponse} (accepted : Accepted taken name reply) :
    ∃ client, host.clients.find (Address.create name).clientAddr = some client := by
  obtain ⟨held, _⟩ := (registry_of_run run).known taken member name reply accepted
  rw [identities, Option.isSome_map] at held
  exact Option.isSome_iff_exists.mp held

theorem handleRemoteMessage_of_find {host : Host} {m : Message} {client : LocalClient}
    (own : m.remoteAddress.nodeAddr = host.daemon.server.selfAddress)
    (found : host.clients.find m.remoteAddress.clientAddr = some client) (written : Bool)
    (behind : List UInt8) :
    (host.handleRemoteMessage written behind m).2 =
      ([(m.remoteAddress.clientAddr, (client.writeMessage m behind written).2)], true) := by
  rw [handleRemoteMessage, if_neg (not_not_intro own), deliver, found]

end Host

/-- What is known of a node by its path, and of a client by its name, is found by the
address of the path with the name behind it. -/
structure Agrees (path name : List UInt8) : Prop where
  address : Address.create (path ++ name) =
    ⟨(Address.create path).nodeAddr, (Address.create name).clientAddr⟩
  listed : ∀ interfaces children interface conf,
    ResolveServerConf.createFromFile (some ⟨interfaces, some children⟩) = some (interface, conf) →
    ∀ entry ∈ ResolveServerConf.entries children, entry.readableAddr = path →
      conf.getNodeInfoByNodeAddress (Address.create (path ++ name)).nodeAddr = some entry
  delivered : ∀ messageServerPort resolveServerAddress busLocation history host,
    Host.machine.Run (fun _ _ => True)
      (Host.initial messageServerPort resolveServerAddress busLocation) history host →
    host.daemon.server.selfAddress = (Address.create path).nodeAddr →
    ∀ taken ∈ history, ∀ reply, Host.Accepted taken name reply →
      ∃ client, host.clients.find (Address.create name).clientAddr = some client ∧
        ∀ m written behind, m.remoteAddress = Address.create (path ++ name) →
          (host.handleRemoteMessage written behind m).2 =
            ([((Address.create name).clientAddr, (client.writeMessage m behind written).2)], true)

theorem agrees_of_parts {path name : List UInt8} (node : path.getLast? = some Address.slash)
    (filled : name ≠ []) (client : Address.slash ∉ name) : Agrees path name := by
  have address := Address.create_append node filled client
  refine ⟨address, ?_, ?_⟩
  · intro interfaces children interface conf accepted entry member own
    rw [address, ← own]
    exact ResolveServerConf.find_of_accepted accepted member
  · intro messageServerPort resolveServerAddress busLocation history host run own taken member
      reply accepted
    obtain ⟨client, found⟩ := Host.exists_client_of_accepted run member accepted
    refine ⟨client, found, fun m written behind addressed => ?_⟩
    have parts := addressed.trans address
    have here : m.remoteAddress.clientAddr = (Address.create name).clientAddr := by rw [parts]
    have nodeHere : m.remoteAddress.nodeAddr = host.daemon.server.selfAddress := by
      rw [parts, own]
    rw [← here] at found ⊢
    exact Host.handleRemoteMessage_of_find nodeHere found written behind

/-- A readable address is cut in one way into the path of a node and the name of a
client, and a path with a name behind it is the address of both. -/
theorem readable_addresses_agree :
    (∀ readableAddress : List UInt8, Address.slash ∈ readableAddress →
      readableAddress.getLast? ≠ some Address.slash →
      Address.Splits readableAddress (Address.getNodeAddress readableAddress) ∧
        ∀ parts, Address.Splits readableAddress parts →
          parts = Address.getNodeAddress readableAddress) ∧
    ∀ path name : List UInt8, path.getLast? = some Address.slash → name ≠ [] →
      Address.slash ∉ name → Agrees path name := by
  constructor
  · intro readableAddress divided client
    exact ⟨Address.splits_getNodeAddress divided client,
      fun parts splits => splits.eq_getNodeAddress divided⟩
  · intro path name node filled client
    exact agrees_of_parts node filled client

/-- The path `/b//` and the name `a`. -/
theorem readable_addresses_agree_slashes :
    Address.getNodeAddress [47, 98, 47, 47, 97] = ([47, 98, 47, 47], [97]) ∧
      Agrees [47, 98, 47, 47] [97] := by
  obtain ⟨unique, agree⟩ := readable_addresses_agree
  refine ⟨?_, agree _ _ (by decide) (by decide) (by decide)⟩
  obtain ⟨_, only⟩ := unique [47, 98, 47, 47, 97] (by decide) (by decide)
  exact (only ([47, 98, 47, 47], [97]) ⟨rfl, rfl, by decide, by decide⟩).symm

end Cpmd
