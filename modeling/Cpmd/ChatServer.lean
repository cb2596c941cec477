import Cpmd.ChatProtocol
import Cpmd.ClientImpl
import Cpmd.Library.QueueProgram
import Cpmd.Library.SortedEntries

/-! The server of the chatroom among the examples: its loop over the messages that other
clients send it, and the members it knows by the name they have registered. -/

set_option autoImplicit false

namespace Cpmd.Chat

open Library

/-- `m->Data().as<chat::Message>()`. A message that is too short for a chat message, or has no
NUL behind its strings, is read on beyond its end: `behind` is the memory from there, up to a
NUL at least. -/
def dataAs (m : Cpmd.Message) (behind : List UInt8) : Message := Message.ofData (m.data ++ behind)

abbrev MemberMap : Type := FiniteMap (List UInt8) Address

/-- `BroadcastMessage` from some member on: `m` is one message that is addressed anew for
each. The last component is the result. As its data were set, nothing behind `m` is sent. -/
def broadcastMessage (written : Nat → Bool) (sender : Address) :
    Nat → List (List UInt8 × Address) → Cpmd.Message → ClientImpl →
      ClientImpl × List Cpmd.Message × Bool
  | _, [], _, client => (client, [], true)
  | count, member :: rest, m, client =>
      if member.2 ≠ sender then
        let m := m.setRemoteAddress member.2
        let sent := client.sendMessage m [] (written count)
        if sent.2 ≠ .kOk then (sent.1, [], false)
        else
          let later := broadcastMessage written sender (count + 1) rest m sent.1
          (later.1, m :: later.2.1, later.2.2)
      else broadcastMessage written sender count rest m client

/-- A `Message::Default()` with what the builder makes of the sender's strings. -/
def replyMessage (type : MessageType) (name words : List UInt8) : Cpmd.Message :=
  (Cpmd.Message.default.setData
    (Message.build [.setType type, .setName name, .setWords words])).getD .default

/-- `exited` once the loop was left. -/
structure Server where
  client : ClientImpl
  members : MemberMap
  exited : Bool

/-- A message that the loop has handled, what lay behind it, and what was sent for it. -/
structure Handled where
  given : Cpmd.Message
  behind : List UInt8
  sent : List Cpmd.Message

namespace Server

def initial : Server := ⟨⟨[], []⟩, ∅, false⟩

/-- The outcome of each `Write` of a round, and the memory behind the message it receives. -/
structure Surroundings where
  written : Nat → Bool
  behind : List UInt8

/-- The body of the loop for a message that was received. -/
def handle (server : Server) (around : Surroundings) (m : Cpmd.Message) :
    Server × List Cpmd.Message :=
  let chatMessage := dataAs m around.behind
  match chatMessage.type with
  | .kRegister =>
      match server.members.find chatMessage.name with
      | none =>
          ({ server with members := (server.members.emplace chatMessage.name m.sourceAddress).1 },
            [])
      | some _ => (server, [])
  | .kHeartBeat | .unknown _ => (server, [])
  | .kMessage =>
      let told := broadcastMessage around.written m.sourceAddress 0 server.members.inOrder
        (replyMessage .kMessage chatMessage.name chatMessage.words) server.client
      ({ server with client := told.1, exited := !told.2.2 }, told.2.1)
  | .kPrivateMessage =>
      match server.members.find chatMessage.toName with
      | none => (server, [])
      | some _ =>
          let reply := replyMessage .kPrivateMessage chatMessage.name chatMessage.words
          let sent := server.client.sendMessage reply [] (around.written 0)
          if sent.2 ≠ .kOk then ({ server with client := sent.1, exited := true }, [])
          else ({ server with client := sent.1 }, [reply])

def round (server : Server) (around : Surroundings) : Option (Server × List Handled) :=
  if server.exited then none
  else
    let received := server.client.receiveMessage
    let server := { server with client := received.1 }
    match received.2 with
    | (.kOk, some m) =>
        let handled := server.handle around m
        some (handled.1, [⟨m, around.behind, handled.2⟩])
    | (.kBusEmpty, _) => some (server, [])
    | _ => some ({ server with exited := true }, [])

abbrev Event : Type := QueueProgram.Event Surroundings (List UInt8)

def program : QueueProgram Server Surroundings Handled (List UInt8) where
  input := fun server => server.client.input
  output := fun server => server.client.output
  withInput := fun server records =>
    { server with client := { server.client with input := records } }
  withOutput := fun server records =>
    { server with client := { server.client with output := records } }
  round := round
  input_withInput := fun _ _ => rfl
  output_withInput := fun _ _ => rfl
  input_withOutput := fun _ _ => rfl
  output_withOutput := fun _ _ => rfl
  withInput_input := fun _ => rfl
  withOutput_output := fun _ => rfl
  withInput_withInput := fun _ _ _ => rfl
  withOutput_withOutput := fun _ _ _ => rfl
  withInput_withOutput := fun _ _ _ => rfl

end Server

end Cpmd.Chat
