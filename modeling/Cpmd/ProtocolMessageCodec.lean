import Cpmd.ProtocolMessage
import Cpmd.Library.Framing
import Cpmd.Library.Loop

/-! `ProtocolMessageCodec::OnRead`, and the grammar of the frames it accepts. -/

set_option autoImplicit false

namespace Cpmd

open Library

/-- The reference parser: a header, refused for its magic number or its length,
and then the data, as far as they have arrived. -/
def ProtocolMessage.read (input : List UInt8) : Framing.Verdict ProtocolMessage :=
  if input.length < kMinProtocolMessageSize then .incomplete
  else
    let message := overlay input
    if message.magic ≠ kProtocolMessageMagic then .malformed
    else if kMaxProtocolDataSize ≤ message.len.toNat then .malformed
    else if input.length < message.size then .incomplete
    else .frame message.trim message.size

namespace ProtocolMessageCodec

/-- The variables of the loop. `ptr` is an offset into the buffer and `handed`
lists the calls of the message callback, with the offset each message stood at. -/
structure Cursor where
  ptr : Nat
  nbytes : Nat
  handed : List (Nat × ProtocolMessage)

inductive Ended where
  /-- `conn->Close(); return;` -/
  | closed (last : Cursor)
  /-- Left by its condition or by `break`, so that `ConsumeBytes` follows. -/
  | left (last : Cursor)
  /-- A header was read outside the buffer. -/
  | fault (last : Cursor)

/-- The header at an offset, where all of it lies in the buffer. What follows the
header goes on with the memory `behind` the bytes of the buffer. -/
def headerAt? (buffer behind : List UInt8) (ptr : Nat) : Option ProtocolMessage :=
  if ptr + ProtocolMessage.kMinProtocolMessageSize ≤ buffer.length then
    some (ProtocolMessage.overlay ((buffer ++ behind).drop ptr))
  else none

def Cursor.advance (cursor : Cursor) (message : ProtocolMessage) : Cursor where
  ptr := cursor.ptr + message.size
  nbytes := cursor.nbytes - message.size
  handed := cursor.handed ++ [(cursor.ptr, message)]

/-- The loop condition and one round of the loop. Sizes are compared as `int`,
though `nbytes` is a `size_t`. -/
def round (buffer behind : List UInt8) (cursor : Cursor) : Cursor ⊕ Ended :=
  if ProtocolMessage.kMinProtocolMessageSize ≤ cursor.nbytes then
    match headerAt? buffer behind cursor.ptr with
    | none => .inr (.fault cursor)
    | some message =>
        if message.magic ≠ ProtocolMessage.kProtocolMessageMagic then .inr (.closed cursor)
        else if ProtocolMessage.kMaxProtocolDataSize ≤ message.len.toNat then
          .inr (.closed cursor)
        else if Int32.ofNat message.size > Int32.ofNat cursor.nbytes then .inr (.left cursor)
        else .inl (cursor.advance message)
  else .inr (.left cursor)

/-- `data.size()` and `data.data()`. -/
def entry (buffer : List UInt8) : Cursor := ⟨0, buffer.length, []⟩

def OnRead (buffer behind : List UInt8) (ended : Ended) : Prop :=
  Loop.Ends (round buffer behind) (entry buffer) ended

/-- A connection as the codec leaves it: the bytes not yet consumed, whether the
codec closed it, and the messages its callback was given. -/
structure Connection where
  unread : List UInt8
  closed : Bool
  received : List ProtocolMessage

def Connection.fresh : Connection := ⟨[], false, []⟩

/-- More bytes arrive and `OnRead` runs on all that are unread, with any memory
behind them; on a closed connection it does not run any more. -/
inductive Receives : Connection → List UInt8 → Connection → Prop where
  | left {unread received chunk behind last} :
      OnRead (unread ++ chunk) behind (.left last) →
      Receives ⟨unread, false, received⟩ chunk
        ⟨(unread ++ chunk).drop ((unread ++ chunk).length - last.nbytes), false,
          received ++ last.handed.map Prod.snd⟩
  | closed {unread received chunk behind last} :
      OnRead (unread ++ chunk) behind (.closed last) →
      Receives ⟨unread, false, received⟩ chunk
        ⟨unread ++ chunk, true, received ++ last.handed.map Prod.snd⟩
  | shut {unread received chunk} :
      Receives ⟨unread, true, received⟩ chunk ⟨unread, true, received⟩

inductive Feeds : List (List UInt8) → Connection → Prop where
  | nil : Feeds [] .fresh
  | snoc {chunks chunk before after} :
      Feeds chunks before → Receives before chunk after → Feeds (chunks ++ [chunk]) after

/-- Every run of `OnRead` on these chunks finds fewer unread bytes than `limit`. -/
def ReadsBelow (limit : Nat) (chunks : List (List UInt8)) : Prop :=
  ∀ earlier chunk later, chunks = earlier ++ chunk :: later →
    ∀ connection, Feeds earlier connection → connection.closed = false →
      (connection.unread ++ chunk).length < limit

/-- No header and no message was read outside the buffer. -/
def Ended.Inside (buffer : List UInt8) : Ended → Prop
  | .fault _ => False
  | .closed last | .left last =>
      ∀ entry ∈ last.handed, entry.1 + entry.2.size ≤ buffer.length

end ProtocolMessageCodec

end Cpmd
