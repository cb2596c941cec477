import Cpmd.Message
import Cpmd.Library.Framing
import Cpmd.Library.Loop

/-! `MessageCodec::OnRead`, which takes whole messages off the receive buffer of
a connection, and the stream grammar it is meant to accept. -/

set_option autoImplicit false

namespace Cpmd

open Library

/-- A stream of messages as it is meant: in each header the magic number and a
length that is not negative and leaves the message below `kMaxSize`. -/
def Message.read (input : List UInt8) : Framing.Verdict Message :=
  if input.length < kMinSize then .incomplete
  else
    let message := overlay input
    if !message.check then .malformed
    else if message.len.toInt < 0 ∨ (kMaxSize : Int) ≤ (kMinSize : Int) + message.len.toInt then
      .malformed
    else if input.length < kMinSize + message.len.toNatClampNeg then .incomplete
    else .frame message.trim (kMinSize + message.len.toNatClampNeg)

namespace MessageCodec

/-- The variables of the loop. `ptr` is an offset into the buffer and `handed`
lists the calls of the message callback, with the offset each message stood at. -/
structure Cursor where
  ptr : Int
  nbytes : Int32
  handed : List (Int × Message)

inductive Ended where
  /-- `conn->Close(); return;` -/
  | closed (last : Cursor)
  /-- Left by its condition or by `break`, so that `ConsumeBytes` follows. -/
  | left (last : Cursor)
  /-- A header was read outside the buffer. -/
  | fault (last : Cursor)

/-- The header at an offset, where all of it lies in the buffer. -/
def headerAt? (buffer : List UInt8) (ptr : Int) : Option Message :=
  if 0 ≤ ptr ∧ ptr + (Message.kMinSize : Int) ≤ buffer.length then
    some (Message.overlay (buffer.drop ptr.toNat))
  else none

def Cursor.advance (cursor : Cursor) (message : Message) : Cursor where
  ptr := cursor.ptr + message.size.toInt
  nbytes := cursor.nbytes - message.size
  handed := cursor.handed ++ [(cursor.ptr, message)]

/-- The loop condition and one round of the loop. -/
def round (buffer : List UInt8) (cursor : Cursor) : Cursor ⊕ Ended :=
  if cursor.nbytes ≥ Int32.ofNat Message.kMinSize then
    match headerAt? buffer cursor.ptr with
    | none => .inr (.fault cursor)
    | some message =>
        if !message.check then .inr (.closed cursor)
        else if message.size ≥ Int32.ofNat Message.kMaxSize then .inr (.closed cursor)
        else if message.size > cursor.nbytes then .inr (.left cursor)
        else .inl (cursor.advance message)
  else .inr (.left cursor)

/-- `static_cast<int>(data.size())` and `data.data()`. -/
def entry (buffer : List UInt8) : Cursor := ⟨0, Int32.ofNat buffer.length, []⟩

def OnRead (buffer : List UInt8) (ended : Ended) : Prop :=
  Loop.Ends (round buffer) (entry buffer) ended

def Reaches (buffer : List UInt8) (cursor : Cursor) : Prop :=
  Loop.Reaches (round buffer) (entry buffer) cursor

/-- `data.size() - nbytes`, in `size_t`. -/
def consumed (buffer : List UInt8) (last : Cursor) : Nat :=
  (((buffer.length : Int) - last.nbytes.toInt) % 2 ^ 64).toNat

/-- A connection as the codec leaves it: the bytes not yet consumed, whether the
codec closed it, and the messages its callback was given. -/
structure Connection where
  unread : List UInt8
  closed : Bool
  received : List Message

def Connection.fresh : Connection := ⟨[], false, []⟩

/-- More bytes arrive and `OnRead` runs on all that are unread. -/
inductive Receives : Connection → List UInt8 → Connection → Prop where
  | left {unread received chunk last} :
      OnRead (unread ++ chunk) (.left last) →
      Receives ⟨unread, false, received⟩ chunk
        ⟨(unread ++ chunk).drop (consumed (unread ++ chunk) last), false,
          received ++ last.handed.map Prod.snd⟩
  | closed {unread received chunk last} :
      OnRead (unread ++ chunk) (.closed last) →
      Receives ⟨unread, false, received⟩ chunk
        ⟨unread ++ chunk, true, received ++ last.handed.map Prod.snd⟩

inductive Feeds : Connection → List (List UInt8) → Connection → Prop where
  | nil {connection} : Feeds connection [] connection
  | cons {before middle after chunk chunks} :
      Receives before chunk middle → Feeds middle chunks after →
      Feeds before (chunk :: chunks) after

/-- Every run of `OnRead` on these chunks finds fewer unread bytes than `limit`. -/
def ReadsBelow (limit : Nat) (chunks : List (List UInt8)) : Prop :=
  ∀ earlier chunk later, chunks = earlier ++ chunk :: later →
    ∀ connection, Feeds .fresh earlier connection →
      (connection.unread ++ chunk).length < limit

end MessageCodec

end Cpmd
