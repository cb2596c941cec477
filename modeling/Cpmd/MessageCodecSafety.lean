import Cpmd.MessageCodecProperties

/-! Memory safety and termination of `MessageCodec::OnRead` on arbitrary bytes. -/

set_option autoImplicit false

namespace Cpmd.MessageCodec

open Library

/-- The loop ends, reads and hands over nothing outside its buffer, computes no
overflowing size, moves on by at least a header with each message, and consumes
no more than there is. -/
structure ReadsSafely (buffer : List UInt8) : Prop where
  ends : ∃ ended, OnRead buffer ended
  headersInside : ∀ cursor, Reaches buffer cursor →
    cursor.nbytes ≥ Int32.ofNat Message.kMinSize →
    0 ≤ cursor.ptr ∧ cursor.ptr + (Message.kMinSize : Int) ≤ buffer.length
  noOverflow : ∀ cursor message, Reaches buffer cursor →
    cursor.nbytes ≥ Int32.ofNat Message.kMinSize →
    headerAt? buffer cursor.ptr = some message → message.check = true →
    ¬ message.SizeOverflows
  handedInside : ∀ cursor position message, Reaches buffer cursor →
    (position, message) ∈ cursor.handed →
    0 ≤ position ∧ (Message.kMinSize : Int) ≤ message.size.toInt ∧
      position + message.size.toInt ≤ buffer.length
  advances : ∀ cursor next, Reaches buffer cursor → round buffer cursor = .inl next →
    cursor.ptr + (Message.kMinSize : Int) ≤ next.ptr
  consumesInside : ∀ last, OnRead buffer (.left last) → consumed buffer last ≤ buffer.length

structure Tracks (buffer : List UInt8) (cursor : Cursor) : Prop where
  atHead : ∃ head, Message.grammar.Boundary buffer head ∧ AtHead buffer head cursor
  inside : ∀ position message, (position, message) ∈ cursor.handed →
    0 ≤ position ∧ (Message.kMinSize : Int) ≤ message.size.toInt ∧
      position + message.size.toInt ≤ buffer.length

theorem tracks_entry {buffer : List UInt8} (bounded : buffer.length < 2 ^ 31) :
    Tracks buffer (entry buffer) where
  atHead := ⟨buffer, .start, atHead_entry bounded⟩
  inside := by
    intro position message member
    simp [entry] at member

theorem AtHead.ptr_eq {buffer head : List UInt8} {cursor : Cursor}
    (atHead : AtHead buffer head cursor) :
    0 ≤ cursor.ptr ∧ cursor.ptr + head.length = buffer.length := by
  obtain ⟨before, split, position⟩ := atHead.ptr
  rw [split, List.length_append, position]
  push_cast
  omega

/-- The step lemma: a round taken at a boundary ends at the next boundary, with
fewer bytes to go. -/
theorem Tracks.round {buffer : List UInt8} {cursor next : Cursor}
    (inRange : LengthsInRange buffer) (tracks : Tracks buffer cursor)
    (goes : MessageCodec.round buffer cursor = .inl next) :
    Tracks buffer next ∧ next.nbytes.toInt.toNat < cursor.nbytes.toInt.toNat ∧
      cursor.ptr + (Message.kMinSize : Int) ≤ next.ptr := by
  obtain ⟨head, boundary, atHead⟩ := tracks.atHead
  have position := atHead.ptr_eq
  have counted := atHead.nbytes
  rcases atHead.round_cases (inRange head boundary) with ⟨_, stopped⟩ | ⟨_, stopped⟩ |
      ⟨message, size, verdict, minimum, exactSize, advanced, nextHead⟩
  · rw [stopped] at goes; cases goes
  · rw [stopped] at goes; cases goes
  · rw [advanced] at goes
    cases goes
    have fits := Message.grammar.size_le verdict
    have positive := Message.grammar.size_pos verdict
    have nextCounted := nextHead.nbytes
    rw [List.length_drop] at nextCounted
    refine ⟨⟨⟨head.drop size, boundary.trans (.next verdict .start), nextHead⟩, ?_⟩, ?_, ?_⟩
    · intro earlier handed member
      rcases List.mem_append.mp member with old | new
      · exact tracks.inside earlier handed old
      · simp only [List.mem_singleton, Prod.mk.injEq] at new
        obtain ⟨rfl, rfl⟩ := new
        exact ⟨position.1, by omega, by omega⟩
    · omega
    · simp only [Cursor.advance, exactSize]
      omega

theorem Reaches.tracks {buffer : List UInt8} {cursor : Cursor} (bounded : buffer.length < 2 ^ 31)
    (inRange : LengthsInRange buffer) (reached : Reaches buffer cursor) : Tracks buffer cursor :=
  Loop.Reaches.invariant reached (tracks_entry bounded)
    (fun _ _ tracks goes => (tracks.round inRange goes).1)

theorem readsSafely_of_lengthsInRange {buffer : List UInt8} (bounded : buffer.length < 2 ^ 31)
    (inRange : LengthsInRange buffer) : ReadsSafely buffer where
  ends :=
    Loop.ends_of_measure (Tracks buffer) (fun cursor => cursor.nbytes.toInt.toNat)
      (fun _ _ tracks goes =>
        ⟨(tracks.round inRange goes).1, (tracks.round inRange goes).2.1⟩)
      (tracks_entry bounded)
  headersInside := by
    intro cursor reached enters
    obtain ⟨head, _, atHead⟩ := (reached.tracks bounded inRange).atHead
    have position := atHead.ptr_eq
    have counted := atHead.nbytes
    have minimum : (Int32.ofNat Message.kMinSize).toInt = (Message.kMinSize : Int) :=
      Int32.toInt_ofNat_of_lt (by decide)
    rw [ge_iff_le, Int32.le_iff_toInt_le] at enters
    exact ⟨position.1, by omega⟩
  noOverflow := by
    intro cursor message reached enters found checked
    obtain ⟨head, boundary, atHead⟩ := (reached.tracks bounded inRange).atHead
    have counted := atHead.nbytes
    have minimum : (Int32.ofNat Message.kMinSize).toInt = (Message.kMinSize : Int) :=
      Int32.toInt_ofNat_of_lt (by decide)
    rw [ge_iff_le, Int32.le_iff_toInt_le] at enters
    have whole : Message.kMinSize ≤ head.length := by omega
    rw [atHead.headerAt whole] at found
    cases found
    exact (inRange head boundary whole checked).2
  handedInside := fun cursor position message reached member =>
    (reached.tracks bounded inRange).inside position message member
  advances := fun cursor next reached goes =>
    ((reached.tracks bounded inRange).round inRange goes).2.2
  consumesInside := by
    intro last read
    obtain ⟨cursor, reached, done⟩ := Loop.Ends.reached read
    obtain ⟨head, boundary, atHead⟩ := (Reaches.tracks bounded inRange reached).atHead
    have same : cursor = last := by
      rcases atHead.round_cases (inRange head boundary) with ⟨_, stopped⟩ | ⟨_, stopped⟩ |
          ⟨_, _, _, _, _, goes, _⟩
      · rw [stopped] at done; cases done; rfl
      · rw [stopped] at done; cases done
      · rw [goes] at done; cases done
    subst same
    have position := atHead.ptr_eq
    have counted := atHead.nbytes
    rw [consumed, counted]
    omega

theorem Reaches.boundary {buffer input head : List UInt8} {cursor : Cursor}
    (boundary : Message.grammar.Boundary input head) (reached : Reaches buffer cursor)
    (atHead : AtHead buffer input cursor) :
    ∃ later, Reaches buffer later ∧ AtHead buffer head later := by
  induction boundary generalizing cursor with
  | start => exact ⟨cursor, reached, atHead⟩
  | next verdict _ ih =>
      obtain ⟨_, goes, nextHead, _⟩ :=
        (framed buffer).frame atHead (lengthInRange_of_frame verdict) verdict
      exact ih (Loop.Reaches.round reached goes) nextHead

/-- A negative length is accepted as a message shorter than its own header. -/
theorem AtHead.round_of_negative {buffer head : List UInt8} {cursor : Cursor}
    (atHead : AtHead buffer head cursor) (whole : Message.kMinSize ≤ head.length)
    (checked : (Message.overlay head).check = true)
    (negative : (Message.overlay head).len.toInt < 0) :
    round buffer cursor = .inl (cursor.advance (Message.overlay head)) ∧
      (Message.overlay head).size.toInt < (Message.kMinSize : Int) := by
  have counted := atHead.nbytes
  have minimum : (Int32.ofNat Message.kMinSize).toInt = (Message.kMinSize : Int) :=
    Int32.toInt_ofNat_of_lt (by decide)
  have maximum : (Int32.ofNat Message.kMaxSize).toInt = (Message.kMaxSize : Int) :=
    Int32.toInt_ofNat_of_lt (by decide)
  have bounds : (Message.kMinSize : Int) ≤ Message.kMaxSize := by decide
  have limit : (Message.kMinSize : Int) < 2 ^ 31 := by decide
  have size : (Message.overlay head).size.toInt =
      (Message.kMinSize : Int) + (Message.overlay head).len.toInt :=
    Message.size_toInt (by unfold Message.SizeOverflows; omega)
  have enters : cursor.nbytes ≥ Int32.ofNat Message.kMinSize := by
    rw [ge_iff_le, Int32.le_iff_toInt_le]
    omega
  have accepted : ¬ (Message.overlay head).size ≥ Int32.ofNat Message.kMaxSize := by
    rw [ge_iff_le, Int32.le_iff_toInt_le]
    omega
  have received : ¬ (Message.overlay head).size > cursor.nbytes := by
    rw [gt_iff_lt, Int32.lt_iff_toInt_lt]
    omega
  refine ⟨?_, by omega⟩
  simp [MessageCodec.round, enters, atHead.headerAt whole, checked, accepted, received]

/-- `OnRead` is safe on exactly the buffers in which no header at a frame
boundary, with the right magic number, has a negative length or one so large
that `Size()` overflows. -/
theorem readsSafely_iff {buffer : List UInt8} (bounded : buffer.length < 2 ^ 31) :
    ReadsSafely buffer ↔ LengthsInRange buffer := by
  refine ⟨?_, readsSafely_of_lengthsInRange bounded⟩
  intro safe head boundary whole checked
  obtain ⟨cursor, reached, atHead⟩ :=
    Reaches.boundary boundary .refl (atHead_entry bounded)
  have counted := atHead.nbytes
  have minimum : (Int32.ofNat Message.kMinSize).toInt = (Message.kMinSize : Int) :=
    Int32.toInt_ofNat_of_lt (by decide)
  have enters : cursor.nbytes ≥ Int32.ofNat Message.kMinSize := by
    rw [ge_iff_le, Int32.le_iff_toInt_le]
    omega
  refine ⟨?_, safe.noOverflow cursor _ reached enters (atHead.headerAt whole) checked⟩
  by_contra negative
  obtain ⟨goes, short⟩ := atHead.round_of_negative whole checked (by omega)
  have advanced := safe.advances cursor _ reached goes
  simp only [Cursor.advance] at advanced
  omega

theorem readsSafely_iff_default_header :
    ReadsSafely Message.default.header ↔ LengthsInRange Message.default.header :=
  readsSafely_iff (by decide)

/-- A lone header whose length cancels the size of the header. -/
def stuckHeader : List UInt8 := ({ Message.default with len := -24 } : Message).header

/-- On it the loop goes round for ever, handing over the same message each time. -/
theorem not_readsSafely_stuckHeader : ¬ ReadsSafely stuckHeader := by
  intro safe
  obtain ⟨ended, read⟩ := safe.ends
  refine Loop.not_ends_of_invariant
    (fun cursor : Cursor => cursor.ptr = 0 ∧ cursor.nbytes = 24) ?_ ⟨rfl, rfl⟩ read
  rintro ⟨ptr, nbytes, handed⟩ ⟨rfl, rfl⟩
  have atHead : AtHead stuckHeader stuckHeader ⟨0, 24, handed⟩ := ⟨⟨[], rfl, rfl⟩, rfl⟩
  obtain ⟨goes, _⟩ := atHead.round_of_negative (by decide) (by decide) (by decide)
  have size : (Message.overlay stuckHeader).size = 0 := by decide
  refine ⟨_, goes, ?_, ?_⟩ <;> simp [Cursor.advance, size]

end Cpmd.MessageCodec
