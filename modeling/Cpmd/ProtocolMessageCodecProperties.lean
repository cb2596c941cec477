import Cpmd.ProtocolMessageCodec
import Cpmd.Library.FramedLoop

/-! The receive loop for protocol messages against the grammar of their frames. -/

set_option autoImplicit false

namespace Cpmd

open Library

namespace ProtocolMessage

theorem read_frame_iff {input : List UInt8} {message : ProtocolMessage} {taken : Nat} :
    read input = .frame message taken ↔
      kMinProtocolMessageSize ≤ input.length ∧ (overlay input).magic = kProtocolMessageMagic ∧
        (overlay input).len.toNat < kMaxProtocolDataSize ∧ (overlay input).size ≤ input.length ∧
        message = (overlay input).trim ∧ taken = (overlay input).size := by
  simp only [read]
  split
  · simp; omega
  · split
    · simp [*]
    · split
      · simp; omega
      · split
        · simp; omega
        · simp only [Framing.Verdict.frame.injEq, eq_comm (a := message), eq_comm (a := taken)]
          constructor
          · intro fits
            obtain ⟨rfl, rfl⟩ := fits
            exact ⟨by omega, not_not.mp ‹_›, by omega, by omega, rfl, rfl⟩
          · intro fits
            obtain ⟨_, _, _, _, rfl, rfl⟩ := fits
            exact ⟨rfl, rfl⟩

theorem read_malformed_iff {input : List UInt8} :
    read input = .malformed ↔
      kMinProtocolMessageSize ≤ input.length ∧
        ((overlay input).magic ≠ kProtocolMessageMagic ∨
          kMaxProtocolDataSize ≤ (overlay input).len.toNat) := by
  simp only [read]
  split
  · simp; omega
  · split
    · rename_i wrong
      simp [wrong]; omega
    · have marked := not_not.mp ‹_›
      split
      · simp [marked]; omega
      · split <;> simp [marked] <;> omega

theorem read_incomplete_iff {input : List UInt8} :
    read input = .incomplete ↔
      input.length < kMinProtocolMessageSize ∨
        ((overlay input).magic = kProtocolMessageMagic ∧
          (overlay input).len.toNat < kMaxProtocolDataSize ∧
          input.length < (overlay input).size) := by
  simp only [read]
  split
  · simp; omega
  · split
    · rename_i wrong
      simp [wrong]; omega
    · have marked := not_not.mp ‹_›
      split
      · simp [marked]; omega
      · split <;> simp [marked] <;> omega

theorem magic_overlay_append {input : List UInt8}
    (whole : kMinProtocolMessageSize ≤ input.length) (more : List UInt8) :
    (overlay (input ++ more)).magic = (overlay input).magic := by
  rw [overlay_append whole]

theorem len_overlay_append {input : List UInt8}
    (whole : kMinProtocolMessageSize ≤ input.length) (more : List UInt8) :
    (overlay (input ++ more)).len = (overlay input).len := by
  rw [overlay_append whole]

theorem size_overlay_append {input : List UInt8}
    (whole : kMinProtocolMessageSize ≤ input.length) (more : List UInt8) :
    (overlay (input ++ more)).size = (overlay input).size := by
  rw [size, len_overlay_append whole, size]

theorem trim_overlay_append {input : List UInt8} (more : List UInt8)
    (inside : (overlay input).size ≤ input.length) :
    (overlay (input ++ more)).trim = (overlay input).trim := by
  unfold size at inside
  rw [overlay_append (by omega)]
  simp only [trim, contents, ProtocolMessage.mk.injEq, true_and]
  rw [List.take_append_of_le_length]
  · rfl
  · rw [List.length_drop]
    omega

theorem read_size_pos {input : List UInt8} {message : ProtocolMessage} {size : Nat}
    (verdict : read input = .frame message size) : 0 < size := by
  obtain ⟨_, _, _, _, _, rfl⟩ := read_frame_iff.mp verdict
  exact Nat.add_pos_left (by decide) _

theorem read_size_le {input : List UInt8} {message : ProtocolMessage} {size : Nat}
    (verdict : read input = .frame message size) : size ≤ input.length := by
  obtain ⟨_, _, _, inside, _, rfl⟩ := read_frame_iff.mp verdict
  exact inside

theorem read_frame_append {input : List UInt8} {message : ProtocolMessage} {size : Nat}
    (verdict : read input = .frame message size) (more : List UInt8) :
    read (input ++ more) = .frame message size := by
  obtain ⟨whole, marked, small, inside, rfl, rfl⟩ := read_frame_iff.mp verdict
  rw [read_frame_iff, magic_overlay_append whole, len_overlay_append whole,
    size_overlay_append whole, trim_overlay_append more inside, List.length_append]
  exact ⟨by omega, marked, small, by omega, rfl, rfl⟩

theorem read_malformed_append {input : List UInt8} (verdict : read input = .malformed)
    (more : List UInt8) : read (input ++ more) = .malformed := by
  obtain ⟨whole, bad⟩ := read_malformed_iff.mp verdict
  rw [read_malformed_iff, magic_overlay_append whole, len_overlay_append whole,
    List.length_append]
  exact ⟨by omega, bad⟩

def grammar : Framing.Grammar UInt8 ProtocolMessage where
  read := read
  size_pos := read_size_pos
  size_le := read_size_le
  frame_append := read_frame_append
  malformed_append := read_malformed_append

theorem grammar_read (input : List UInt8) : grammar.read input = read input := rfl

theorem toInt_size (message : ProtocolMessage) :
    (Int32.ofNat message.size).toInt = (message.size : Int) := by
  have bound := message.len.toNat_lt
  refine Int32.toInt_ofNat_of_lt ?_
  simp only [size, kMinProtocolMessageSize]
  omega

end ProtocolMessage

namespace ProtocolMessageCodec

/-- The loop is about to look at `head`, and `nbytes` counts the bytes from there. -/
structure AtHead (buffer head : List UInt8) (cursor : Cursor) : Prop where
  ptr : ∃ before, buffer = before ++ head ∧ cursor.ptr = before.length
  nbytes : cursor.nbytes = head.length

theorem atHead_entry (buffer : List UInt8) : AtHead buffer buffer (entry buffer) :=
  ⟨⟨[], rfl, rfl⟩, rfl⟩

theorem AtHead.headerAt {buffer head : List UInt8} {cursor : Cursor}
    (atHead : AtHead buffer head cursor) (behind : List UInt8)
    (whole : ProtocolMessage.kMinProtocolMessageSize ≤ head.length) :
    headerAt? buffer behind cursor.ptr = some (ProtocolMessage.overlay (head ++ behind)) := by
  obtain ⟨before, split, position⟩ := atHead.ptr
  have inside : cursor.ptr + ProtocolMessage.kMinProtocolMessageSize ≤ buffer.length := by
    rw [split, List.length_append, position]
    omega
  rw [headerAt?, if_pos inside, position, split, List.append_assoc, List.drop_left]

theorem AtHead.advance {buffer head : List UInt8} {cursor : Cursor} {message : ProtocolMessage}
    (atHead : AtHead buffer head cursor) (inside : message.size ≤ head.length) :
    AtHead buffer (head.drop message.size) (cursor.advance message) := by
  obtain ⟨before, split, position⟩ := atHead.ptr
  refine ⟨⟨before ++ head.take message.size, ?_, ?_⟩, ?_⟩
  · rw [List.append_assoc, List.take_append_drop, split]
  · simp only [Cursor.advance, position, List.length_append, List.length_take]
    omega
  · simp only [Cursor.advance, atHead.nbytes, List.length_drop]

/-- A round that goes on has handed over a message that lies in the buffer,
however many bytes there are. -/
theorem AtHead.round_goes {buffer head behind : List UInt8} {cursor next : Cursor}
    (atHead : AtHead buffer head cursor) (goes : round buffer behind cursor = .inl next) :
    ∃ message, message = ProtocolMessage.overlay (head ++ behind) ∧
      message.size ≤ head.length ∧ next = cursor.advance message := by
  by_cases whole : ProtocolMessage.kMinProtocolMessageSize ≤ head.length
  · simp only [round, atHead.nbytes, whole, if_true, atHead.headerAt behind whole] at goes
    split at goes
    · cases goes
    · split at goes
      · cases goes
      · split at goes
        · cases goes
        · rename_i received
          refine ⟨_, rfl, ?_, (Sum.inl.inj goes).symm⟩
          -- a count that an `int` cannot hold only becomes smaller
          have counted : (Int32.ofNat head.length).toInt ≤ head.length := by
            rw [Int32.toInt_ofNat', Int.bmod_eq_emod]
            simp only [Int32.size]
            split <;> omega
          have size := (ProtocolMessage.overlay (head ++ behind)).toInt_size
          rw [gt_iff_lt, Int32.lt_iff_toInt_lt] at received
          omega
  · simp [round, atHead.nbytes, whole] at goes

theorem AtHead.round_ne_fault {buffer head behind : List UInt8} {cursor last : Cursor}
    (atHead : AtHead buffer head cursor) : round buffer behind cursor ≠ .inr (.fault last) := by
  intro faults
  by_cases whole : ProtocolMessage.kMinProtocolMessageSize ≤ head.length
  · simp only [round, atHead.nbytes, whole, if_true, atHead.headerAt behind whole] at faults
    split at faults
    · cases faults
    · split at faults
      · cases faults
      · split at faults <;> cases faults
  · simp [round, atHead.nbytes, whole] at faults

/-- One round follows the grammar's verdict on the head it looks at, if an `int`
can count the bytes from there. -/
theorem AtHead.round_cases {buffer head : List UInt8} {cursor : Cursor}
    (atHead : AtHead buffer head cursor) (behind : List UInt8) (bounded : head.length < 2 ^ 31) :
    (ProtocolMessage.grammar.read head = .incomplete ∧
      round buffer behind cursor = .inr (.left cursor)) ∨
    (ProtocolMessage.grammar.read head = .malformed ∧
      round buffer behind cursor = .inr (.closed cursor)) ∨
    (∃ message : ProtocolMessage,
      ProtocolMessage.grammar.read head = .frame message.trim message.size ∧
      round buffer behind cursor = .inl (cursor.advance message) ∧
      AtHead buffer (head.drop message.size) (cursor.advance message)) := by
  have counted : (Int32.ofNat head.length).toInt = (head.length : Int) :=
    Int32.toInt_ofNat_of_lt bounded
  simp only [ProtocolMessage.grammar_read]
  by_cases whole : ProtocolMessage.kMinProtocolMessageSize ≤ head.length
  · have magic := ProtocolMessage.magic_overlay_append whole behind
    have len := ProtocolMessage.len_overlay_append whole behind
    have size := ProtocolMessage.size_overlay_append whole behind
    have sizeInt := (ProtocolMessage.overlay (head ++ behind)).toInt_size
    by_cases marked : (ProtocolMessage.overlay head).magic = ProtocolMessage.kProtocolMessageMagic
    · by_cases small : (ProtocolMessage.overlay head).len.toNat <
          ProtocolMessage.kMaxProtocolDataSize
      · have accepted : ¬ ProtocolMessage.kMaxProtocolDataSize ≤
            (ProtocolMessage.overlay (head ++ behind)).len.toNat := by
          rw [len]
          omega
        by_cases inside : (ProtocolMessage.overlay head).size ≤ head.length
        · have received : ¬ Int32.ofNat (ProtocolMessage.overlay (head ++ behind)).size >
              Int32.ofNat head.length := by
            rw [gt_iff_lt, Int32.lt_iff_toInt_lt]
            omega
          refine .inr (.inr ⟨ProtocolMessage.overlay (head ++ behind),
            ProtocolMessage.read_frame_iff.mpr ⟨whole, marked, small, inside,
              ProtocolMessage.trim_overlay_append behind inside, size⟩, ?_,
            atHead.advance (by omega)⟩)
          simp [round, atHead.nbytes, whole, atHead.headerAt behind whole, magic, marked, accepted,
            received]
        · have partly : Int32.ofNat (ProtocolMessage.overlay (head ++ behind)).size >
              Int32.ofNat head.length := by
            rw [gt_iff_lt, Int32.lt_iff_toInt_lt]
            omega
          refine .inl ⟨ProtocolMessage.read_incomplete_iff.mpr (.inr ⟨marked, small, by omega⟩), ?_⟩
          simp [round, atHead.nbytes, whole, atHead.headerAt behind whole, magic, marked, accepted,
            partly]
      · have refused : ProtocolMessage.kMaxProtocolDataSize ≤
            (ProtocolMessage.overlay (head ++ behind)).len.toNat := by
          rw [len]
          omega
        refine .inr (.inl ⟨ProtocolMessage.read_malformed_iff.mpr ⟨whole, .inr (by omega)⟩, ?_⟩)
        simp [round, atHead.nbytes, whole, atHead.headerAt behind whole, magic, marked, refused]
    · refine .inr (.inl ⟨ProtocolMessage.read_malformed_iff.mpr ⟨whole, .inl marked⟩, ?_⟩)
      simp [round, atHead.nbytes, whole, atHead.headerAt behind whole, magic, marked]
  · refine .inl ⟨ProtocolMessage.read_incomplete_iff.mpr (.inl (by omega)), ?_⟩
    simp [round, atHead.nbytes, whole]

theorem framed (buffer behind : List UInt8) :
    FramedLoop ProtocolMessage.grammar (round buffer behind) (AtHead buffer)
      (fun head => head.length < 2 ^ 31) .left .closed
      (fun cursor => cursor.handed.map fun entry => entry.2.trim) where
  incomplete atHead bounded verdict := by
    rcases atHead.round_cases behind bounded with ⟨_, done⟩ | ⟨other, _⟩ | ⟨_, other, _⟩
    · exact done
    · rw [verdict] at other; cases other
    · rw [verdict] at other; cases other
  malformed atHead bounded verdict := by
    rcases atHead.round_cases behind bounded with ⟨other, _⟩ | ⟨_, done⟩ | ⟨_, other, _⟩
    · rw [verdict] at other; cases other
    · exact done
    · rw [verdict] at other; cases other
  frame {_ cursor _ _} atHead bounded verdict := by
    rcases atHead.round_cases behind bounded with ⟨other, _⟩ | ⟨other, _⟩ |
        ⟨message, other, goes, nextHead⟩
    · rw [verdict] at other; cases other
    · rw [verdict] at other; cases other
    · rw [verdict] at other
      cases other
      exact ⟨cursor.advance message, goes, nextHead, by simp [Cursor.advance]⟩

/-- A whole frame at the start of the buffer is handed over in the first round. -/
theorem round_serialize {m : ProtocolMessage}
    (magic : m.magic = ProtocolMessage.kProtocolMessageMagic)
    (small : m.len.toNat < ProtocolMessage.kMaxProtocolDataSize)
    (stored : m.contents.length = m.len.toNat) {following : List UInt8}
    (bounded : (m.serialize ++ following).length < 2 ^ 31) (behind : List UInt8) :
    round (m.serialize ++ following) behind (entry (m.serialize ++ following)) =
      .inl ((entry (m.serialize ++ following)).advance
        { m with data := m.contents ++ (following ++ behind) }) := by
  have length : m.serialize.length = m.size := ProtocolMessage.length_serialize stored
  have seen (more : List UInt8) : ProtocolMessage.overlay (m.serialize ++ more) =
      { m with data := m.contents ++ more } := by
    rw [ProtocolMessage.serialize, List.append_assoc, ProtocolMessage.overlay_header]
  have whole : m.size ≤ (m.serialize ++ following).length := by
    rw [List.length_append, length]
    exact Nat.le_add_right _ _
  have verdict : ProtocolMessage.grammar.read (m.serialize ++ following) =
      .frame (ProtocolMessage.overlay (m.serialize ++ following)).trim m.size := by
    rw [ProtocolMessage.grammar_read, ProtocolMessage.read_frame_iff, seen]
    exact ⟨Nat.le_trans (Nat.le_add_right _ _) whole, magic, small, whole, rfl, rfl⟩
  have atHead := atHead_entry (m.serialize ++ following)
  obtain ⟨_, goes, _⟩ := (framed _ behind).frame atHead bounded verdict
  obtain ⟨message, same, _, next⟩ := atHead.round_goes goes
  rw [List.append_assoc, seen] at same
  rw [goes, next, same]

/-- A buffer with one whole frame in it is handed over as that and consumed. -/
theorem onRead_serialize {m : ProtocolMessage}
    (magic : m.magic = ProtocolMessage.kProtocolMessageMagic)
    (small : m.len.toNat < ProtocolMessage.kMaxProtocolDataSize)
    (stored : m.contents.length = m.len.toNat) (behind : List UInt8) :
    OnRead m.serialize behind
      (.left ⟨m.serialize.length, 0, [(0, { m with data := m.contents ++ behind })]⟩) := by
  have length : m.serialize.length = m.size := ProtocolMessage.length_serialize stored
  have bounded : (m.serialize ++ []).length < 2 ^ 31 := by
    have limit := m.len.toNat_lt
    rw [List.append_nil, length, ProtocolMessage.size, ProtocolMessage.kMinProtocolMessageSize]
    omega
  have goes := round_serialize magic small stored bounded behind
  rw [List.append_nil, List.nil_append] at goes
  refine (Loop.ends_iff_of_continues goes).mpr (Loop.ends_of_done ?_)
  simp [round, Cursor.advance, entry, length, ProtocolMessage.size,
    ProtocolMessage.kMinProtocolMessageSize]

theorem round_done {buffer behind : List UInt8} {cursor : Cursor} {ended : Ended}
    (done : round buffer behind cursor = .inr ended) :
    ended = .fault cursor ∨ ended = .closed cursor ∨ ended = .left cursor := by
  simp only [round] at done
  split at done
  · split at done
    · exact .inl (Sum.inr.inj done).symm
    · split at done
      · exact .inr (.inl (Sum.inr.inj done).symm)
      · split at done
        · exact .inr (.inl (Sum.inr.inj done).symm)
        · split at done
          · exact .inr (.inr (Sum.inr.inj done).symm)
          · cases done
  · exact .inr (.inr (Sum.inr.inj done).symm)

def Ended.last : Ended → Cursor
  | .closed last | .left last | .fault last => last

theorem round_advances {buffer behind : List UInt8} {cursor next : Cursor}
    (goes : round buffer behind cursor = .inl next) :
    ∃ message, next = cursor.advance message := by
  simp only [round] at goes
  split at goes
  · split at goes
    · cases goes
    · split at goes
      · cases goes
      · split at goes
        · cases goes
        · split at goes
          · cases goes
          · exact ⟨_, (Sum.inl.inj goes).symm⟩
  · cases goes

/-- What was handed over in the first round comes first, whatever follows the frame. -/
theorem onRead_frame {m : ProtocolMessage}
    (magic : m.magic = ProtocolMessage.kProtocolMessageMagic)
    (small : m.len.toNat < ProtocolMessage.kMaxProtocolDataSize)
    (stored : m.contents.length = m.len.toNat) {following behind : List UInt8}
    (bounded : (m.serialize ++ following).length < 2 ^ 31) {ended : Ended}
    (read : OnRead (m.serialize ++ following) behind ended) :
    ∃ rest, ended.last.handed =
      (0, { m with data := m.contents ++ (following ++ behind) }) :: rest := by
  have goes := round_serialize magic small stored bounded behind
  obtain ⟨last, reached, done⟩ := ((Loop.ends_iff_of_continues goes).mp read).reached
  let first : Nat × ProtocolMessage := (0, { m with data := m.contents ++ (following ++ behind) })
  let given : Cursor → Prop := fun cursor => [first] <+: cursor.handed
  have initial : given ((entry (m.serialize ++ following)).advance first.2) := List.prefix_refl _
  have kept (cursor next : Cursor) (holds : given cursor)
      (goes : round (m.serialize ++ following) behind cursor = .inl next) : given next := by
    obtain ⟨message, rfl⟩ := round_advances goes
    exact holds.trans (List.prefix_append _ _)
  obtain ⟨rest, handed⟩ := reached.invariant initial kept
  refine ⟨rest, ?_⟩
  rcases round_done done with rfl | rfl | rfl <;> exact handed.symm

/-- At each head of the loop the messages handed over lie in the buffer, and the
cursor stands behind them. -/
def Tracks (buffer : List UInt8) (cursor : Cursor) : Prop :=
  (∃ head, AtHead buffer head cursor) ∧
    ∀ entry ∈ cursor.handed, entry.1 + entry.2.size ≤ buffer.length

theorem tracks_entry (buffer : List UInt8) : Tracks buffer (entry buffer) :=
  ⟨⟨buffer, atHead_entry buffer⟩, by simp [entry]⟩

theorem Tracks.round {buffer behind : List UInt8} {cursor next : Cursor}
    (tracks : Tracks buffer cursor)
    (goes : ProtocolMessageCodec.round buffer behind cursor = .inl next) :
    Tracks buffer next ∧ next.nbytes < cursor.nbytes := by
  obtain ⟨⟨head, atHead⟩, inside⟩ := tracks
  obtain ⟨message, _, fits, rfl⟩ := atHead.round_goes goes
  obtain ⟨before, split, position⟩ := atHead.ptr
  have counted := atHead.nbytes
  have positive : 0 < message.size := Nat.add_pos_left (by decide) _
  refine ⟨⟨⟨_, atHead.advance fits⟩, fun entry member => ?_⟩, ?_⟩
  · rcases List.mem_append.mp member with old | new
    · exact inside entry old
    · cases List.mem_singleton.mp new
      rw [position, split, List.length_append]
      dsimp only
      omega
  · simp only [Cursor.advance]
    omega

/-- Whatever the buffer holds, and whatever lies behind it, `OnRead` ends, and
reads nothing outside the buffer. -/
theorem onRead_inside (buffer behind : List UInt8) :
    ∃ ended, OnRead buffer behind ended ∧ ended.Inside buffer := by
  obtain ⟨ended, ends⟩ := Loop.ends_of_measure (Tracks buffer) Cursor.nbytes
    (fun _ _ tracks goes => tracks.round goes) (tracks_entry buffer)
  refine ⟨ended, ends, ?_⟩
  obtain ⟨last, reached, done⟩ := ends.reached
  obtain ⟨⟨head, atHead⟩, inside⟩ := reached.invariant (tracks_entry buffer)
    (fun _ _ tracks goes => (tracks.round goes).1)
  rcases round_done done with rfl | rfl | rfl
  · exact absurd done atHead.round_ne_fault
  · exact inside
  · exact inside

end ProtocolMessageCodec

end Cpmd
