import Cpmd.MessageCodec
import Cpmd.Library.FramedLoop

/-! The receive loop against the stream grammar. While every header at a frame
boundary has a length in range, the loop follows the grammar frame by frame; the
first length out of range is where it leaves it. -/

set_option autoImplicit false

namespace Cpmd

open Library

namespace Message

theorem read_frame_iff {input : List UInt8} {message : Message} {taken : Nat} :
    read input = .frame message taken ↔
      kMinSize ≤ input.length ∧ (overlay input).check = true ∧
        0 ≤ (overlay input).len.toInt ∧
        (kMinSize : Int) + (overlay input).len.toInt < kMaxSize ∧
        kMinSize + (overlay input).len.toNatClampNeg ≤ input.length ∧
        message = (overlay input).trim ∧
        taken = kMinSize + (overlay input).len.toNatClampNeg := by
  simp only [read]
  split
  · simp; omega
  · split
    · rename_i failed
      simp at failed
      simp [failed]
    · rename_i passed
      simp at passed
      split
      · simp [passed]; omega
      · split
        · simp; omega
        · simp only [Framing.Verdict.frame.injEq, eq_comm (a := message), eq_comm (a := taken),
            passed, true_and]
          constructor
          · intro fits
            obtain ⟨rfl, rfl⟩ := fits
            refine ⟨?_, ?_, ?_, ?_, rfl, rfl⟩ <;> omega
          · intro fits
            obtain ⟨_, _, _, _, rfl, rfl⟩ := fits
            exact ⟨rfl, rfl⟩

theorem read_malformed_iff {input : List UInt8} :
    read input = .malformed ↔
      kMinSize ≤ input.length ∧ ((overlay input).check = false ∨
        (overlay input).len.toInt < 0 ∨
        (kMaxSize : Int) ≤ (kMinSize : Int) + (overlay input).len.toInt) := by
  simp only [read]
  split
  · simp; omega
  · split
    · rename_i failed
      simp at failed
      simp [failed]; omega
    · rename_i passed
      simp at passed
      split
      · simp [passed]; omega
      · split <;> simp [passed] <;> omega

theorem read_incomplete_iff {input : List UInt8} :
    read input = .incomplete ↔
      input.length < kMinSize ∨
        ((overlay input).check = true ∧ 0 ≤ (overlay input).len.toInt ∧
          (kMinSize : Int) + (overlay input).len.toInt < kMaxSize ∧
          input.length < kMinSize + (overlay input).len.toNatClampNeg) := by
  simp only [read]
  split
  · simp; omega
  · split
    · rename_i failed
      simp at failed
      simp [failed]; omega
    · rename_i passed
      simp at passed
      split
      · simp [passed]; omega
      · split <;> simp [passed] <;> omega

theorem check_overlay_append {input : List UInt8} (whole : kMinSize ≤ input.length)
    (more : List UInt8) : (overlay (input ++ more)).check = (overlay input).check := by
  rw [overlay_append whole]
  rfl

theorem len_overlay_append {input : List UInt8} (whole : kMinSize ≤ input.length)
    (more : List UInt8) : (overlay (input ++ more)).len = (overlay input).len := by
  rw [overlay_append whole]

theorem trim_overlay_append {input : List UInt8} (more : List UInt8)
    (inside : kMinSize + (overlay input).len.toNatClampNeg ≤ input.length) :
    (overlay (input ++ more)).trim = (overlay input).trim := by
  rw [overlay_append (by omega)]
  simp only [trim, contents, Message.mk.injEq, true_and]
  rw [List.take_append_of_le_length]
  · rfl
  · rw [List.length_drop]
    omega

theorem read_size_pos {input : List UInt8} {message : Message} {size : Nat}
    (verdict : read input = .frame message size) : 0 < size := by
  obtain ⟨_, _, _, _, _, _, taken⟩ := read_frame_iff.mp verdict
  simp only [kMinSize] at taken
  omega

theorem read_size_le {input : List UInt8} {message : Message} {size : Nat}
    (verdict : read input = .frame message size) : size ≤ input.length := by
  obtain ⟨_, _, _, _, inside, _, taken⟩ := read_frame_iff.mp verdict
  omega

theorem read_frame_append {input : List UInt8} {message : Message} {size : Nat}
    (verdict : read input = .frame message size) (more : List UInt8) :
    read (input ++ more) = .frame message size := by
  obtain ⟨whole, checked, nonneg, small, inside, rfl, rfl⟩ := read_frame_iff.mp verdict
  rw [read_frame_iff, check_overlay_append whole, len_overlay_append whole,
    trim_overlay_append more inside, List.length_append]
  exact ⟨by omega, checked, nonneg, small, by omega, rfl, rfl⟩

theorem read_malformed_append {input : List UInt8} (verdict : read input = .malformed)
    (more : List UInt8) : read (input ++ more) = .malformed := by
  obtain ⟨whole, bad⟩ := read_malformed_iff.mp verdict
  rw [read_malformed_iff, check_overlay_append whole, len_overlay_append whole,
    List.length_append]
  exact ⟨by omega, bad⟩

def grammar : Framing.Grammar UInt8 Message where
  read := read
  size_pos := read_size_pos
  size_le := read_size_le
  frame_append := read_frame_append
  malformed_append := read_malformed_append

theorem grammar_read (input : List UInt8) : grammar.read input = read input := rfl

theorem WellFormed.read_serialize {message : Message} (formed : message.WellFormed)
    (rest : List UInt8) :
    grammar.read (message.serialize ++ rest) =
      .frame message.trim (kMinSize + message.len.toNatClampNeg) := by
  have contentsLength := length_contents formed
  have seen : overlay (message.serialize ++ rest) =
      { message with data := message.contents ++ rest } := by
    rw [serialize, List.append_assoc, overlay_header]
  have taken : (message.contents ++ rest).take message.len.toNatClampNeg = message.contents := by
    rw [← contentsLength, List.take_left]
  rw [grammar_read, read_frame_iff, seen]
  refine ⟨?_, by simp [check, formed.magic], formed.nonneg, formed.small, ?_, ?_, rfl⟩
  · rw [List.length_append, length_serialize formed]
    omega
  · rw [List.length_append, length_serialize formed]
    dsimp only
    omega
  · simp only [trim, contents, Message.mk.injEq, true_and]
    exact taken.symm

def stream (messages : List Message) : List UInt8 := messages.flatMap serialize

@[simp] theorem stream_nil : stream [] = [] := rfl

@[simp] theorem stream_cons (message : Message) (messages : List Message) :
    stream (message :: messages) = message.serialize ++ stream messages := rfl

theorem parses_stream {messages : List Message}
    (formed : ∀ message ∈ messages, message.WellFormed) :
    grammar.Parses (stream messages) (messages.map trim) (.rest []) := by
  induction messages with
  | nil =>
      have short : grammar.read [] = .incomplete := rfl
      exact .incomplete short
  | cons message messages ih =>
      have first := formed message (by simp)
      have remaining := ih (fun later member => formed later (by simp [member]))
      refine .frame (first.read_serialize (stream messages)) ?_
      rwa [← length_serialize first, stream_cons, List.drop_left]

theorem boundary_stream {messages : List Message} {head : List UInt8}
    (formed : ∀ message ∈ messages, message.WellFormed)
    (boundary : grammar.Boundary (stream messages) head) :
    ∃ later, later <:+ messages ∧ head = stream later := by
  induction messages with
  | nil =>
      have empty : head = [] := by simpa using boundary.suffix
      exact ⟨[], List.suffix_refl _, empty⟩
  | cons message messages ih =>
      have first := formed message (by simp)
      cases boundary with
      | start => exact ⟨_, List.suffix_refl _, rfl⟩
      | next verdict boundary =>
          have known := first.read_serialize (stream messages)
          rw [stream_cons] at verdict boundary
          rw [known] at verdict
          cases verdict
          rw [← length_serialize first, List.drop_left] at boundary
          obtain ⟨later, suffix, same⟩ :=
            ih (fun later member => formed later (by simp [member])) boundary
          exact ⟨later, suffix.trans (List.suffix_cons _ _), same⟩

end Message

namespace MessageCodec

/-- A length that the loop handles as meant: not negative, and without overflow
in the computation of `Size()`. A head that holds no whole header, or one whose
magic number is refused, has no length to look at. -/
def LengthInRange (head : List UInt8) : Prop :=
  Message.kMinSize ≤ head.length → (Message.overlay head).check = true →
    0 ≤ (Message.overlay head).len.toInt ∧ ¬ (Message.overlay head).SizeOverflows

def LengthsInRange (buffer : List UInt8) : Prop :=
  ∀ head, Message.grammar.Boundary buffer head → LengthInRange head

theorem lengthInRange_of_frame {head : List UInt8} {message : Message} {size : Nat}
    (verdict : Message.grammar.read head = .frame message size) : LengthInRange head := by
  obtain ⟨_, _, nonneg, small, _, _, _⟩ := Message.read_frame_iff.mp verdict
  have limit : (Message.kMaxSize : Int) < 2 ^ 31 := by decide
  exact fun _ _ => ⟨nonneg, by unfold Message.SizeOverflows; omega⟩

/-- The loop is about to look at `head`, and `nbytes` counts the bytes from there. -/
structure AtHead (buffer head : List UInt8) (cursor : Cursor) : Prop where
  ptr : ∃ before, buffer = before ++ head ∧ cursor.ptr = before.length
  nbytes : cursor.nbytes.toInt = head.length

theorem atHead_entry {buffer : List UInt8} (bounded : buffer.length < 2 ^ 31) :
    AtHead buffer buffer (entry buffer) :=
  ⟨⟨[], rfl, rfl⟩, Int32.toInt_ofNat_of_lt bounded⟩

theorem AtHead.headerAt {buffer head : List UInt8} {cursor : Cursor}
    (atHead : AtHead buffer head cursor) (whole : Message.kMinSize ≤ head.length) :
    headerAt? buffer cursor.ptr = some (Message.overlay head) := by
  obtain ⟨before, split, position⟩ := atHead.ptr
  have inside : 0 ≤ cursor.ptr ∧ cursor.ptr + (Message.kMinSize : Int) ≤ buffer.length := by
    rw [split, List.length_append, position]
    push_cast
    omega
  rw [headerAt?, if_pos inside, position, Int.toNat_natCast, split, List.drop_left]

theorem AtHead.advance {buffer head : List UInt8} {cursor : Cursor} {message : Message}
    {size : Nat} (atHead : AtHead buffer head cursor)
    (exactSize : message.size.toInt = (size : Int))
    (inside : size ≤ head.length) :
    AtHead buffer (head.drop size) (cursor.advance message) := by
  obtain ⟨before, split, position⟩ := atHead.ptr
  have upper := cursor.nbytes.toInt_lt
  have counted := atHead.nbytes
  refine ⟨⟨before ++ head.take size, ?_, ?_⟩, ?_⟩
  · rw [List.append_assoc, List.take_append_drop, split]
  · simp only [Cursor.advance, exactSize, position, List.length_append, List.length_take]
    omega
  · rw [Cursor.advance, Int32.toInt_sub, exactSize, counted, List.length_drop, Int.bmod_eq_of_le]
      <;> omega

/-- One round follows the grammar's verdict on the head it looks at. -/
theorem AtHead.round_cases {buffer head : List UInt8} {cursor : Cursor}
    (atHead : AtHead buffer head cursor) (inRange : LengthInRange head) :
    (Message.grammar.read head = .incomplete ∧ round buffer cursor = .inr (.left cursor)) ∨
    (Message.grammar.read head = .malformed ∧ round buffer cursor = .inr (.closed cursor)) ∨
    (∃ (message : Message) (size : Nat), Message.grammar.read head = .frame message.trim size ∧
      Message.kMinSize ≤ size ∧ message.size.toInt = (size : Int) ∧
      round buffer cursor = .inl (cursor.advance message) ∧
      AtHead buffer (head.drop size) (cursor.advance message)) := by
  have counted := atHead.nbytes
  rw [Message.grammar_read]
  have minimum : (Int32.ofNat Message.kMinSize).toInt = (Message.kMinSize : Int) :=
    Int32.toInt_ofNat_of_lt (by decide)
  have maximum : (Int32.ofNat Message.kMaxSize).toInt = (Message.kMaxSize : Int) :=
    Int32.toInt_ofNat_of_lt (by decide)
  by_cases whole : Message.kMinSize ≤ head.length
  · have enters : cursor.nbytes ≥ Int32.ofNat Message.kMinSize := by
      rw [ge_iff_le, Int32.le_iff_toInt_le]
      omega
    cases checked : (Message.overlay head).check with
    | false =>
        refine .inr (.inl ⟨Message.read_malformed_iff.mpr ⟨whole, .inl checked⟩, ?_⟩)
        simp [round, enters, atHead.headerAt whole, checked]
    | true =>
        obtain ⟨nonneg, within⟩ := inRange whole checked
        have size := Message.size_toInt within
        have length := Message.toInt_len nonneg
        by_cases small : (Message.kMinSize : Int) + (Message.overlay head).len.toInt <
            Message.kMaxSize
        · have accepted : ¬ (Message.overlay head).size ≥ Int32.ofNat Message.kMaxSize := by
            rw [ge_iff_le, Int32.le_iff_toInt_le]
            omega
          by_cases inside : Message.kMinSize + (Message.overlay head).len.toNatClampNeg ≤
              head.length
          · have received : ¬ (Message.overlay head).size > cursor.nbytes := by
              rw [gt_iff_lt, Int32.lt_iff_toInt_lt]
              omega
            have exactSize : (Message.overlay head).size.toInt =
                ((Message.kMinSize + (Message.overlay head).len.toNatClampNeg : Nat) : Int) := by
              push_cast
              omega
            refine .inr (.inr ⟨Message.overlay head, _,
              Message.read_frame_iff.mpr ⟨whole, checked, nonneg, small, inside, rfl, rfl⟩,
              Nat.le_add_right _ _, exactSize, ?_, atHead.advance exactSize inside⟩)
            simp [round, enters, atHead.headerAt whole, checked, accepted, received]
          · have partly : (Message.overlay head).size > cursor.nbytes := by
              rw [gt_iff_lt, Int32.lt_iff_toInt_lt]
              omega
            refine .inl ⟨Message.read_incomplete_iff.mpr
              (.inr ⟨checked, nonneg, small, by omega⟩), ?_⟩
            simp [round, enters, atHead.headerAt whole, checked, accepted, partly]
        · have refused : (Message.overlay head).size ≥ Int32.ofNat Message.kMaxSize := by
            rw [ge_iff_le, Int32.le_iff_toInt_le]
            omega
          refine .inr (.inl ⟨Message.read_malformed_iff.mpr
            ⟨whole, .inr (.inr (by omega))⟩, ?_⟩)
          simp [round, enters, atHead.headerAt whole, checked, refused]
  · have stays : ¬ cursor.nbytes ≥ Int32.ofNat Message.kMinSize := by
      rw [ge_iff_le, Int32.le_iff_toInt_le]
      omega
    refine .inl ⟨Message.read_incomplete_iff.mpr (.inl (by omega)), ?_⟩
    simp [round, stays]

theorem framed (buffer : List UInt8) :
    FramedLoop Message.grammar (round buffer) (AtHead buffer) LengthInRange .left .closed
      (fun cursor => cursor.handed.map fun entry => entry.2.trim) where
  incomplete atHead inRange verdict := by
    rcases atHead.round_cases inRange with ⟨_, done⟩ | ⟨other, _⟩ | ⟨_, _, other, _⟩
    · exact done
    · rw [verdict] at other; cases other
    · rw [verdict] at other; cases other
  malformed atHead inRange verdict := by
    rcases atHead.round_cases inRange with ⟨other, _⟩ | ⟨_, done⟩ | ⟨_, _, other, _⟩
    · rw [verdict] at other; cases other
    · exact done
    · rw [verdict] at other; cases other
  frame {_ cursor _ _} atHead inRange verdict := by
    rcases atHead.round_cases inRange with ⟨other, _⟩ | ⟨other, _⟩ |
        ⟨message, _, other, _, _, goes, nextHead⟩
    · rw [verdict] at other; cases other
    · rw [verdict] at other; cases other
    · rw [verdict] at other
      cases other
      exact ⟨cursor.advance message, goes, nextHead, by simp [Cursor.advance]⟩

end MessageCodec

end Cpmd
