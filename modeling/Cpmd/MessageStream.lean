import Cpmd.MessageCodecProperties
import Mathlib.Data.List.Induction
import Mathlib.Tactic.Ring

/-! A stream of well-formed messages arriving in chunks: whatever the cuts, the
codec hands over the messages that were sent. -/

set_option autoImplicit false

namespace Cpmd.MessageCodec

open Library

theorem OnRead.unique {buffer : List UInt8} {left right : Ended}
    (leftRead : OnRead buffer left) (rightRead : OnRead buffer right) : left = right :=
  Loop.Ends.unique leftRead rightRead

theorem Receives.unique {before left right : Connection} {chunk : List UInt8}
    (leftReceived : Receives before chunk left) (rightReceived : Receives before chunk right) :
    left = right := by
  cases leftReceived with
  | left read =>
      cases rightReceived with
      | left other => cases read.unique other; rfl
      | closed other => cases read.unique other
  | closed read =>
      cases rightReceived with
      | left other => cases read.unique other
      | closed other => cases read.unique other; rfl

theorem Feeds.unique {before left right : Connection} {chunks : List (List UInt8)}
    (leftFed : Feeds before chunks left) (rightFed : Feeds before chunks right) : left = right := by
  induction leftFed generalizing right with
  | nil => cases rightFed; rfl
  | cons received _ ih =>
      cases rightFed with
      | cons other remaining =>
          cases received.unique other
          exact ih remaining

theorem Feeds.snoc {before middle after : Connection} {chunks : List (List UInt8)}
    {chunk : List UInt8} (fed : Feeds before chunks middle)
    (received : Receives middle chunk after) : Feeds before (chunks ++ [chunk]) after := by
  induction fed with
  | nil => exact .cons received .nil
  | cons first _ ih => exact .cons first (ih received)

theorem Feeds.length_unread_le {before after : Connection} {chunks : List (List UInt8)}
    (fed : Feeds before chunks after) :
    after.unread.length ≤ before.unread.length + chunks.flatten.length := by
  induction fed with
  | nil => simp
  | cons received _ ih =>
      cases received <;>
        simp only [List.length_drop, List.length_append, List.flatten_cons] at ih ⊢ <;> omega

theorem readsBelow_of_length_lt {limit : Nat} {chunks : List (List UInt8)}
    (short : chunks.flatten.length < limit) : ReadsBelow limit chunks := by
  intro earlier chunk later cut connection fed
  subst cut
  have unread := fed.length_unread_le
  simp only [Connection.fresh, List.length_nil] at unread
  simp only [List.flatten_append, List.flatten_cons, List.length_append] at short ⊢
  omega

theorem AtHead.drop_consumed {buffer head : List UInt8} {last : Cursor}
    (bounded : buffer.length < 2 ^ 31) (atHead : AtHead buffer head last) :
    buffer.drop (consumed buffer last) = head := by
  obtain ⟨before, split, _⟩ := atHead.ptr
  have counted := atHead.nbytes
  have amount : consumed buffer last = before.length := by
    rw [consumed, counted]
    rw [split, List.length_append] at bounded ⊢
    push_cast
    omega
  rw [amount, split, List.drop_left]

theorem receives_of_parses {unread chunk : List UInt8} (received : List Message)
    {values : List Message}
    {tail : Framing.Tail UInt8} (bounded : (unread ++ chunk).length < 2 ^ 31)
    (inRange : LengthsInRange (unread ++ chunk))
    (parsed : Message.grammar.Parses (unread ++ chunk) values tail) :
    ∃ after, Receives ⟨unread, false, received⟩ chunk after ∧
      after.received.map Message.trim = received.map Message.trim ++ values ∧
      ((∃ rest, tail = .rest rest ∧ after.unread = rest ∧ after.closed = false) ∨
        (tail = .malformed ∧ after.closed = true)) := by
  obtain ⟨last, handed, ended⟩ := (framed _).ends (atHead_entry bounded) inRange parsed
  have values_eq : (last.handed.map Prod.snd).map Message.trim = values := by
    simpa [entry, Function.comp_def] using handed
  rcases ended with ⟨rest, stop, lastHead, ends⟩ | ⟨stop, ends⟩
  · refine ⟨_, .left ends, by simp [← values_eq], .inl ⟨rest, stop, ?_, rfl⟩⟩
    exact lastHead.drop_consumed bounded
  · exact ⟨_, .closed ends, by simp [← values_eq], .inr ⟨stop, rfl⟩⟩

theorem lengthsInRange_of_prefix {messages : List Message} {arrived more : List UInt8}
    (formed : ∀ message ∈ messages, message.WellFormed)
    (split : arrived ++ more = Message.stream messages) : LengthsInRange arrived := by
  intro head boundary whole _
  have extended := boundary.append more
  rw [split] at extended
  obtain ⟨later, suffix, same⟩ := Message.boundary_stream formed extended
  cases later with
  | nil =>
      have empty : head = [] := by simpa using (List.append_eq_nil_iff.mp same).1
      subst empty
      simp [Message.kMinSize] at whole
  | cons message later =>
      have first := formed message (suffix.subset (by simp))
      have seen : (Message.overlay (head ++ more)).len = message.len := by
        rw [same, Message.stream_cons, Message.serialize, List.append_assoc,
          Message.overlay_header]
      rw [Message.len_overlay_append whole] at seen
      refine ⟨seen ▸ first.nonneg, ?_⟩
      have within := first.not_overflows
      unfold Message.SizeOverflows at within ⊢
      rwa [seen]

/-- The run lemma: while chunks of a message stream arrive, what was handed over
and what is unread are the parse of the bytes that arrived. -/
theorem Feeds.of_prefix {messages : List Message} {chunks : List (List UInt8)}
    (more : List UInt8) (formed : ∀ message ∈ messages, message.WellFormed)
    (split : chunks.flatten ++ more = Message.stream messages)
    (below : ReadsBelow (2 ^ 31) chunks) :
    ∃ connection, Feeds .fresh chunks connection ∧ connection.closed = false ∧
      Message.grammar.Parses chunks.flatten (connection.received.map Message.trim)
        (.rest connection.unread) := by
  induction chunks using List.reverseRecOn generalizing more with
  | nil => exact ⟨.fresh, .nil, rfl, .incomplete rfl⟩
  | append_singleton chunks chunk ih =>
      rw [List.flatten_append, List.flatten_singleton] at split ⊢
      have earlierBelow : ReadsBelow (2 ^ 31) chunks := by
        intro earlier next later cut connection fed
        subst cut
        exact below earlier next (later ++ [chunk]) (by simp) connection fed
      obtain ⟨⟨unread, closed, received⟩, fed, rfl, parsed⟩ :=
        ih (chunk ++ more) (by rw [← List.append_assoc]; exact split) earlierBelow
      have bounded := below chunks chunk [] rfl _ fed
      have whole := lengthsInRange_of_prefix formed split
      have inRange : LengthsInRange (unread ++ chunk) := fun head boundary =>
        whole head ((parsed.boundary.append chunk).trans boundary)
      obtain ⟨values, tail, continued⟩ := Framing.Grammar.parses_total (unread ++ chunk)
      have extended := parsed.append continued
      obtain ⟨after, step, handed, ended⟩ :=
        receives_of_parses received bounded inRange continued
      rcases ended with ⟨rest, rfl, same, opened⟩ | ⟨rfl, _⟩
      · refine ⟨after, fed.snoc step, opened, ?_⟩
        rw [handed, same]
        exact extended
      · have refused := extended.append_malformed more
        rw [split] at refused
        cases (refused.unique (Message.parses_stream formed)).2

def view (message : Message) : Address × Address × List UInt8 :=
  (message.sourceAddress, message.remoteAddress, message.contents)

theorem view_trim (message : Message) : view message.trim = view message := by
  simp only [view, Message.trim, Message.contents, List.take_take, Nat.min_self]

/-- Chunks of a stream of well-formed messages hand over exactly these messages,
in order, and leave the connection open and nothing unread, as long as no read
finds as many bytes as an `int` cannot count. -/
theorem feeds_stream {messages : List Message} {chunks : List (List UInt8)}
    (formed : ∀ message ∈ messages, message.WellFormed)
    (cut : chunks.flatten = Message.stream messages) (below : ReadsBelow (2 ^ 31) chunks) :
    ∃ received, received.map view = messages.map view ∧
      ∀ connection, Feeds .fresh chunks connection ↔ connection = ⟨[], false, received⟩ := by
  obtain ⟨⟨unread, closed, received⟩, fed, rfl, parsed⟩ :=
    Feeds.of_prefix [] formed (by rw [List.append_nil]; exact cut) below
  rw [cut] at parsed
  obtain ⟨same, stop⟩ := parsed.unique (Message.parses_stream formed)
  cases stop
  refine ⟨received, ?_, fun connection => ⟨fun other => other.unique fed, ?_⟩⟩
  · have views := congrArg (List.map view) same
    simpa [Function.comp_def, view_trim] using views
  · intro equal
    subst equal
    exact fed

/-- A message of three bytes, cut inside its header and inside its data. -/
def greeting : Message := ⟨⟨7, 1⟩, ⟨9, 2⟩, Message.kMagic, 3, [72, 105, 33]⟩

theorem feeds_stream_greeting :
    ∃ received, received.map view = [greeting].map view ∧
      ∀ connection,
        Feeds .fresh [greeting.serialize.take 10, [], (greeting.serialize.drop 10).take 16,
          greeting.serialize.drop 26] connection ↔ connection = ⟨[], false, received⟩ :=
  feeds_stream
    (fun message member => by
      rw [List.mem_singleton.mp member]
      exact ⟨rfl, by decide, by decide, by decide⟩)
    (by decide) (readsBelow_of_length_lt (by decide))

/-- A buffer that fills the upper half of the range of `unsigned int` counts as
negative, so the loop is not entered at all. -/
theorem onRead_of_uncountable {buffer : List UInt8} (lower : 2 ^ 31 ≤ buffer.length)
    (upper : buffer.length < 2 ^ 32) : OnRead buffer (.left (entry buffer)) := by
  have minimum : (Int32.ofNat Message.kMinSize).toInt = (Message.kMinSize : Int) :=
    Int32.toInt_ofNat_of_lt (by decide)
  have positive : (0 : Int) ≤ (Message.kMinSize : Int) := Int.natCast_nonneg _
  have counted : (Int32.ofNat buffer.length).toInt = (buffer.length : Int) - 2 ^ 32 := by
    rw [Int32.toInt_ofNat', ← Int.sub_bmod_right]
    apply Int.bmod_eq_of_le <;> simp only [Int32.size] <;> omega
  have stays : ¬ (entry buffer).nbytes ≥ Int32.ofNat Message.kMinSize := by
    rw [ge_iff_le, Int32.le_iff_toInt_le, entry, counted]
    omega
  refine Loop.ends_of_done ?_
  rw [round, if_neg stays]

theorem Feeds.received_of_uncountable {buffer : List UInt8} {connection : Connection}
    (lower : 2 ^ 31 ≤ buffer.length) (upper : buffer.length < 2 ^ 32)
    (fed : Feeds .fresh [buffer] connection) : connection.received = [] := by
  have read : OnRead ([] ++ buffer) (.left (entry buffer)) := by
    rw [List.nil_append]
    exact onRead_of_uncountable lower upper
  exact congrArg Connection.received (fed.unique (.cons (.left read) .nil))

theorem length_stream_replicate (count : Nat) :
    (Message.stream (List.replicate count Message.default)).length = Message.kMinSize * count := by
  induction count with
  | zero => rfl
  | succ count ih =>
      have one : Message.default.serialize.length = Message.kMinSize := rfl
      rw [List.replicate_succ, Message.stream_cons, List.length_append, ih, one]
      ring

/-- `2 ^ 27` empty messages that arrive as one chunk are all lost. -/
theorem not_feeds_replicate :
    ∃ messages chunks, (∀ message ∈ messages, message.WellFormed) ∧
      chunks.flatten = Message.stream messages ∧
      ¬ ∃ received, received.map view = messages.map view ∧
        Feeds .fresh chunks ⟨[], false, received⟩ := by
  have length := length_stream_replicate (2 ^ 27)
  generalize whole : List.replicate (2 ^ 27) Message.default = messages at length
  refine ⟨messages, [Message.stream messages], ?_, List.flatten_singleton, ?_⟩
  · rw [← whole]
    intro message member
    rw [List.eq_of_mem_replicate member]
    exact ⟨rfl, by decide, by decide, by decide⟩
  · intro fed
    obtain ⟨received, same, fed⟩ := fed
    have nothing : received = [] :=
      fed.received_of_uncountable (by rw [length]; decide) (by rw [length]; decide)
    have counts := congrArg List.length same
    rw [nothing, ← whole, List.length_map, List.length_map, List.length_replicate,
      List.length_nil] at counts
    omega

end Cpmd.MessageCodec
