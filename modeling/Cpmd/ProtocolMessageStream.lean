import Cpmd.ProtocolMessageCodecProperties
import Mathlib.Data.List.Induction

/-! An arbitrary stream arriving in chunks: whatever the cuts, the codec hands
over the frames that the reference parser finds, and closes the connection where
that stops at a bad header. -/

set_option autoImplicit false

namespace Cpmd.ProtocolMessageCodec

open Library

theorem AtHead.drop_consumed {buffer head : List UInt8} {last : Cursor}
    (atHead : AtHead buffer head last) : buffer.drop (buffer.length - last.nbytes) = head := by
  obtain ⟨before, split, _⟩ := atHead.ptr
  have amount : buffer.length - last.nbytes = before.length := by
    rw [atHead.nbytes, split, List.length_append]
    omega
  rw [amount, split, List.drop_left]

theorem onRead_parses {buffer behind : List UInt8} {ended : Ended}
    (bounded : buffer.length < 2 ^ 31) (read : OnRead buffer behind ended) :
    ∃ last tail, ProtocolMessage.grammar.Parses buffer
        ((last.handed.map Prod.snd).map ProtocolMessage.trim) tail ∧
      ((ended = .left last ∧ tail = .rest (buffer.drop (buffer.length - last.nbytes))) ∨
        (ended = .closed last ∧ tail = .malformed)) := by
  obtain ⟨frames, tail, parsed⟩ := ProtocolMessage.grammar.parses_total buffer
  have countable (later : List UInt8)
      (boundary : ProtocolMessage.grammar.Boundary buffer later) : later.length < 2 ^ 31 :=
    Nat.lt_of_le_of_lt boundary.suffix.length_le bounded
  obtain ⟨last, handed, outcome⟩ :=
    (framed buffer behind).ends (atHead_entry buffer) countable parsed
  have frames_eq : (last.handed.map Prod.snd).map ProtocolMessage.trim = frames := by
    simpa [entry, Function.comp_def] using handed
  refine ⟨last, tail, by rwa [frames_eq], ?_⟩
  rcases outcome with ⟨rest, rfl, lastHead, ends⟩ | ⟨rfl, ends⟩
  · exact .inl ⟨Loop.Ends.unique read ends, by rw [lastHead.drop_consumed]⟩
  · exact .inr ⟨Loop.Ends.unique read ends, rfl⟩

/-- The state of a connection is the parse of the bytes that have arrived. -/
def Follows (connection : Connection) (chunks : List (List UInt8)) : Prop :=
  ProtocolMessage.grammar.Fed chunks (connection.received.map ProtocolMessage.trim)
    (if connection.closed then .malformed else .rest connection.unread)

/-- The step lemma. The error path consumes nothing: what was handed over is the
parse up to the bad header, and what stays unread is not looked at again. -/
theorem Receives.follows {before after : Connection} {chunk : List UInt8}
    {chunks : List (List UInt8)} (received : Receives before chunk after)
    (bounded : before.closed = false → (before.unread ++ chunk).length < 2 ^ 31)
    (follows : Follows before chunks) : Follows after (chunks ++ [chunk]) := by
  cases received with
  | left read =>
      obtain ⟨_, _, parsed, ⟨⟨⟩, rfl⟩ | ⟨⟨⟩, _⟩⟩ := onRead_parses (bounded rfl) read
      have extended := Framing.Grammar.Fed.more follows parsed
      rwa [← List.map_append] at extended
  | closed read =>
      obtain ⟨_, _, parsed, ⟨⟨⟩, _⟩ | ⟨⟨⟩, rfl⟩⟩ := onRead_parses (bounded rfl) read
      have extended := Framing.Grammar.Fed.more follows parsed
      rwa [← List.map_append] at extended
  | shut => exact .ended follows

theorem ReadsBelow.of_snoc {limit : Nat} {chunks : List (List UInt8)} {chunk : List UInt8}
    (below : ReadsBelow limit (chunks ++ [chunk])) : ReadsBelow limit chunks := by
  intro earlier next later cut connection fed
  subst cut
  exact below earlier next (later ++ [chunk]) (by simp) connection fed

theorem Feeds.follows {chunks : List (List UInt8)} {connection : Connection}
    (fed : Feeds chunks connection) (below : ReadsBelow (2 ^ 31) chunks) :
    Follows connection chunks := by
  induction fed with
  | nil => exact Framing.Grammar.Fed.nil
  | @snoc chunks chunk before after fed received ih =>
      exact received.follows (below chunks chunk [] rfl before fed) (ih below.of_snoc)

theorem exists_feeds (chunks : List (List UInt8)) : ∃ connection, Feeds chunks connection := by
  induction chunks using List.reverseRecOn with
  | nil => exact ⟨_, .nil⟩
  | append_singleton chunks chunk ih =>
      obtain ⟨⟨unread, closed, received⟩, fed⟩ := ih
      cases closed with
      | true => exact ⟨_, fed.snoc .shut⟩
      | false =>
          obtain ⟨ended, read, inside⟩ := onRead_inside (unread ++ chunk) []
          cases ended with
          | left last => exact ⟨_, fed.snoc (.left read)⟩
          | closed last => exact ⟨_, fed.snoc (.closed read)⟩
          | fault last => cases inside

/-- However a stream is cut into chunks, the codec hands over the frames that the
reference parser finds in it, and closes the connection exactly if that stops at
a bad header, as long as no read finds as many bytes as an `int` cannot count. In
any case each read ends, and stays inside the buffer. -/
theorem feeds_grammar {stream : List UInt8} {chunks : List (List UInt8)}
    {frames : List ProtocolMessage} {tail : Framing.Tail UInt8} (cut : chunks.flatten = stream)
    (parsed : ProtocolMessage.grammar.Parses stream frames tail)
    (below : ReadsBelow (2 ^ 31) chunks) :
    (∃ connection, Feeds chunks connection) ∧
      (∀ connection, Feeds chunks connection →
        connection.received.map ProtocolMessage.trim = frames ∧
          (connection.closed = true ↔ tail = .malformed)) ∧
      ∀ buffer behind, ∃ ended, OnRead buffer behind ended ∧ ended.Inside buffer := by
  refine ⟨exists_feeds chunks, fun connection fed => ?_, onRead_inside⟩
  rw [← cut] at parsed
  obtain ⟨same, stop⟩ := ((fed.follows below).parses rfl).unique parsed
  refine ⟨same, ?_⟩
  rw [← stop]
  cases connection.closed <;> simp

theorem readsBelow_of_flatten {limit : Nat} {chunks : List (List UInt8)}
    (short : chunks.flatten.length < limit) : ReadsBelow limit chunks := by
  have unread {chunks : List (List UInt8)} {connection : Connection}
      (fed : Feeds chunks connection) : connection.unread.length ≤ chunks.flatten.length := by
    induction fed with
    | nil => exact Nat.zero_le _
    | snoc _ received ih =>
        cases received <;>
          simp only [List.length_drop, List.length_append, List.flatten_append,
            List.flatten_singleton] at ih ⊢ <;> omega
  intro earlier chunk later cut connection fed _
  subst cut
  have bound := unread fed
  simp only [List.flatten_append, List.flatten_cons, List.length_append] at short ⊢
  omega

/-- A frame of two bytes of data, and a header with a wrong magic number. -/
def someFrame : ProtocolMessage := ⟨3, 0, ProtocolMessage.kProtocolMessageMagic, 2, [7, 8]⟩

def someBadHeader : ProtocolMessage := ⟨3, 0, 0, 0, []⟩

/-- The good frame arrives in two parts, the second together with the bad header. -/
theorem feeds_grammar_cut :
    (∃ connection, Feeds [someFrame.serialize.take 5,
        someFrame.serialize.drop 5 ++ someBadHeader.serialize, [1]] connection) ∧
      (∀ connection, Feeds [someFrame.serialize.take 5,
          someFrame.serialize.drop 5 ++ someBadHeader.serialize, [1]] connection →
        connection.received.map ProtocolMessage.trim = [someFrame] ∧
          (connection.closed = true ↔ (.malformed : Framing.Tail UInt8) = .malformed)) ∧
      ∀ buffer behind, ∃ ended, OnRead buffer behind ended ∧ ended.Inside buffer := by
  have first : ProtocolMessage.grammar.read
      (someFrame.serialize ++ someBadHeader.serialize ++ [1]) = .frame someFrame 12 := rfl
  have second : ProtocolMessage.grammar.read
      ((someFrame.serialize ++ someBadHeader.serialize ++ [1]).drop 12) = .malformed := rfl
  exact feeds_grammar (by decide) (.frame first (.malformed second))
    (readsBelow_of_flatten (by decide))

/-- Behind a whole frame so many bytes that an `int` counts them as negative: the
frame is taken for one that has not arrived yet. -/
theorem onRead_of_uncountable {m : ProtocolMessage}
    (magic : m.magic = ProtocolMessage.kProtocolMessageMagic)
    (small : m.len.toNat < ProtocolMessage.kMaxProtocolDataSize) (more behind : List UInt8)
    (lower : 2 ^ 31 ≤ (m.serialize ++ more).length)
    (upper : (m.serialize ++ more).length < 2 ^ 32) :
    OnRead (m.serialize ++ more) behind (.left (entry (m.serialize ++ more))) := by
  have atHead := atHead_entry (m.serialize ++ more)
  have whole : ProtocolMessage.kMinProtocolMessageSize ≤ (m.serialize ++ more).length :=
    Nat.le_trans (by decide) lower
  have seen : ProtocolMessage.overlay (m.serialize ++ more ++ behind) =
      { m with data := m.contents ++ (more ++ behind) } := by
    rw [ProtocolMessage.serialize, List.append_assoc, List.append_assoc,
      ProtocolMessage.overlay_header]
  have negative : (Int32.ofNat (m.serialize ++ more).length).toInt < 0 := by
    rw [Int32.toInt_ofNat', Int.bmod_eq_emod]
    simp only [Int32.size]
    split <;> omega
  have partly : Int32.ofNat m.size > Int32.ofNat (entry (m.serialize ++ more)).nbytes := by
    rw [gt_iff_lt, Int32.lt_iff_toInt_lt, m.toInt_size, atHead.nbytes]
    omega
  refine Loop.ends_of_done ?_
  rw [round, if_pos (by rw [atHead.nbytes]; exact whole), atHead.headerAt behind whole, seen]
  dsimp only
  rw [if_neg (not_not_intro magic), if_neg (Nat.not_le_of_lt small)]
  exact if_pos partly

/-- A frame and, behind it, `2 ^ 31` zeros in one chunk: the frame is not handed
over. -/
theorem not_feeds_uncountable :
    ¬ ∀ stream chunks frames tail, chunks.flatten = stream →
      ProtocolMessage.grammar.Parses stream frames tail →
        ∀ connection, Feeds chunks connection →
          connection.received.map ProtocolMessage.trim = frames ∧
            (connection.closed = true ↔ tail = .malformed) := by
  intro accepts
  have length : (List.replicate (2 ^ 31) (0 : UInt8)).length = 2 ^ 31 := List.length_replicate
  generalize List.replicate (2 ^ 31) (0 : UInt8) = zeros at length
  have alone : ProtocolMessage.read someFrame.serialize = .frame someFrame 12 := rfl
  have first : ProtocolMessage.grammar.read (someFrame.serialize ++ zeros) = .frame someFrame 12 :=
    ProtocolMessage.read_frame_append alone zeros
  obtain ⟨frames, tail, parsed⟩ :=
    ProtocolMessage.grammar.parses_total ((someFrame.serialize ++ zeros).drop 12)
  have counted : (someFrame.serialize ++ zeros).length = 12 + 2 ^ 31 := by
    rw [List.length_append, length]
    rfl
  have read := onRead_of_uncountable (m := someFrame) rfl (by decide) zeros [] (by omega) (by omega)
  have fed : Feeds [someFrame.serialize ++ zeros] _ := .snoc .nil (.left read)
  obtain ⟨same, _⟩ := accepts _ _ _ _ List.flatten_singleton (.frame first parsed) _ fed
  cases same

end Cpmd.ProtocolMessageCodec
