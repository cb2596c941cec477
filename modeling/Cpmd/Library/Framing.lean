import Mathlib.Data.List.Basic

/-! Streams of self-delimiting frames. A grammar looks at the head of a stream
and says whether a whole frame stands there; its verdict may not change when
more bytes arrive. The parse of a stream is then independent of how the stream
was cut when it arrived. -/

set_option autoImplicit false

namespace Library.Framing

inductive Verdict (Value : Type) where
  | incomplete
  | malformed
  | frame (value : Value) (size : Nat)

structure Grammar (Byte Value : Type) where
  read : List Byte → Verdict Value
  size_pos : ∀ {input value size}, read input = .frame value size → 0 < size
  size_le : ∀ {input value size}, read input = .frame value size → size ≤ input.length
  frame_append : ∀ {input value size}, read input = .frame value size →
    ∀ more, read (input ++ more) = .frame value size
  malformed_append : ∀ {input}, read input = .malformed →
    ∀ more, read (input ++ more) = .malformed

/-- How the parse of a stream stops: at bytes that are not yet a whole frame,
or at a head that no continuation can repair. -/
inductive Tail (Byte : Type) where
  | rest (bytes : List Byte)
  | malformed
deriving DecidableEq

namespace Grammar

variable {Byte Value : Type} (grammar : Grammar Byte Value)

/-- The frames of a stream, from its start, and how the parse stops. -/
inductive Parses : List Byte → List Value → Tail Byte → Prop where
  | incomplete {input} : grammar.read input = .incomplete → Parses input [] (.rest input)
  | malformed {input} : grammar.read input = .malformed → Parses input [] .malformed
  | frame {input value size values tail} :
      grammar.read input = .frame value size → Parses (input.drop size) values tail →
      Parses input (value :: values) tail

/-- `suffix` is what follows some number of whole frames of a stream. -/
inductive Boundary : List Byte → List Byte → Prop where
  | start {input} : Boundary input input
  | next {input value size suffix} :
      grammar.read input = .frame value size → Boundary (input.drop size) suffix →
      Boundary input suffix

variable {grammar}

theorem parses_total (input : List Byte) :
    ∃ values tail, grammar.Parses input values tail := by
  induction size : input.length using Nat.strongRecOn generalizing input with
  | ind length ih =>
      cases verdict : grammar.read input with
      | incomplete => exact ⟨_, _, .incomplete verdict⟩
      | malformed => exact ⟨_, _, .malformed verdict⟩
      | frame value taken =>
          have positive := grammar.size_pos verdict
          have fits := grammar.size_le verdict
          have shorter : (input.drop taken).length < length := by
            rw [List.length_drop]
            omega
          obtain ⟨values, tail, parsed⟩ := ih _ shorter _ rfl
          exact ⟨_, _, .frame verdict parsed⟩

theorem Parses.unique {input : List Byte} {left right : List Value} {leftTail rightTail : Tail Byte}
    (leftParse : grammar.Parses input left leftTail)
    (rightParse : grammar.Parses input right rightTail) :
    left = right ∧ leftTail = rightTail := by
  induction leftParse generalizing right rightTail with
  | incomplete verdict =>
      cases rightParse with
      | incomplete _ => exact ⟨rfl, rfl⟩
      | malformed other => rw [verdict] at other; cases other
      | frame other _ => rw [verdict] at other; cases other
  | malformed verdict =>
      cases rightParse with
      | incomplete other => rw [verdict] at other; cases other
      | malformed _ => exact ⟨rfl, rfl⟩
      | frame other _ => rw [verdict] at other; cases other
  | frame verdict _ ih =>
      cases rightParse with
      | incomplete other => rw [verdict] at other; cases other
      | malformed other => rw [verdict] at other; cases other
      | frame other remaining =>
          rw [verdict] at other
          cases other
          obtain ⟨rfl, rfl⟩ := ih remaining
          exact ⟨rfl, rfl⟩

/-- A stream is parsed frame by frame as it arrives: what is left of the first
part is parsed again together with the second. -/
theorem Parses.append {first second rest : List Byte} {values later : List Value}
    {tail : Tail Byte} (parsed : grammar.Parses first values (.rest rest))
    (continued : grammar.Parses (rest ++ second) later tail) :
    grammar.Parses (first ++ second) (values ++ later) tail := by
  generalize stop : Tail.rest rest = firstTail at parsed
  induction parsed with
  | incomplete _ =>
      cases stop
      simpa using continued
  | malformed _ => cases stop
  | @frame input value size values _ verdict _ ih =>
      have fits := grammar.size_le verdict
      refine .frame (grammar.frame_append verdict second) ?_
      rw [List.drop_append_of_le_length fits]
      exact ih stop

theorem Parses.append_malformed {first : List Byte} {values : List Value}
    (parsed : grammar.Parses first values .malformed) (second : List Byte) :
    grammar.Parses (first ++ second) values .malformed := by
  generalize stop : Tail.malformed = firstTail at parsed
  induction parsed with
  | incomplete _ => cases stop
  | malformed verdict => exact .malformed (grammar.malformed_append verdict second)
  | @frame input value size values _ verdict _ ih =>
      have fits := grammar.size_le verdict
      refine .frame (grammar.frame_append verdict second) ?_
      rw [List.drop_append_of_le_length fits]
      exact ih stop

theorem Parses.boundary {input rest : List Byte} {values : List Value}
    (parsed : grammar.Parses input values (.rest rest)) : grammar.Boundary input rest := by
  generalize stop : Tail.rest rest = tail at parsed
  induction parsed with
  | incomplete _ => cases stop; exact .start
  | malformed _ => cases stop
  | frame verdict _ ih => exact .next verdict (ih stop)

theorem Boundary.suffix {input suffix : List Byte} (boundary : grammar.Boundary input suffix) :
    suffix <:+ input := by
  induction boundary with
  | start => exact List.suffix_refl _
  | next _ _ ih => exact ih.trans (List.drop_suffix _ _)

theorem Boundary.trans {input middle suffix : List Byte}
    (first : grammar.Boundary input middle) (second : grammar.Boundary middle suffix) :
    grammar.Boundary input suffix := by
  induction first with
  | start => exact second
  | next verdict _ ih => exact .next verdict (ih second)

theorem Boundary.append {input suffix : List Byte} (boundary : grammar.Boundary input suffix)
    (more : List Byte) : grammar.Boundary (input ++ more) (suffix ++ more) := by
  induction boundary with
  | start => exact .start
  | @next input value size suffix verdict _ ih =>
      refine .next (grammar.frame_append verdict more) ?_
      rwa [List.drop_append_of_le_length (grammar.size_le verdict)]

variable (grammar) in
/-- The parse of a stream that arrives in chunks, taken up again with each chunk
at the bytes left over; nothing is read behind a malformed head. -/
inductive Fed : List (List Byte) → List Value → Tail Byte → Prop where
  | nil : Fed [] [] (.rest [])
  | more {chunks values unread chunk later tail} :
      Fed chunks values (.rest unread) → grammar.Parses (unread ++ chunk) later tail →
      Fed (chunks ++ [chunk]) (values ++ later) tail
  | ended {chunks values chunk} :
      Fed chunks values .malformed → Fed (chunks ++ [chunk]) values .malformed

/-- Cutting a stream into chunks does not change its parse. -/
theorem Fed.parses {chunks : List (List Byte)} {values : List Value} {tail : Tail Byte}
    (empty : grammar.read [] = .incomplete) (fed : grammar.Fed chunks values tail) :
    grammar.Parses chunks.flatten values tail := by
  induction fed with
  | nil => exact .incomplete empty
  | more _ later ih =>
      rw [List.flatten_append, List.flatten_singleton]
      exact ih.append later
  | ended _ ih =>
      rw [List.flatten_append]
      exact ih.append_malformed _

end Grammar

/-- A stream of whole frames as they were written, each of a value that is `good`. -/
inductive Written {Byte Value : Type} (write : Value → List Byte) (good : Value → Prop) :
    List Byte → Prop where
  | nil : Written write good []
  | cons {value rest} : good value → Written write good rest →
      Written write good (write value ++ rest)

namespace Written

variable {Byte Value : Type} {write : Value → List Byte} {good : Value → Prop}

theorem mono {better : Value → Prop} {stream : List Byte} (written : Written write good stream)
    (weaker : ∀ value, good value → better value) : Written write better stream := by
  induction written with
  | nil => exact .nil
  | cons first _ ih => exact .cons (weaker _ first) ih

theorem append {first second : List Byte} (written : Written write good first)
    (more : Written write good second) : Written write good (first ++ second) := by
  induction written with
  | nil => exact more
  | cons first _ ih =>
      rw [List.append_assoc]
      exact .cons first ih

theorem single {value : Value} (first : good value) : Written write good (write value) := by
  have alone : Written write good (write value ++ []) := .cons first .nil
  rwa [List.append_nil] at alone

theorem flatMap {Item : Type} {items : List Item} {bytes : Item → List Byte}
    (each : ∀ item ∈ items, Written write good (bytes item)) :
    Written write good (items.flatMap bytes) := by
  induction items with
  | nil => exact .nil
  | cons item items ih =>
      rw [List.flatMap_cons]
      apply append
      · exact each item List.mem_cons_self
      · exact ih fun other member => each other (List.mem_cons_of_mem item member)

end Written

end Library.Framing
