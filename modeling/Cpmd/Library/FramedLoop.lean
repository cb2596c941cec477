import Cpmd.Library.Framing
import Cpmd.Library.Loop

/-! Loops that take the frames of a stream off its head. Where each round does as
the grammar says of the head it stands at, the loop hands over the parse. -/

set_option autoImplicit false

namespace Library

variable {Byte Value State Result : Type}

/-- The rounds of such a loop. `AtHead` says which part of the stream a state still has
before it, and an `Admitted` head is one that the loop reads as the grammar does. -/
structure FramedLoop (grammar : Framing.Grammar Byte Value) (body : State → State ⊕ Result)
    (AtHead : List Byte → State → Prop) (Admitted : List Byte → Prop)
    (left closed : State → Result) (handed : State → List Value) : Prop where
  incomplete : ∀ {head state}, AtHead head state → Admitted head →
    grammar.read head = .incomplete → body state = .inr (left state)
  malformed : ∀ {head state}, AtHead head state → Admitted head →
    grammar.read head = .malformed → body state = .inr (closed state)
  frame : ∀ {head state value size}, AtHead head state → Admitted head →
    grammar.read head = .frame value size →
    ∃ next, body state = .inl next ∧ AtHead (head.drop size) next ∧
      handed next = handed state ++ [value]

namespace FramedLoop

variable {grammar : Framing.Grammar Byte Value} {body : State → State ⊕ Result}
  {AtHead : List Byte → State → Prop} {Admitted : List Byte → Prop}
  {left closed : State → Result} {handed : State → List Value}

/-- From a head of the stream on, the loop hands over what the grammar parses, and
ends as the parse does. -/
theorem ends (framed : FramedLoop grammar body AtHead Admitted left closed handed)
    {head : List Byte} {state : State} {values : List Value} {tail : Framing.Tail Byte}
    (atHead : AtHead head state) (admitted : ∀ later, grammar.Boundary head later → Admitted later)
    (parsed : grammar.Parses head values tail) :
    ∃ last, handed last = handed state ++ values ∧
      ((∃ rest, tail = .rest rest ∧ AtHead rest last ∧ Loop.Ends body state (left last)) ∨
        (tail = .malformed ∧ Loop.Ends body state (closed last))) := by
  induction parsed generalizing state with
  | @incomplete input verdict =>
      have done := framed.incomplete atHead (admitted _ .start) verdict
      exact ⟨state, by simp, .inl ⟨input, rfl, atHead, Loop.ends_of_done done⟩⟩
  | malformed verdict =>
      have done := framed.malformed atHead (admitted _ .start) verdict
      exact ⟨state, by simp, .inr ⟨rfl, Loop.ends_of_done done⟩⟩
  | @frame input value size values tail verdict _ ih =>
      obtain ⟨next, goes, nextHead, one⟩ := framed.frame atHead (admitted _ .start) verdict
      obtain ⟨last, more, ended⟩ := ih nextHead fun later boundary =>
        admitted later (.next verdict boundary)
      refine ⟨last, ?_, ?_⟩
      · rw [more, one, List.append_assoc, List.singleton_append]
      · rcases ended with ⟨rest, stop, lastHead, ends⟩ | ⟨stop, ends⟩
        · exact .inl ⟨rest, stop, lastHead, (Loop.ends_iff_of_continues goes).mpr ends⟩
        · exact .inr ⟨stop, (Loop.ends_iff_of_continues goes).mpr ends⟩

end FramedLoop

end Library
