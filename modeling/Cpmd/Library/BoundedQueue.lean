import Mathlib.Algebra.GroupWithZero.Nat
import Mathlib.Data.List.Basic

/-! A queue that holds at most `capacity` elements and makes room for a new one
by giving up its oldest. -/

set_option autoImplicit false

namespace Library

structure BoundedQueue (Element : Type) (capacity : Nat) where
  elements : List Element
  bounded : elements.length ≤ capacity
deriving DecidableEq

namespace BoundedQueue

variable {Element : Type} {capacity : Nat}

def empty : BoundedQueue Element capacity := ⟨[], Nat.zero_le _⟩

def front (queue : BoundedQueue Element capacity) : Option Element := queue.elements.head?

def popFront (queue : BoundedQueue Element capacity) :
    Option (Element × BoundedQueue Element capacity) :=
  match queue with
  | ⟨[], _⟩ => none
  | ⟨oldest :: rest, bounded⟩ => some (oldest, ⟨rest, Nat.le_of_succ_le bounded⟩)

/-- Add an element behind all others. The second component is the element given
up for it, which only a full queue has to do. -/
def push [NeZero capacity] (queue : BoundedQueue Element capacity) (element : Element) :
    BoundedQueue Element capacity × Option Element :=
  match queue with
  | ⟨[], _⟩ => (⟨[element], Nat.pos_of_neZero capacity⟩, none)
  | ⟨oldest :: rest, bounded⟩ =>
      if full : (oldest :: rest).length = capacity then
        (⟨rest ++ [element], by simpa using Nat.le_of_eq full⟩, some oldest)
      else
        (⟨oldest :: rest ++ [element], by
          simp only [List.length_cons] at bounded full
          simp only [List.length_append, List.length_cons, List.length_nil]
          omega⟩, none)

@[simp] theorem elements_empty :
    (empty : BoundedQueue Element capacity).elements = [] := rfl

variable [NeZero capacity]

theorem push_elements (queue : BoundedQueue Element capacity) (element : Element) :
    ∃ kept, queue.elements = (queue.push element).2.toList ++ kept ∧
      (queue.push element).1.elements = kept ++ [element] := by
  obtain ⟨elements, bounded⟩ := queue
  cases elements with
  | nil => exact ⟨[], rfl, rfl⟩
  | cons oldest rest =>
      by_cases full : (oldest :: rest).length = capacity
      · exact ⟨rest, by simp only [push, dif_pos full]; rfl, by simp only [push, dif_pos full]⟩
      · exact ⟨oldest :: rest, by simp only [push, dif_neg full]; rfl,
          by simp only [push, dif_neg full]⟩

theorem push_of_full {queue : BoundedQueue Element capacity}
    (full : queue.elements.length = capacity) (element : Element) :
    ∃ oldest rest, queue.elements = oldest :: rest ∧ (queue.push element).2 = some oldest ∧
      (queue.push element).1.elements = rest ++ [element] := by
  obtain ⟨elements, bounded⟩ := queue
  cases elements with
  | nil => exact absurd full.symm (NeZero.ne capacity)
  | cons oldest rest =>
      have filled : (oldest :: rest).length = capacity := full
      refine ⟨oldest, rest, rfl, ?_, ?_⟩ <;> simp only [push, dif_pos filled]

theorem push_of_room {queue : BoundedQueue Element capacity}
    (room : queue.elements.length ≠ capacity) (element : Element) :
    (queue.push element).2 = none ∧
      (queue.push element).1.elements = queue.elements ++ [element] := by
  obtain ⟨elements, bounded⟩ := queue
  cases elements with
  | nil => exact ⟨rfl, rfl⟩
  | cons oldest rest =>
      have unfilled : (oldest :: rest).length ≠ capacity := room
      constructor <;> simp only [push, dif_neg unfilled]

end BoundedQueue

end Library
