import Cpmd.Library.Memory

/-! The members of a record in a block of memory. Each has cells of its own, so what
the memory holds depends on what was stored in it, and not on the order. -/

set_option autoImplicit false

namespace Library

structure Layout (Member : Type) where
  offset : Member → Nat
  width : Member → Nat
  apart : ∀ {left right : Member}, left ≠ right →
    offset left + width left ≤ offset right ∨ offset right + width right ≤ offset left

namespace Layout

variable {Member Cell : Type}

/-- Cells to be stored from the first one of a member on. -/
structure Store (Member Cell : Type) where
  member : Member
  cells : List Cell

variable (layout : Layout Member)

def finish (member : Member) : Nat := layout.offset member + layout.width member

def Fits (store : Store Member Cell) : Prop := store.cells.length ≤ layout.width store.member

def write (memory : List Cell) (store : Store Member Cell) : List Cell :=
  Memory.write memory (layout.offset store.member) store.cells

def Covers (store : Store Member Cell) (index : Nat) : Prop :=
  layout.offset store.member ≤ index ∧ index < layout.offset store.member + store.cells.length

/-- The stores stand in the memory, and all else is as it was in the background. -/
structure Holds (background : List Cell) (stores : List (Store Member Cell))
    (memory : List Cell) : Prop where
  length : memory.length = background.length
  stored : ∀ store ∈ stores, ∀ index, layout.Covers store index →
    memory[index]? = store.cells[index - layout.offset store.member]?
  kept : ∀ index, (∀ store ∈ stores, ¬ layout.Covers store index) →
    memory[index]? = background[index]?

variable {layout} {background memory : List Cell} {stores : List (Store Member Cell)}
  {store : Store Member Cell}

theorem holds_background : layout.Holds background ([] : List (Store Member Cell)) background :=
  ⟨rfl, by simp, fun _ _ => rfl⟩

theorem Fits.not_covers {other : Store Member Cell} {index : Nat} (fits : layout.Fits store)
    (otherFits : layout.Fits other) (different : other.member ≠ store.member)
    (covers : layout.Covers store index) : ¬ layout.Covers other index := by
  intro alsoCovers
  unfold Fits at fits otherFits
  unfold Covers at covers alsoCovers
  rcases layout.apart different with before | behind <;> omega

theorem Holds.write (holds : layout.Holds background stores memory)
    (allFit : ∀ other ∈ stores, layout.Fits other) (fits : layout.Fits store)
    (fresh : ∀ other ∈ stores, other.member ≠ store.member)
    (inside : layout.finish store.member ≤ background.length) :
    layout.Holds background (stores ++ [store]) (layout.write memory store) := by
  have room : layout.offset store.member + store.cells.length ≤ memory.length := by
    rw [holds.length]
    exact Nat.le_trans (Nat.add_le_add_left fits _) inside
  refine ⟨(Memory.length_write room).trans holds.length, ?_, ?_⟩
  · intro other member index covers
    rw [Layout.write, Memory.getElem?_write room]
    rcases List.mem_append.mp member with old | new
    · have outside := (allFit other old).not_covers fits (fresh other old).symm covers
      exact (if_neg outside).trans (holds.stored other old index covers)
    · cases List.mem_singleton.mp new
      exact if_pos covers
  · intro index uncovered
    have outside := uncovered store (List.mem_append_right _ (List.mem_singleton_self _))
    have elsewhere := holds.kept index fun other member =>
      uncovered other (List.mem_append_left _ member)
    rw [Layout.write, Memory.getElem?_write room]
    exact (if_neg outside).trans elsewhere

theorem Holds.unique {otherStores : List (Store Member Cell)} {otherMemory : List Cell}
    (holds : layout.Holds background stores memory)
    (otherHolds : layout.Holds background otherStores otherMemory)
    (same : ∀ store, store ∈ stores ↔ store ∈ otherStores) : memory = otherMemory := by
  refine List.ext_getElem? fun index => ?_
  by_cases covered : ∃ store ∈ stores, layout.Covers store index
  · obtain ⟨store, member, covers⟩ := covered
    rw [holds.stored store member index covers,
      otherHolds.stored store ((same store).mp member) index covers]
  · have uncovered : ∀ store ∈ stores, ¬ layout.Covers store index :=
      fun store member covers => covered ⟨store, member, covers⟩
    rw [holds.kept index uncovered,
      otherHolds.kept index fun store member => uncovered store ((same store).mpr member)]

theorem Holds.read_stored (holds : layout.Holds background stores memory)
    (member : store ∈ stores) :
    (memory.drop (layout.offset store.member)).take store.cells.length = store.cells := by
  refine List.ext_getElem? fun index => ?_
  by_cases inside : index < store.cells.length
  · rw [List.getElem?_take_of_lt inside, List.getElem?_drop,
      holds.stored store member _ ⟨Nat.le_add_right _ _, Nat.add_lt_add_left inside _⟩,
      Nat.add_sub_cancel_left]
  · rw [List.getElem?_take_eq_none (Nat.le_of_not_lt inside),
      List.getElem?_eq_none (Nat.le_of_not_lt inside)]

theorem Holds.read_kept (holds : layout.Holds background stores memory)
    (allFit : ∀ other ∈ stores, layout.Fits other) {member : Member}
    (fresh : ∀ other ∈ stores, other.member ≠ member) :
    (memory.drop (layout.offset member)).take (layout.width member) =
      (background.drop (layout.offset member)).take (layout.width member) := by
  refine List.ext_getElem? fun index => ?_
  by_cases inside : index < layout.width member
  · rw [List.getElem?_take_of_lt inside, List.getElem?_take_of_lt inside, List.getElem?_drop,
      List.getElem?_drop]
    refine holds.kept _ fun other listed covers => ?_
    have fits := allFit other listed
    unfold Fits at fits
    unfold Covers at covers
    rcases layout.apart (fresh other listed) with before | behind <;> omega
  · rw [List.getElem?_take_eq_none (Nat.le_of_not_lt inside),
      List.getElem?_take_eq_none (Nat.le_of_not_lt inside)]

end Layout

end Library
