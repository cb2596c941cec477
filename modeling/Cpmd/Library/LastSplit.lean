import Mathlib.Data.List.Basic

/-! Lists cut behind the last place where a marker stands. -/

set_option autoImplicit false

namespace Library.LastSplit

variable {Element : Type} {marker : Element} {list front last : List Element}
  {parts otherParts : List Element × List Element}

structure Splits (marker : Element) (list : List Element) (parts : List Element × List Element) :
    Prop where
  whole : parts.1 ++ parts.2 = list
  marked : parts.1.getLast? = some marker
  unmarked : marker ∉ parts.2

theorem exists_splits (member : marker ∈ list) : ∃ parts, Splits marker list parts := by
  obtain ⟨before, rest, reversed, absent⟩ :=
    List.eq_append_cons_of_mem (List.mem_reverse.mpr member)
  refine ⟨(rest.reverse ++ [marker], before.reverse), ?_, by simp, by simpa using absent⟩
  have whole := congrArg List.reverse reversed
  rw [List.reverse_reverse] at whole
  simp [whole]

variable [DecidableEq Element]

/-- The elements behind the last marker. -/
def behind (marker : Element) (list : List Element) : List Element :=
  (list.reverse.takeWhile (· != marker)).reverse

theorem behind_append (marked : front.getLast? = some marker) (unmarked : marker ∉ last) :
    behind marker (front ++ last) = last := by
  obtain ⟨before, rfl⟩ := List.getLast?_eq_some_iff.mp marked
  rw [behind, List.reverse_append, List.reverse_append, List.takeWhile_append_of_pos]
  · simp
  · intro element member
    have other : element ≠ marker := by
      intro same
      subst same
      exact unmarked (List.mem_reverse.mp member)
    exact bne_iff_ne.mpr other

theorem Splits.behind_eq (splits : Splits marker list parts) : behind marker list = parts.2 := by
  rw [← splits.whole]
  exact behind_append splits.marked splits.unmarked

theorem Splits.unique (splits : Splits marker list parts)
    (alsoSplits : Splits marker list otherParts) : parts = otherParts := by
  have behind : parts.2 = otherParts.2 := splits.behind_eq.symm.trans alsoSplits.behind_eq
  have whole := splits.whole.trans alsoSplits.whole.symm
  rw [behind] at whole
  exact Prod.ext (List.append_cancel_right whole) behind

theorem splits_of_mem (member : marker ∈ list) :
    Splits marker list
      (list.take (list.length - (behind marker list).length), behind marker list) := by
  obtain ⟨⟨front, last⟩, splits⟩ := exists_splits member
  have cut : behind marker list = last := splits.behind_eq
  have before : list.take (list.length - last.length) = front := by
    rw [← splits.whole, List.length_append, Nat.add_sub_cancel, List.take_left]
  rw [cut, before]
  exact splits

end Library.LastSplit
