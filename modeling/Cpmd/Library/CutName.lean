import Mathlib.Data.List.Basic

/-! Names with a suffix, cut behind a number of elements. A suffix is marked if it
begins with an element that it has nowhere else; so where a cut leaves some of it,
it shows where the name ends. -/

set_option autoImplicit false

namespace Library.CutName

variable {Element : Type}

def cut (limit : Nat) (name suffix : List Element) : List Element := (name ++ suffix).take limit

def Marked (marker : Element) (suffix : List Element) : Prop :=
  ∃ rest, suffix = marker :: rest ∧ marker ∉ rest

/-- A name that leaves no room for a suffix, and begins as the other is cut. -/
def Covers (limit : Nat) (longer shorter suffix : List Element) : Prop :=
  limit ≤ longer.length ∧ longer.take limit = cut limit shorter suffix

instance [DecidableEq Element] (limit : Nat) (longer shorter suffix : List Element) :
    Decidable (Covers limit longer shorter suffix) := inferInstanceAs (Decidable (_ ∧ _))

theorem cut_of_full {limit : Nat} {name : List Element} (full : limit ≤ name.length)
    (suffix : List Element) : cut limit name suffix = name.take limit :=
  List.take_append_of_le_length full

theorem Covers.cut_eq {limit : Nat} {longer shorter suffix : List Element}
    (covers : Covers limit longer shorter suffix) (other : List Element) :
    cut limit longer other = cut limit shorter suffix :=
  (cut_of_full covers.1 other).trans covers.2

theorem covers_of_full {limit : Nat} {longer shorter suffix other : List Element}
    (full : limit ≤ longer.length) (same : cut limit shorter suffix = cut limit longer other) :
    Covers limit longer shorter suffix :=
  ⟨full, (cut_of_full full other).symm.trans same.symm⟩

/-- The marker behind the longer name would stand in the middle of the other suffix. -/
theorem full_of_shorter {limit : Nat} {marker : Element}
    {shorter longer suffix other : List Element} (marked : Marked marker suffix)
    (otherMarked : Marked marker other) (less : shorter.length < longer.length)
    (same : cut limit shorter suffix = cut limit longer other) : limit ≤ longer.length := by
  by_contra short
  obtain ⟨rest, rfl, absent⟩ := marked
  obtain ⟨otherRest, rfl, _⟩ := otherMarked
  have shown : (cut limit longer (marker :: otherRest))[longer.length]? = some marker := by
    rw [cut, List.getElem?_take_of_lt (by omega), List.getElem?_append_right (Nat.le_refl _),
      Nat.sub_self]
    rfl
  rw [← same, cut, List.getElem?_take_of_lt (by omega),
    List.getElem?_append_right (Nat.le_of_lt less)] at shown
  obtain ⟨distance, behind⟩ : ∃ distance, longer.length - shorter.length = distance + 1 :=
    ⟨longer.length - shorter.length - 1, by omega⟩
  rw [behind, List.getElem?_cons_succ] at shown
  exact absent (List.mem_of_getElem? shown)

theorem take_eq_of_cut_eq {limit : Nat} {left right suffix other : List Element}
    (same : cut limit left suffix = cut limit right other)
    (length : left.length = right.length) : left.take limit = right.take limit := by
  rw [cut, cut, List.take_append, List.take_append] at same
  exact List.append_inj_left same (by rw [List.length_take, List.length_take, length])

/-- Where names with marked suffixes come out alike. -/
theorem cut_eq_cut_iff {limit : Nat} {marker : Element} {left right suffix other : List Element}
    (marked : Marked marker suffix) (otherMarked : Marked marker other) :
    cut limit left suffix = cut limit right other ↔
      left = right ∧
          suffix.take (limit - left.length) = other.take (limit - left.length) ∨
        left ≠ right ∧ (Covers limit right left suffix ∨ Covers limit left right other) := by
  constructor
  · intro same
    by_cases equal : left = right
    · subst equal
      rw [cut, cut, List.take_append, List.take_append] at same
      exact .inl ⟨rfl, List.append_cancel_left same⟩
    · refine .inr ⟨equal, ?_⟩
      rcases Nat.lt_trichotomy left.length right.length with less | length | less
      · exact .inl (covers_of_full (full_of_shorter marked otherMarked less same) same)
      · refine .inl (covers_of_full (Nat.le_of_not_lt fun short => equal ?_) same)
        have taken := take_eq_of_cut_eq same length
        rwa [List.take_of_length_le (by omega), List.take_of_length_le (by omega)] at taken
      · exact .inr (covers_of_full (full_of_shorter otherMarked marked less same.symm) same.symm)
  · intro either
    rcases either with ⟨rfl, tails⟩ | ⟨_, covers | covers⟩
    · rw [cut, cut, List.take_append, List.take_append, tails]
    · exact (covers.cut_eq other).symm
    · exact covers.cut_eq suffix

end Library.CutName
