import Cpmd.Library.FiniteMap
import Mathlib.Data.List.Sort
import Mathlib.Order.RelClasses

/-! The entries of a finite map in the order of their keys, as an ordered container goes
through them. -/

set_option autoImplicit false

namespace Library.FiniteMap

variable {Key Value : Type} [LE Key] [DecidableLE Key]

def inOrder (map : FiniteMap Key Value) : List (Key × Value) :=
  (map.entries.map fun entry => (entry.1, entry.2)).insertionSort (·.1 ≤ ·.1)

theorem mem_inOrder [DecidableEq Key] {map : FiniteMap Key Value} {key : Key} {value : Value} :
    (key, value) ∈ map.inOrder ↔ map.find key = some value := by
  rw [inOrder, List.mem_insertionSort, List.mem_map]
  constructor
  · intro listed
    obtain ⟨⟨held, stored⟩, entry, same⟩ := listed
    cases same
    exact AList.mem_lookup_iff.mpr entry
  · intro found
    exact ⟨⟨key, value⟩, AList.mem_lookup_iff.mp found, rfl⟩

theorem pairwise_inOrder [Std.Total (α := Key) (· ≤ ·)] [IsTrans Key (· ≤ ·)]
    (map : FiniteMap Key Value) :
    map.inOrder.Pairwise fun first second => first.1 ≤ second.1 ∧ first.1 ≠ second.1 := by
  have total : Std.Total fun first second : Key × Value => first.1 ≤ second.1 :=
    ⟨fun first second => Std.Total.total first.1 second.1⟩
  have transitive : IsTrans (Key × Value) fun first second => first.1 ≤ second.1 :=
    ⟨fun _ _ _ first second => IsTrans.trans _ _ _ first second⟩
  have sorted := List.pairwise_insertionSort (fun first second => first.1 ≤ second.1)
    (map.entries.map fun entry => (entry.1, entry.2))
  have keys : ((map.entries.map fun entry => (entry.1, entry.2)).map Prod.fst).Nodup := by
    rw [List.map_map]
    exact map.nodupKeys
  have same := (List.perm_insertionSort (fun first second : Key × Value => first.1 ≤ second.1)
    (map.entries.map fun entry => (entry.1, entry.2))).map Prod.fst
  exact sorted.and (List.pairwise_map.mp (same.nodup_iff.mpr keys))

end Library.FiniteMap
