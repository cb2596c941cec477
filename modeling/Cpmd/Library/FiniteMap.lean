import Mathlib.Data.List.AList

/-! Finite maps with the operations of an ordered associative container: lookup,
insertion that keeps an existing entry, assignment through a found entry, and
erasure by key. -/

set_option autoImplicit false

namespace Library

/-- At most one value for each key. -/
abbrev FiniteMap (Key Value : Type) : Type := AList fun _ : Key => Value

namespace FiniteMap

variable {Key Value : Type} [DecidableEq Key]

def find (map : FiniteMap Key Value) (key : Key) : Option Value := map.lookup key

/-- Insert unless the key is present; the flag says whether it was inserted. -/
def emplace (map : FiniteMap Key Value) (key : Key) (value : Value) :
    FiniteMap Key Value × Bool :=
  if (map.find key).isSome then (map, false) else (AList.insert key value map, true)

def assign (map : FiniteMap Key Value) (key : Key) (value : Value) : FiniteMap Key Value :=
  AList.insert key value map

def remove (map : FiniteMap Key Value) (key : Key) : FiniteMap Key Value :=
  AList.erase key map

omit [DecidableEq Key] in
def values (map : FiniteMap Key Value) : List Value := map.entries.map Sigma.snd

@[simp] theorem find_empty (key : Key) : find (∅ : FiniteMap Key Value) key = none :=
  AList.lookup_empty key

@[simp] theorem find_assign (map : FiniteMap Key Value) (key other : Key) (value : Value) :
    (map.assign key value).find other = if other = key then some value else map.find other := by
  by_cases same : other = key
  · subst same
    simp [find, assign, AList.lookup_insert]
  · simp [find, assign, AList.lookup_insert_ne same, same]

theorem assign_assign (map : FiniteMap Key Value) (key : Key) (first second : Value) :
    (map.assign key first).assign key second = map.assign key second :=
  AList.insert_insert map

@[simp] theorem find_remove (map : FiniteMap Key Value) (key other : Key) :
    (map.remove key).find other = if other = key then none else map.find other := by
  by_cases same : other = key
  · subst same
    simp [find, remove]
  · simp [find, remove, AList.lookup_erase_ne same, same]

theorem find_emplace (map : FiniteMap Key Value) (key other : Key) (value : Value) :
    (map.emplace key value).1.find other =
      if other = key then some ((map.find key).getD value) else map.find other := by
  unfold emplace
  by_cases present : (map.find key).isSome
  · obtain ⟨held, found⟩ := Option.isSome_iff_exists.mp present
    by_cases same : other = key
    · subst same
      simp [found]
    · simp [present, same]
  · have absent : map.find key = none := by simpa using present
    simpa [present, absent, assign] using find_assign map key other value

@[simp] theorem emplace_snd (map : FiniteMap Key Value) (key : Key) (value : Value) :
    (map.emplace key value).2 = (map.find key).isNone := by
  unfold emplace
  cases map.find key <;> rfl

theorem mem_values {map : FiniteMap Key Value} {value : Value} :
    value ∈ map.values ↔ ∃ key, map.find key = some value := by
  constructor
  · intro member
    obtain ⟨⟨key, held⟩, entry, rfl⟩ := List.mem_map.mp member
    exact ⟨key, AList.mem_lookup_iff.mpr entry⟩
  · intro held
    obtain ⟨key, found⟩ := held
    exact List.mem_map.mpr ⟨⟨key, value⟩, AList.mem_lookup_iff.mp found, rfl⟩

end FiniteMap

end Library
