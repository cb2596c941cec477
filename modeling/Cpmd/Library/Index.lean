import Cpmd.Library.FiniteMap
import Mathlib.Data.List.Nodup

/-! Maps filled from a list of values, each inserted by a key of its own unless the
key is taken. So the first value of a key is the one that is found. -/

set_option autoImplicit false

namespace Library.FiniteMap

variable {Key Value : Type} [DecidableEq Key]

def emplaceAll (key : Value → Key) (map : FiniteMap Key Value) (values : List Value) :
    FiniteMap Key Value :=
  values.foldl (fun map value => (map.emplace (key value) value).1) map

@[simp] theorem emplaceAll_nil (key : Value → Key) (map : FiniteMap Key Value) :
    emplaceAll key map [] = map := rfl

@[simp] theorem emplaceAll_cons (key : Value → Key) (map : FiniteMap Key Value) (value : Value)
    (values : List Value) :
    emplaceAll key map (value :: values) =
      emplaceAll key (map.emplace (key value) value).1 values := rfl

theorem find_emplaceAll (key : Value → Key) (map : FiniteMap Key Value) (values : List Value)
    (wanted : Key) :
    (emplaceAll key map values).find wanted =
      (map.find wanted).or (values.find? fun value => key value == wanted) := by
  induction values generalizing map with
  | nil => simp
  | cons value values ih =>
      rw [emplaceAll_cons, ih, find_emplace, List.find?_cons]
      by_cases same : wanted = key value
      · subst same
        cases map.find (key value) <;> simp
      · simp [same, beq_false_of_ne (Ne.symm same)]

/-- Without repetitions, each value is found by its key exactly if no key is shared. -/
theorem find_emplaceAll_iff {key : Value → Key} {values : List Value}
    (distinct : values.Nodup) :
    (∀ value ∈ values, (emplaceAll key ∅ values).find (key value) = some value) ↔
      (values.map key).Nodup := by
  rw [List.nodup_map_iff_inj_on distinct]
  constructor
  · intro found left leftMember right rightMember same
    have first := found left leftMember
    rw [same, found right rightMember] at first
    exact (Option.some.inj first).symm
  · intro injective value member
    rw [find_emplaceAll, find_empty, Option.none_or]
    cases found : values.find? (fun other => key other == key value) with
    | none =>
        have different := List.find?_eq_none.mp found value member
        simp at different
    | some other =>
        have same : key other = key value := by simpa using List.find?_some found
        rw [injective other (List.mem_of_find?_eq_some found) value member same]

end Library.FiniteMap
