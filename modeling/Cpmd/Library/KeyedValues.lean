import Mathlib.Data.List.Perm.Subperm

/-! Lists of values that each go with a key, as a log holds the entries of many sources:
what a key has in such a list, and what is known of a list from what is known of each
of its keys. -/

set_option autoImplicit false

namespace Library

section Values

variable {Key Value : Type} [DecidableEq Key] (key : Key)

/-- The values that go with a key, in order. -/
def valuesAt (entries : List (Key × Value)) : List Value :=
  (entries.filter (·.1 = key)).map Prod.snd

@[simp] theorem valuesAt_nil : valuesAt key ([] : List (Key × Value)) = [] := rfl

@[simp] theorem valuesAt_append (first second : List (Key × Value)) :
    valuesAt key (first ++ second) = valuesAt key first ++ valuesAt key second := by
  simp [valuesAt]

variable {key} in
theorem mem_valuesAt {entries : List (Key × Value)} {value : Value} :
    value ∈ valuesAt key entries ↔ (key, value) ∈ entries := by
  simp [valuesAt]

variable {key} in
theorem valuesAt_eq_nil {entries : List (Key × Value)} (absent : ∀ entry ∈ entries, entry.1 ≠ key) :
    valuesAt key entries = [] := by
  rw [valuesAt, List.filter_eq_nil_iff.mpr (by simpa using absent), List.map_nil]

@[simp] theorem valuesAt_map_pair {Item : Type} (items : List Item) (value : Item → Value)
    (other : Key) :
    valuesAt key (items.map fun item => (other, value item)) =
      if other = key then items.map value else [] := by
  by_cases own : other = key <;> simp [valuesAt, List.filter_map, Function.comp_def, own]

theorem valuesAt_filterMap {Item : Type} (items : List Item)
    (entry : Item → Option (Key × Value)) :
    valuesAt key (items.filterMap entry) =
      items.filterMap fun item =>
        (entry item).bind fun found => if found.1 = key then some found.2 else none := by
  induction items with
  | nil => rfl
  | cons item items ih =>
      cases found : entry item with
      | none => simpa [found] using ih
      | some pair =>
          rw [List.filterMap_cons_some found, ← List.singleton_append, valuesAt_append, ih]
          by_cases own : pair.1 = key <;> simp [valuesAt, found, own]

theorem map_valuesAt {Image : Type} (view : Value → Image) (entries : List (Key × Value)) :
    (valuesAt key entries).map view =
      valuesAt key (entries.map fun entry => (entry.1, view entry.2)) := by
  simp [valuesAt, List.filter_map, Function.comp_def]

theorem count_valuesAt [DecidableEq Value] (entries : List (Key × Value)) (value : Value) :
    (valuesAt key entries).count value = entries.count (key, value) := by
  induction entries with
  | nil => rfl
  | cons entry entries ih =>
      obtain ⟨other, held⟩ := entry
      by_cases own : other = key
      · subst own
        have first : valuesAt other ((other, held) :: entries) =
            held :: valuesAt other entries := by
          simp [valuesAt]
        rw [first, List.count_cons, List.count_cons, ih]
        simp
      · have skipped : valuesAt key ((other, held) :: entries) = valuesAt key entries := by
          simp [valuesAt, own]
        rw [skipped, ih, List.count_cons_of_ne]
        exact fun equal => own (congrArg Prod.fst equal)

end Values

theorem filterMap_sublist_filterMap {Item Image : Type} {first second : Item → Option Image}
    {items : List Item} (implied : ∀ item ∈ items, ∀ image,
      first item = some image → second item = some image) :
    (items.filterMap first).Sublist (items.filterMap second) := by
  induction items with
  | nil => exact List.Sublist.refl _
  | cons item items ih =>
      have rest := ih fun other member => implied other (List.mem_cons_of_mem _ member)
      cases found : first item with
      | none =>
          rw [List.filterMap_cons_none found]
          exact rest.trans ((List.sublist_cons_self _ _).filterMap _)
      | some image =>
          rw [List.filterMap_cons_some found,
            List.filterMap_cons_some (implied item List.mem_cons_self image found)]
          exact rest.cons_cons image

theorem subperm_map {Item Image : Type} {first second : List Item} (view : Item → Image)
    (within : first.Subperm second) : (first.map view).Subperm (second.map view) := by
  obtain ⟨middle, same, sub⟩ := within
  exact ⟨middle.map view, same.map _, sub.map _⟩

variable {Key Value : Type} [DecidableEq Key] [DecidableEq Value]

/-- If no key has a value more often in the first list than in the second, then the
first list has no value more often. -/
theorem subperm_of_valuesAt {first second : List (Key × Value)}
    (each : ∀ key, (valuesAt key first).Subperm (valuesAt key second)) :
    (first.map Prod.snd).Subperm (second.map Prod.snd) := by
  have pairs : first.Subperm second := by
    refine List.subperm_ext_iff.mpr fun entry _ => ?_
    obtain ⟨key, value⟩ := entry
    rw [← count_valuesAt, ← count_valuesAt]
    exact (each key).count_le value
  exact subperm_map Prod.snd pairs

end Library
