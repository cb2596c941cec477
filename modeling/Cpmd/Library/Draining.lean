import Mathlib.Data.List.Basic

/-! Queues that are emptied by a loop which ends at the first element that fails a
test, having taken it off as well. -/

set_option autoImplicit false

namespace Library.Draining

variable {Element : Type} {good : Element → Bool}

/-- What the loop does not reach. -/
def leftBehind (good : Element → Bool) (queue : List Element) : List Element :=
  (queue.dropWhile good).tail

@[simp] theorem leftBehind_nil : leftBehind good [] = [] := rfl

theorem leftBehind_cons_good {element : Element} (passes : good element = true)
    (queue : List Element) : leftBehind good (element :: queue) = leftBehind good queue := by
  simp [leftBehind, passes]

theorem leftBehind_cons_bad {element : Element} (fails : good element = false)
    (queue : List Element) : leftBehind good (element :: queue) = queue := by
  simp [leftBehind, fails]

/-- Nothing is left behind exactly if nothing stands behind an element that fails. -/
theorem leftBehind_eq_nil_iff {queue : List Element} :
    leftBehind good queue = [] ↔
      ∀ before bad behind, queue = before ++ bad :: behind → good bad = false → behind = [] := by
  induction queue with
  | nil => simp
  | cons element queue ih =>
      cases tested : good element with
      | false =>
          rw [leftBehind_cons_bad tested]
          constructor
          · intro last before bad behind split fails
            subst last
            cases before with
            | nil =>
                cases split
                rfl
            | cons _ before => simp at split
          · intro last
            exact last [] element queue rfl tested
      | true =>
          rw [leftBehind_cons_good tested, ih]
          constructor
          · intro last before bad behind split fails
            cases before with
            | nil =>
                cases split
                rw [tested] at fails
                cases fails
            | cons _ before =>
                cases split
                exact last before bad behind rfl fails
          · intro last before bad behind split fails
            exact last (element :: before) bad behind (by rw [split]; rfl) fails

end Library.Draining
