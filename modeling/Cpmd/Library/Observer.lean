import Cpmd.Library.EventMachine

/-! Observers of a run: what they note of each step taken, and conditions on the
steps that look at what was noted before. -/

set_option autoImplicit false

namespace Library.EventMachine

variable {State Event Output Noted : Type}

/-- What an observer knows at the end of a history. -/
def noted (note : Noted → Taken State Event Output → Noted) (start : Noted)
    (history : List (Taken State Event Output)) : Noted :=
  history.foldl note start

/-- Each step is admitted in view of what was noted before it. -/
def Admitted (note : Noted → Taken State Event Output → Noted)
    (admits : Noted → Taken State Event Output → Prop) :
    Noted → List (Taken State Event Output) → Prop
  | _, [] => True
  | known, taken :: later => admits known taken ∧ Admitted note admits (note known taken) later

variable {note : Noted → Taken State Event Output → Noted}
  {admits : Noted → Taken State Event Output → Prop}

instance decidableAdmitted [∀ known taken, Decidable (admits known taken)] (known : Noted)
    (history : List (Taken State Event Output)) : Decidable (Admitted note admits known history) :=
  match history with
  | [] => inferInstanceAs (Decidable True)
  | taken :: later =>
      have : Decidable (Admitted note admits (note known taken) later) :=
        decidableAdmitted (note known taken) later
      inferInstanceAs (Decidable (_ ∧ _))

@[simp] theorem noted_nil (start : Noted) : noted note start [] = start := rfl

@[simp] theorem noted_snoc (start : Noted) (history : List (Taken State Event Output))
    (taken : Taken State Event Output) :
    noted note start (history ++ [taken]) = note (noted note start history) taken := by
  simp [noted]

theorem admitted_snoc (start : Noted) (history : List (Taken State Event Output))
    (taken : Taken State Event Output) :
    Admitted note admits start (history ++ [taken]) ↔
      Admitted note admits start history ∧ admits (noted note start history) taken := by
  induction history generalizing start with
  | nil => simp [Admitted]
  | cons first later ih =>
      rw [List.cons_append, Admitted, Admitted, ih, and_assoc]
      rfl

/-- The run rule with an observer: an invariant of what is noted and the state. -/
theorem Run.noted_invariant {machine : EventMachine State Event Output}
    {guard : State → Event → Prop} {start : State} {history : List (Taken State Event Output)}
    {state : State} (run : machine.Run guard start history state) {known : Noted}
    (admitted : Admitted note admits known history) (invariant : Noted → State → Prop)
    (initial : invariant known start)
    (preserved : ∀ known taken, invariant known taken.before → guard taken.before taken.event →
      admits known taken → machine.step taken.before taken.event =
        some (taken.after, taken.outputs) → invariant (note known taken) taken.after) :
    invariant (noted note known history) state := by
  induction run with
  | nil => exact initial
  | snoc _ guarded stepped ih =>
      obtain ⟨earlier, last⟩ := (admitted_snoc _ _ _).mp admitted
      rw [noted_snoc]
      exact preserved _ ⟨_, _, _, _⟩ (ih earlier) guarded last stepped

end Library.EventMachine
