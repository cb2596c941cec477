import Mathlib.Logic.Relation

/-! Loops given by a body that either goes on with a new state or ends with a
result. A loop need not end: `Ends` says that it does and with what. -/

set_option autoImplicit false

namespace Library.Loop

variable {State Result : Type}

def run (body : State → State ⊕ Result) : Nat → State → Option Result
  | 0, _ => none
  | fuel + 1, state =>
      match body state with
      | .inl next => run body fuel next
      | .inr result => some result

def Ends (body : State → State ⊕ Result) (state : State) (result : Result) : Prop :=
  ∃ fuel, run body fuel state = some result

def Continues (body : State → State ⊕ Result) (state next : State) : Prop :=
  body state = .inl next

/-- The states at the head of the loop, from the one it was entered with. -/
def Reaches (body : State → State ⊕ Result) : State → State → Prop :=
  Relation.ReflTransGen (Continues body)

variable {body : State → State ⊕ Result} {state next : State} {result : Result}

theorem ends_of_done (done : body state = .inr result) : Ends body state result :=
  ⟨1, by simp [run, done]⟩

theorem ends_iff_of_continues (goes : body state = .inl next) :
    Ends body state result ↔ Ends body next result := by
  constructor
  · intro reached
    obtain ⟨fuel, ran⟩ := reached
    cases fuel with
    | zero => cases ran
    | succ fuel => exact ⟨fuel, by simpa [run, goes] using ran⟩
  · intro reached
    obtain ⟨fuel, ran⟩ := reached
    exact ⟨fuel + 1, by simpa [run, goes] using ran⟩

theorem ends_iff_of_done (done : body state = .inr result) {other : Result} :
    Ends body state other ↔ other = result := by
  constructor
  · intro reached
    obtain ⟨fuel, ran⟩ := reached
    cases fuel with
    | zero => cases ran
    | succ fuel => simpa [run, done, eq_comm] using ran
  · intro equal
    subst equal
    exact ends_of_done done

theorem Ends.unique {other : Result} (ends : Ends body state result)
    (alsoEnds : Ends body state other) : result = other := by
  obtain ⟨fuel, ran⟩ := ends
  induction fuel generalizing state with
  | zero => cases ran
  | succ fuel ih =>
      cases round : body state with
      | inl next =>
          exact ih ((ends_iff_of_continues round).mp alsoEnds) (by simpa [run, round] using ran)
      | inr final =>
          have same := (ends_iff_of_done round).mp alsoEnds
          have ended : final = result := by simpa [run, round] using ran
          rw [same, ended]

/-- The invariant rule: a property of the entry state that every round keeps
holds at each head of the loop. -/
theorem Reaches.invariant {invariant : State → Prop} {entry : State}
    (reached : Reaches body entry state) (initial : invariant entry)
    (kept : ∀ state next, invariant state → body state = .inl next → invariant next) :
    invariant state := by
  induction reached with
  | refl => exact initial
  | tail _ goes ih => exact kept _ _ ih goes

theorem Reaches.round {entry : State} (reached : Reaches body entry state)
    (goes : body state = .inl next) : Reaches body entry next :=
  Relation.ReflTransGen.tail reached goes

/-- The termination rule: under an invariant a measure that every round lowers
makes the loop end. -/
theorem ends_of_measure (invariant : State → Prop) (measure : State → Nat)
    (kept : ∀ state next, invariant state → body state = .inl next →
      invariant next ∧ measure next < measure state)
    (holds : invariant state) : ∃ result, Ends body state result := by
  induction size : measure state using Nat.strongRecOn generalizing state with
  | ind size ih =>
      cases round : body state with
      | inr result => exact ⟨result, ends_of_done round⟩
      | inl next =>
          obtain ⟨nextHolds, lower⟩ := kept state next holds round
          obtain ⟨result, ends⟩ := ih (measure next) (size ▸ lower) nextHolds rfl
          exact ⟨result, (ends_iff_of_continues round).mpr ends⟩

/-- A loop that can always go round once more does not end. -/
theorem not_ends_of_invariant (invariant : State → Prop)
    (kept : ∀ state, invariant state → ∃ next, body state = .inl next ∧ invariant next)
    (holds : invariant state) : ¬ Ends body state result := by
  intro ended
  obtain ⟨fuel, ran⟩ := ended
  induction fuel generalizing state with
  | zero => cases ran
  | succ fuel ih =>
      obtain ⟨next, goes, nextHolds⟩ := kept state holds
      exact ih nextHolds (by simpa [run, goes] using ran)

theorem Ends.reached {entry : State} (ends : Ends body entry result) :
    ∃ last, Reaches body entry last ∧ body last = .inr result := by
  obtain ⟨fuel, ran⟩ := ends
  induction fuel generalizing entry with
  | zero => cases ran
  | succ fuel ih =>
      cases round : body entry with
      | inl next =>
          obtain ⟨last, reached, done⟩ := ih (by simpa [run, round] using ran)
          exact ⟨last, Relation.ReflTransGen.head round reached, done⟩
      | inr final =>
          have ended : final = result := by simpa [run, round] using ran
          exact ⟨entry, .refl, by rw [round, ended]⟩

end Library.Loop
