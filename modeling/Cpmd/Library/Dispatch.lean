import Mathlib.Data.List.Basic

/-! Readers that hand the items they find to a handler, one after the other. The
handler keeps a state of its own and can close what is read from; a reader that
heeds this hands over nothing more. -/

set_option autoImplicit false

namespace Library.Dispatch

variable {State Item : Type}

/-- What a handler makes of an item, given how many calls came before: its next
state, and whether it closed what is read from. There is no result where the
handling has none. -/
abbrev Handler (State Item : Type) : Type := Nat → State → Item → Option (State × Bool)

inductive Act (Item : Type) where
  | handed (item : Item)
  | closed

/-- What happens, in order, as these items are handed over. -/
def acts (handler : Handler State Item) : Nat → State → List Item → List (Act Item)
  | _, _, [] => []
  | call, state, item :: items =>
      .handed item ::
        match handler call state item with
        | none => []
        | some (next, true) => .closed :: acts handler (call + 1) next items
        | some (next, false) => acts handler (call + 1) next items

/-- The handler's state behind these items. -/
def handled (handler : Handler State Item) : Nat → State → List Item → Option State
  | _, state, [] => some state
  | call, state, item :: items =>
      match handler call state item with
      | none => none
      | some (next, _) => handled handler (call + 1) next items

/-- The acts of a reader that itself may close behind the last item. -/
def trace (handler : Handler State Item) (state : State) (items : List Item) (closes : Bool) :
    List (Act Item) :=
  acts handler 0 state items ++
    if (handled handler 0 state items).isSome && closes then [.closed] else []

/-- Nothing is handed over after a close. -/
def HeedsClose (acts : List (Act Item)) : Prop :=
  ∀ earlier later, acts = earlier ++ .closed :: later → ∀ item, .handed item ∉ later

/-- No item but the last of them is refused in the state that it is handled in. -/
def RefusedLast (refuses : State → Item → Prop) (handler : Handler State Item) (call : Nat)
    (state : State) (items : List Item) : Prop :=
  ∀ earlier item later, items = earlier ++ item :: later → later ≠ [] →
    ∀ before, handled handler call state earlier = some before → ¬ refuses before item

theorem heedsClose_nil : HeedsClose ([] : List (Act Item)) := by
  intro earlier later split
  cases earlier <;> cases split

theorem heedsClose_handed {item : Item} {rest : List (Act Item)} :
    HeedsClose (.handed item :: rest) ↔ HeedsClose rest := by
  constructor
  · intro heeds earlier later split
    exact heeds (.handed item :: earlier) later (by rw [split]; rfl)
  · intro heeds earlier later split
    cases earlier with
    | nil => cases split
    | cons first earlier => exact heeds earlier later (List.cons.inj split).2

theorem heedsClose_closed {rest : List (Act Item)} :
    HeedsClose (.closed :: rest) ↔ ∀ item, .handed item ∉ rest := by
  constructor
  · intro heeds
    exact heeds [] rest rfl
  · intro silent earlier later split
    cases earlier with
    | nil =>
        cases split
        exact silent
    | cons first earlier =>
        intro item member
        apply silent item
        rw [(List.cons.inj split).2]
        exact List.mem_append_right _ (List.mem_cons_of_mem _ member)

theorem heedsClose_snoc_closed {all : List (Act Item)} :
    HeedsClose (all ++ [.closed]) ↔ HeedsClose all := by
  induction all with
  | nil =>
      simp only [List.nil_append, heedsClose_closed, List.not_mem_nil, not_false_eq_true,
        implies_true, heedsClose_nil]
  | cons first rest ih =>
      cases first with
      | handed item => simpa only [List.cons_append, heedsClose_handed] using ih
      | closed => simp [heedsClose_closed]

theorem silent_acts_iff {handler : Handler State Item} {call : Nat} {state : State}
    {items : List Item} : (∀ item, .handed item ∉ acts handler call state items) ↔ items = [] := by
  cases items with
  | nil => simp [acts]
  | cons item items =>
      constructor
      · intro silent
        exact absurd List.mem_cons_self (silent item)
      · intro none
        cases none

theorem refusedLast_cons {refuses : State → Item → Prop} {handler : Handler State Item}
    {call : Nat} {state : State} {item : Item} {items : List Item} :
    RefusedLast refuses handler call state (item :: items) ↔
      (items ≠ [] → ¬ refuses state item) ∧
        ∀ next closes, handler call state item = some (next, closes) →
          RefusedLast refuses handler (call + 1) next items := by
  constructor
  · intro last
    refine ⟨fun more => last [] item items rfl more state rfl, ?_⟩
    intro next closes returned earlier other later split more before reached
    refine last (item :: earlier) other later (by rw [split]; rfl) more before ?_
    simpa only [handled, returned] using reached
  · intro only earlier other later split more before reached
    obtain ⟨first, others⟩ := only
    cases earlier with
    | nil =>
        cases split
        cases reached
        exact first more
    | cons head earlier =>
        cases split
        simp only [handled] at reached
        split at reached
        · cases reached
        · rename_i next closes returned
          exact others next closes returned earlier other later rfl more before reached

/-- The rule for handlers that close exactly where they refuse. -/
theorem heedsClose_acts_iff {refuses : State → Item → Prop} {handler : Handler State Item}
    (closes : ∀ call state item,
      (∃ next, handler call state item = some (next, true)) ↔ refuses state item)
    (call : Nat) (state : State) (items : List Item) :
    HeedsClose (acts handler call state items) ↔
      RefusedLast refuses handler call state items := by
  induction items generalizing call state with
  | nil =>
      constructor
      · intro _ earlier item later split
        cases earlier <;> cases split
      · intro _
        exact heedsClose_nil
  | cons item items ih =>
      rw [acts, heedsClose_handed, refusedLast_cons, ← closes call]
      split
      · rename_i crashed
        simp [crashed, heedsClose_nil]
      · rename_i next returned
        rw [heedsClose_closed, silent_acts_iff]
        constructor
        · intro equal
          subst equal
          exact ⟨fun more => absurd rfl more,
            fun _ _ _ => (ih _ _).mp (by rw [acts]; exact heedsClose_nil)⟩
        · intro last
          by_contra more
          exact last.1 more ⟨next, returned⟩
      · rename_i next returned
        rw [ih]
        simp [returned]

theorem heedsClose_trace_iff {refuses : State → Item → Prop} {handler : Handler State Item}
    (closes : ∀ call state item,
      (∃ next, handler call state item = some (next, true)) ↔ refuses state item)
    (state : State) (items : List Item) (ends : Bool) :
    HeedsClose (trace handler state items ends) ↔ RefusedLast refuses handler 0 state items := by
  rw [trace]
  split
  · rw [heedsClose_snoc_closed, heedsClose_acts_iff closes]
  · rw [List.append_nil, heedsClose_acts_iff closes]

/-- Where only the last item is refused, what survives all others is there when
an item is handed over. -/
theorem RefusedLast.invariant {refuses : State → Item → Prop} {handler : Handler State Item}
    {call : Nat} {state : State} {items : List Item}
    (last : RefusedLast refuses handler call state items) (invariant : State → Prop)
    (kept : ∀ call state item next closes, invariant state → ¬ refuses state item →
      handler call state item = some (next, closes) → invariant next)
    (initial : invariant state) {earlier later : List Item} {item : Item} {before : State}
    (split : items = earlier ++ item :: later)
    (reached : handled handler call state earlier = some before) : invariant before := by
  induction earlier generalizing call state items with
  | nil =>
      cases reached
      exact initial
  | cons first earlier ih =>
      subst split
      rw [List.cons_append, refusedLast_cons] at last
      simp only [handled] at reached
      split at reached
      · cases reached
      · rename_i next closes returned
        have accepted := last.1 (by simp)
        exact ih (last.2 next closes returned) (kept _ _ _ _ _ initial accepted returned) rfl
          reached

end Library.Dispatch
