import Cpmd.Library.EventMachine
import Mathlib.Data.List.Perm.Subperm

/-! Machines that take elements in, hold some of them back, and send them on.
Three step conditions and what they give for whole runs: nothing is sent that was
not taken in, or more often than it was taken in, and what is sent keeps the order
in which it was taken in. -/

set_option autoImplicit false

namespace Library

/-- What a machine takes in with an event, holds in a state and sends with an
output. -/
structure Outbox (State Event Output Element : Type) where
  taken : State → Event → Option Element
  held : State → List Element
  sent : Output → Option Element

namespace Outbox

variable {State Event Output Element : Type}

def takenIn (outbox : Outbox State Event Output Element)
    (history : List (EventMachine.Taken State Event Output)) : List Element :=
  history.filterMap fun step => outbox.taken step.before step.event

def sentBy (outbox : Outbox State Event Output Element) (outputs : List Output) : List Element :=
  outputs.filterMap outbox.sent

@[simp] theorem takenIn_snoc (outbox : Outbox State Event Output Element)
    (history : List (EventMachine.Taken State Event Output))
    (step : EventMachine.Taken State Event Output) :
    outbox.takenIn (history ++ [step]) =
      outbox.takenIn history ++ (outbox.taken step.before step.event).toList := by
  cases brought : outbox.taken step.before step.event <;> simp [takenIn, brought]

@[simp] theorem sentBy_append (outbox : Outbox State Event Output Element)
    (first second : List Output) :
    outbox.sentBy (first ++ second) = outbox.sentBy first ++ outbox.sentBy second := by
  simp [sentBy]

variable {machine : EventMachine State Event Output}
  {guard : State → Event → Prop} {start state : State}
  {history : List (EventMachine.Taken State Event Output)}

/-- If each step sends and holds only what was held or is taken in, then so does
each run. -/
theorem sent_subset (outbox : Outbox State Event Output Element)
    (run : machine.Run guard start history state)
    (empty : outbox.held start = [])
    (honest : ∀ before event outputs after, guard before event →
      machine.step before event = some (after, outputs) →
      outbox.sentBy outputs ++ outbox.held after ⊆
        outbox.held before ++ (outbox.taken before event).toList) :
    outbox.sentBy (EventMachine.outputs history) ++ outbox.held state ⊆
      outbox.takenIn history := by
  induction run with
  | nil => simp [sentBy, empty]
  | snoc _ admitted stepped ih =>
      have once := honest _ _ _ _ admitted stepped
      rw [EventMachine.outputs_snoc, sentBy_append, takenIn_snoc, List.append_assoc]
      intro element member
      rcases List.mem_append.mp member with sentBefore | recent
      · exact List.mem_append_left _ (ih (List.mem_append_left _ sentBefore))
      · rcases List.mem_append.mp (once recent) with heldBefore | brought
        · exact List.mem_append_left _ (ih (List.mem_append_right _ heldBefore))
        · exact List.mem_append_right _ brought

@[simp] theorem takenIn_append (outbox : Outbox State Event Output Element)
    (history later : List (EventMachine.Taken State Event Output)) :
    outbox.takenIn (history ++ later) = outbox.takenIn history ++ outbox.takenIn later := by
  simp [takenIn]

/-- If each step sends and holds nothing more often than it was held and is taken
in, then so does each run, from whatever was held at its start. -/
theorem sent_subperm (outbox : Outbox State Event Output Element)
    (run : machine.Run guard start history state)
    (sparing : ∀ before event outputs after, guard before event →
      machine.step before event = some (after, outputs) →
      (outbox.sentBy outputs ++ outbox.held after).Subperm
        (outbox.held before ++ (outbox.taken before event).toList)) :
    (outbox.sentBy (EventMachine.outputs history) ++ outbox.held state).Subperm
      (outbox.held start ++ outbox.takenIn history) := by
  induction run with
  | nil => simp [sentBy, takenIn, List.Subperm.refl]
  | @snoc history before event outputs after _ admitted stepped ih =>
      have once := sparing _ _ _ _ admitted stepped
      have moved := (List.subperm_append_left
        (outbox.sentBy (EventMachine.outputs history))).mpr once
      have earlier := (List.subperm_append_right (outbox.taken before event).toList).mpr ih
      rw [EventMachine.outputs_snoc, sentBy_append, takenIn_snoc, List.append_assoc]
      rw [List.append_assoc, List.append_assoc] at earlier
      exact moved.trans earlier

/-- What the steps of a run lose. -/
def lostIn (lost : State → Event → List Element)
    (history : List (EventMachine.Taken State Event Output)) : List Element :=
  history.flatMap fun step => lost step.before step.event

/-- If in each step what is sent, held and lost adds up to what was held and is taken in,
then so it does in each run. -/
theorem sent_held_lost_perm (outbox : Outbox State Event Output Element)
    (lost : State → Event → List Element)
    (run : machine.Run guard start history state)
    (balanced : ∀ before event outputs after, guard before event →
      machine.step before event = some (after, outputs) →
      (outbox.sentBy outputs ++ (outbox.held after ++ lost before event)).Perm
        (outbox.held before ++ (outbox.taken before event).toList)) :
    (outbox.sentBy (EventMachine.outputs history) ++
        (outbox.held state ++ lostIn lost history)).Perm
      (outbox.held start ++ outbox.takenIn history) := by
  induction run with
  | nil => simp [sentBy, takenIn, lostIn]
  | @snoc history before event outputs after _ admitted stepped ih =>
      have once := balanced _ _ _ _ admitted stepped
      have lostSnoc : lostIn lost (history ++ [⟨before, event, outputs, after⟩]) =
          lostIn lost history ++ lost before event := by
        simp [lostIn]
      have apart : (outbox.held after ++ (lostIn lost history ++ lost before event)).Perm
          (outbox.held after ++ lost before event ++ lostIn lost history) := by
        rw [List.append_assoc]
        exact List.perm_append_comm.append_left _
      have together : (outbox.held before ++ (outbox.taken before event).toList ++
          lostIn lost history).Perm
          (outbox.held before ++ lostIn lost history ++ (outbox.taken before event).toList) := by
        rw [List.append_assoc, List.append_assoc]
        exact List.perm_append_comm.append_left _
      have earlier := ih.append_right (outbox.taken before event).toList
      rw [EventMachine.outputs_snoc, sentBy_append, takenIn_snoc, lostSnoc, List.append_assoc]
      refine ((apart.append_left _).append_left _).trans ?_
      rw [← List.append_assoc (outbox.sentBy outputs)]
      refine ((once.append_right _).append_left _).trans ?_
      refine (together.append_left _).trans ?_
      rwa [← List.append_assoc, ← List.append_assoc (outbox.held start)]

/-- If each step sends from the front of what is held, with what is taken in
behind it, then each run sends in the order of taking in. -/
theorem sent_sublist (outbox : Outbox State Event Output Element)
    (run : machine.Run guard start history state)
    (empty : outbox.held start = [])
    (orderly : ∀ before event outputs after, guard before event →
      machine.step before event = some (after, outputs) →
      (outbox.sentBy outputs ++ outbox.held after).Sublist
        (outbox.held before ++ (outbox.taken before event).toList)) :
    (outbox.sentBy (EventMachine.outputs history) ++ outbox.held state).Sublist
      (outbox.takenIn history) := by
  induction run with
  | nil => simp [sentBy, empty]
  | @snoc history before event outputs after _ admitted stepped ih =>
      have once := orderly _ _ _ _ admitted stepped
      have moved := once.append_left (outbox.sentBy (EventMachine.outputs history))
      have earlier := ih.append_right (outbox.taken before event).toList
      rw [EventMachine.outputs_snoc, sentBy_append, takenIn_snoc, List.append_assoc]
      rw [List.append_assoc] at earlier
      exact moved.trans earlier

end Outbox

end Library
