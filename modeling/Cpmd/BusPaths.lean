import Cpmd.Host
import Cpmd.Library.CutName

/-! The files that the buses of clients are backed by. -/

set_option autoImplicit false

namespace Cpmd

open Library

namespace Host

/-- What a handshake can bring as a name. -/
def IsName (name : List UInt8) : Prop := 1 ≤ name.length ∧ name.length < kMaxNameSize ∧ 0 ∉ name

/-- No two clients share a file, nor do the two directions of one. -/
def SeparatePaths (host : Host) (first second : List UInt8) : Prop :=
  (host.getInputBusPath first = host.getInputBusPath second → first = second) ∧
    (host.getOutputBusPath first = host.getOutputBusPath second → first = second) ∧
    host.getInputBusPath first ≠ host.getOutputBusPath second

/-- How much of a path is left for the name and the suffix. -/
def nameRoom (host : Host) : Nat := kMaxPathSize - 1 - (host.busLocation.length + 1)

theorem getBusPath_eq (host : Host) (suffix name : List UInt8) :
    host.getBusPath suffix name =
      (host.busLocation ++ [Address.slash]).take (kMaxPathSize - 1) ++
        CutName.cut host.nameRoom name suffix := by
  unfold getBusPath nameRoom CutName.cut
  rw [List.append_cons, List.take_append, List.length_append, List.length_singleton]

theorem getBusPath_eq_iff (host : Host) (suffix other first second : List UInt8) :
    host.getBusPath suffix first = host.getBusPath other second ↔
      CutName.cut host.nameRoom first suffix = CutName.cut host.nameRoom second other := by
  rw [getBusPath_eq, getBusPath_eq, List.append_cancel_left_eq]

theorem marked_inputSuffix : CutName.Marked 95 inputSuffix := ⟨_, rfl, by decide⟩

theorem marked_outputSuffix : CutName.Marked 95 outputSuffix := ⟨_, rfl, by decide⟩

theorem take_suffix_eq_iff (count : Nat) :
    inputSuffix.take count = outputSuffix.take count ↔ count ≤ 1 := by
  match count with
  | 0 => decide
  | 1 => decide
  | count + 2 => simp [inputSuffix, outputSuffix]

theorem separatePaths_self_iff (host : Host) (name : List UInt8) :
    host.SeparatePaths name name ↔ name.length + 1 < host.nameRoom := by
  simp only [SeparatePaths, getInputBusPath, getOutputBusPath, implies_true, true_and]
  rw [Ne, getBusPath_eq_iff, CutName.cut_eq_cut_iff marked_inputSuffix marked_outputSuffix]
  simp only [true_and, ne_eq, not_true_eq_false, false_and, or_false, take_suffix_eq_iff]
  omega

theorem separatePaths_iff_of_ne (host : Host) {first second : List UInt8}
    (different : first ≠ second) :
    host.SeparatePaths first second ↔
      ∀ suffix ∈ [inputSuffix, outputSuffix],
        ¬ CutName.Covers host.nameRoom first second suffix ∧
          ¬ CutName.Covers host.nameRoom second first suffix := by
  have input := marked_inputSuffix
  have output := marked_outputSuffix
  unfold SeparatePaths getInputBusPath getOutputBusPath
  rw [Ne, getBusPath_eq_iff, getBusPath_eq_iff, getBusPath_eq_iff,
    CutName.cut_eq_cut_iff input input, CutName.cut_eq_cut_iff output output,
    CutName.cut_eq_cut_iff input output]
  simp only [different, false_and, ne_eq, not_false_eq_true, true_and, false_or,
    List.forall_mem_cons, List.not_mem_nil, false_implies, implies_true, and_true]
  tauto

/-- The paths in `/tmp` of two names are separate exactly if the names have at most
120 bytes where they are one, and none begins as a path of the other is cut where
they are two. -/
theorem separatePaths_iff {host : Host} (located : host.busLocation = [47, 116, 109, 112])
    (first second : List UInt8) :
    host.SeparatePaths first second ↔
      (first = second → first.length ≤ 120) ∧
        (first ≠ second → ∀ suffix ∈ [inputSuffix, outputSuffix],
          ¬ CutName.Covers 122 first second suffix ∧
            ¬ CutName.Covers 122 second first suffix) := by
  have room : host.nameRoom = 122 := by
    rw [nameRoom, located]
    rfl
  by_cases same : first = second
  · subst same
    rw [separatePaths_self_iff, room]
    simp only [true_implies, ne_eq, not_true_eq_false, false_implies, and_true]
    omega
  · rw [separatePaths_iff_of_ne host same, room]
    simp only [same, false_implies, true_and, ne_eq, not_false_eq_true, true_implies]

/-- A daemon with its default options, and two short names. -/
theorem separatePaths_iff_short :
    (initial 8123 ⟨[], 9999⟩ [47, 116, 109, 112]).SeparatePaths [97] [98] := by
  refine (separatePaths_iff rfl [97] [98]).mpr ⟨by decide, fun _ suffix _ => ?_⟩
  constructor
  · intro covers
    exact absurd covers.1 (by decide)
  · intro covers
    exact absurd covers.1 (by decide)

/-- The two directions of a client whose name has 121 bytes. -/
theorem not_separatePaths_long :
    IsName (List.replicate 121 97) ∧
      ¬ (initial 8123 ⟨[], 9999⟩ [47, 116, 109, 112]).SeparatePaths (List.replicate 121 97)
        (List.replicate 121 97) := by
  refine ⟨⟨?_, ?_, ?_⟩, fun separate => ?_⟩
  · rw [List.length_replicate]
    decide
  · rw [List.length_replicate]
    decide
  · intro member
    cases List.eq_of_mem_replicate member
  · exact absurd ((separatePaths_self_iff _ _).mp separate) (by rw [List.length_replicate]; decide)

end Host

end Cpmd
