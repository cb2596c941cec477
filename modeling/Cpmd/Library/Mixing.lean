import Mathlib.Data.Nat.Bitwise
import Mathlib.Logic.Function.Basic

/-! The steps by which hash functions mix a word, each of which loses nothing: a
rotation, a word combined with itself shifted, and a sum of parts in disjoint bits. -/

set_option autoImplicit false

namespace Library.Mixing

variable {width : Nat}

def rotate (word : BitVec width) (count : Nat) : BitVec width :=
  (word <<< count) ||| (word >>> (width - count))

def xorShift (word : BitVec width) (count : Nat) : BitVec width := word ^^^ (word >>> count)

theorem getLsbD_rotate (word : BitVec width) {count : Nat} (within : count ≤ width) (bit : Nat) :
    (rotate word count).getLsbD bit =
      (decide (bit < width) &&
        if bit < count then word.getLsbD (bit + (width - count))
        else word.getLsbD (bit - count)) := by
  rw [rotate, BitVec.getLsbD_or, BitVec.getLsbD_shiftLeft, BitVec.getLsbD_ushiftRight]
  by_cases inside : bit < width
  · by_cases low : bit < count
    · simp [inside, low, Nat.add_comm]
    · have beyond : word.getLsbD (width - count + bit) = false :=
        BitVec.getLsbD_of_ge _ _ (by omega)
      simp [inside, low, beyond]
  · have beyond : word.getLsbD (width - count + bit) = false :=
      BitVec.getLsbD_of_ge _ _ (by omega)
    simp [inside, beyond]

theorem rotate_rotate {count : Nat} (within : count ≤ width) (word : BitVec width) :
    rotate (rotate word count) (width - count) = word := by
  refine BitVec.eq_of_getLsbD_eq fun bit inside => ?_
  rw [getLsbD_rotate _ (Nat.sub_le width count), getLsbD_rotate word within,
    getLsbD_rotate word within]
  by_cases low : bit < width - count
  · have position : bit + (width - (width - count)) - count = bit := by omega
    have carried : bit + (width - (width - count)) < width := by omega
    have high : ¬ bit + (width - (width - count)) < count := by omega
    simp [inside, low, position, carried, high]
  · have position : bit - (width - count) + (width - count) = bit := by omega
    have carried : bit - (width - count) < width := by omega
    have high : bit - (width - count) < count := by omega
    simp [inside, low, position, carried, high]

/-- The bits are determined one after the other, from the highest down. -/
theorem xorShift_injective {count : Nat} (shifts : 0 < count) :
    Function.Injective fun word : BitVec width => xorShift word count := by
  intro left right same
  have agree (gap : Nat) : ∀ bit, width ≤ bit + gap → left.getLsbD bit = right.getLsbD bit := by
    induction gap with
    | zero =>
        intro bit outside
        rw [BitVec.getLsbD_of_ge left bit outside, BitVec.getLsbD_of_ge right bit outside]
    | succ gap ih =>
        intro bit outside
        have higher := ih (count + bit) (by omega)
        have bits := congrArg (fun word => word.getLsbD bit) same
        simp only [xorShift, BitVec.getLsbD_xor, BitVec.getLsbD_ushiftRight, higher] at bits
        exact Bool.xor_left_inj.mp bits
  exact BitVec.eq_of_getLsbD_eq fun bit _ => agree width bit (Nat.le_add_left _ _)

/-- Parts in disjoint bits are put together alike by addition and by exclusive or. -/
theorem mul_xor_of_lt {low exponent : Nat} (small : low < 2 ^ exponent) (high : Nat) :
    (high * 2 ^ exponent) ^^^ low = high * 2 ^ exponent + low := by
  refine Nat.eq_of_testBit_eq fun bit => ?_
  rw [Nat.testBit_xor, Nat.mul_comm, Nat.testBit_two_pow_mul_add high small,
    Nat.testBit_two_pow_mul]
  by_cases below : bit < exponent
  · simp [below, Nat.not_le_of_lt below]
  · have beyond : low.testBit bit = false := by
      refine Nat.testBit_lt_two_pow (Nat.lt_of_lt_of_le small ?_)
      exact Nat.pow_le_pow_right (by decide) (Nat.le_of_not_lt below)
    simp [below, beyond, Nat.le_of_not_lt below]

end Library.Mixing
