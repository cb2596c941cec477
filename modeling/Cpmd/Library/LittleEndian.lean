import Mathlib.Algebra.Group.Int.Defs
import Mathlib.Algebra.GroupWithZero.Nat
import Mathlib.Data.List.Basic

/-! Words of thirty-two and of sixteen bits in little-endian byte order. -/

set_option autoImplicit false

namespace Library.LittleEndian

def bytes (word : UInt32) : List UInt8 :=
  [UInt8.ofNat word.toNat, UInt8.ofNat (word.toNat / 2 ^ 8),
    UInt8.ofNat (word.toNat / 2 ^ 16), UInt8.ofNat (word.toNat / 2 ^ 24)]

/-- The word in the first four bytes; fewer than four bytes give zero. -/
def word : List UInt8 → UInt32
  | first :: second :: third :: fourth :: _ =>
      UInt32.ofNat (first.toNat + 2 ^ 8 * second.toNat + 2 ^ 16 * third.toNat +
        2 ^ 24 * fourth.toNat)
  | _ => 0

@[simp] theorem length_bytes (value : UInt32) : (bytes value).length = 4 := rfl

@[simp] theorem drop_bytes (value : UInt32) (count : Nat) :
    (bytes value).drop (count + 4) = [] := by
  simp [bytes]

@[simp] theorem word_bytes_append (value : UInt32) (rest : List UInt8) :
    word (bytes value ++ rest) = value := by
  have bound := value.toNat_lt
  apply UInt32.toNat_inj.mp
  simp only [bytes, word, List.cons_append, List.nil_append, UInt32.toNat_ofNat',
    UInt8.toNat_ofNat']
  omega

@[simp] theorem word_bytes (value : UInt32) : word (bytes value) = value := by
  have appended := word_bytes_append value []
  rwa [List.append_nil] at appended

theorem word_append {input : List UInt8} (whole : 4 ≤ input.length) (rest : List UInt8) :
    word (input ++ rest) = word input := by
  match input, whole with
  | _ :: _ :: _ :: _ :: _, _ => rfl

theorem word_take (input : List UInt8) : word (input.take 4) = word input := by
  match input with
  | [] | [_] | [_, _] | [_, _, _] | _ :: _ :: _ :: _ :: _ => rfl

theorem bytes_word {input : List UInt8} (whole : 4 ≤ input.length) :
    bytes (word input) = input.take 4 := by
  match input, whole with
  | first :: second :: third :: fourth :: rest, _ =>
      have firstBound := first.toNat_lt
      have secondBound := second.toNat_lt
      have thirdBound := third.toNat_lt
      have fourthBound := fourth.toNat_lt
      simp only [bytes, word, UInt32.toNat_ofNat', List.take_succ_cons, List.take_zero,
        List.cons.injEq, and_true, ← UInt8.toNat_inj, UInt8.toNat_ofNat']
      omega

/-- Bytes are read in blocks of a word, up to fewer than four bytes that are left. -/
@[elab_as_elim] theorem blocks_induction {motive : List UInt8 → Prop}
    (tail : ∀ bytes, bytes.length < 4 → motive bytes)
    (block : ∀ block rest, block.length = 4 → motive rest → motive (block ++ rest))
    (bytes : List UInt8) : motive bytes := by
  match bytes with
  | first :: second :: third :: fourth :: rest =>
      exact block [first, second, third, fourth] rest rfl (blocks_induction tail block rest)
  | [] | [_] | [_, _] | [_, _, _] =>
      apply tail
      simp

def halfBytes (half : UInt16) : List UInt8 :=
  [UInt8.ofNat half.toNat, UInt8.ofNat (half.toNat / 2 ^ 8)]

/-- The half word in the first two bytes; fewer than two bytes give zero. -/
def half : List UInt8 → UInt16
  | first :: second :: _ => UInt16.ofNat (first.toNat + 2 ^ 8 * second.toNat)
  | _ => 0

@[simp] theorem length_halfBytes (value : UInt16) : (halfBytes value).length = 2 := rfl

@[simp] theorem drop_halfBytes (value : UInt16) (count : Nat) :
    (halfBytes value).drop (count + 2) = [] := by
  simp [halfBytes]

@[simp] theorem half_halfBytes_append (value : UInt16) (rest : List UInt8) :
    half (halfBytes value ++ rest) = value := by
  have bound := value.toNat_lt
  apply UInt16.toNat_inj.mp
  simp only [halfBytes, half, List.cons_append, List.nil_append, UInt16.toNat_ofNat',
    UInt8.toNat_ofNat']
  omega

@[simp] theorem half_halfBytes (value : UInt16) : half (halfBytes value) = value := by
  have appended := half_halfBytes_append value []
  rwa [List.append_nil] at appended

theorem half_take (input : List UInt8) : half (input.take 2) = half input := by
  match input with
  | [] | [_] | _ :: _ :: _ => rfl

theorem half_append {input : List UInt8} (whole : 2 ≤ input.length) (rest : List UInt8) :
    half (input ++ rest) = half input := by
  match input, whole with
  | _ :: _ :: _, _ => rfl

end Library.LittleEndian
