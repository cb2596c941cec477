import Cpmd.Library.Mixing
import Cpmd.ReadableAddresses

/-! What `Address::Hash` loses of a name: nothing, as long as only one word of it
varies. So there is one last word with which a name is hashed to a given value. -/

set_option autoImplicit false

namespace Cpmd.Address

open Library

theorem toBitVec_rotateLeft (word : UInt32) {count : UInt32} (inside : count.toNat < 32)
    (positive : 0 < count.toNat) :
    (rotateLeft word count).toBitVec = Mixing.rotate word.toBitVec count.toNat := by
  have rest : (32 - count).toNat = 32 - count.toNat := by
    rw [UInt32.toNat_sub_of_le _ _ (UInt32.le_iff_toNat_le.mpr (Nat.le_of_lt inside))]
    rfl
  have smaller : 32 - count.toNat < 32 := by omega
  have left : (count.toBitVec % 32).toNat = count.toNat := by
    rw [BitVec.toNat_umod]
    exact Nat.mod_eq_of_lt inside
  have right : ((32 - count).toBitVec % 32).toNat = 32 - count.toNat := by
    rw [BitVec.toNat_umod, UInt32.toNat_toBitVec, rest]
    exact Nat.mod_eq_of_lt smaller
  rw [rotateLeft, Mixing.rotate, UInt32.toBitVec_or, UInt32.toBitVec_shiftLeft,
    UInt32.toBitVec_shiftRight, BitVec.shiftLeft_eq', BitVec.ushiftRight_eq', left, right]

theorem rotateLeft_rotateLeft {word count back : UInt32}
    (turns : 0 < count.toNat ∧ 0 < back.toNat ∧ count.toNat + back.toNat = 32) :
    rotateLeft (rotateLeft word count) back = word := by
  obtain ⟨positive, backPositive, whole⟩ := turns
  have rest : back.toNat = 32 - count.toNat := by omega
  apply UInt32.toBitVec_inj.mp
  rw [toBitVec_rotateLeft _ (by omega) backPositive, toBitVec_rotateLeft _ (by omega) positive,
    rest]
  exact Mixing.rotate_rotate (by omega) word.toBitVec

theorem mul_mul_of_inverse {factor inverse : UInt32} (one : factor * inverse = 1)
    (word : UInt32) : word * factor * inverse = word := by
  rw [UInt32.mul_assoc, one, UInt32.mul_one]

/-- The block that contributes a word. -/
def unscramble (word : UInt32) : UInt32 := rotateLeft (word * 0x56ed309b) 17 * 0xdee13bb1

theorem unscramble_scramble (block : UInt32) : unscramble (scramble block) = block := by
  rw [unscramble, scramble, mul_mul_of_inverse (by decide), rotateLeft_rotateLeft (by decide),
    mul_mul_of_inverse (by decide)]

theorem scramble_unscramble (word : UInt32) : scramble (unscramble word) = word := by
  rw [scramble, unscramble, mul_mul_of_inverse (by decide), rotateLeft_rotateLeft (by decide),
    mul_mul_of_inverse (by decide)]

theorem scramble_injective : Function.Injective scramble :=
  Function.LeftInverse.injective unscramble_scramble

/-- What the state and the block's contribution together come to before a round. -/
def unround (hash : UInt32) : UInt32 := rotateLeft ((hash - 0xe6546b64) * 0xcccccccd) 19

def round (mixed : UInt32) : UInt32 := rotateLeft mixed 13 * 5 + 0xe6546b64

theorem unround_round (mixed : UInt32) : unround (round mixed) = mixed := by
  rw [unround, round, UInt32.add_sub_cancel, mul_mul_of_inverse (by decide),
    rotateLeft_rotateLeft (by decide)]

theorem round_unround (hash : UInt32) : round (unround hash) = hash := by
  rw [round, unround, rotateLeft_rotateLeft (by decide), mul_mul_of_inverse (by decide),
    UInt32.sub_add_cancel]

theorem xor_eq_iff {left right word : UInt32} : left ^^^ right = word ↔ right = left ^^^ word := by
  constructor
  · intro same
    rw [← same, ← UInt32.xor_assoc, UInt32.xor_self, UInt32.zero_xor]
  · intro same
    rw [same, ← UInt32.xor_assoc, UInt32.xor_self, UInt32.zero_xor]

theorem xor_scramble_eq_iff {hash block after : UInt32} :
    hash ^^^ scramble block = after ↔ block = unscramble (hash ^^^ after) := by
  rw [xor_eq_iff]
  constructor
  · intro same
    rw [← same, unscramble_scramble]
  · intro same
    rw [same, scramble_unscramble]

/-- A round leads from any state to any other, by one block only. -/
theorem hashBlock_eq_iff {hash block after : UInt32} :
    hashBlock hash block = after ↔ block = unscramble (hash ^^^ unround after) := by
  rw [← xor_scramble_eq_iff]
  constructor
  · intro same
    rw [← same, hashBlock, ← round, unround_round]
  · intro same
    rw [hashBlock, same, ← round, round_unround]

theorem hashBlock_injective (hash : UInt32) : Function.Injective (hashBlock hash) := by
  intro left right same
  rw [hashBlock_eq_iff.mp same, ← hashBlock_eq_iff.mp (Eq.refl (hashBlock hash right))]

theorem hashBlock_state_injective (block : UInt32) :
    Function.Injective fun hash => hashBlock hash block := by
  intro left right same
  have mixed : left ^^^ scramble block = right ^^^ scramble block :=
    Function.LeftInverse.injective unround_round same
  exact (UInt32.xor_left_inj _).mp mixed

theorem mul_injective {factor inverse : UInt32} (one : factor * inverse = 1) :
    Function.Injective fun word : UInt32 => word * factor := by
  intro left right same
  have undone := congrArg (· * inverse) same
  simp only [mul_mul_of_inverse one] at undone
  exact undone

theorem xor_shiftRight_injective {count : UInt32} (shifts : 0 < (count.toBitVec % 32).toNat) :
    Function.Injective fun word : UInt32 => word ^^^ (word >>> count) := by
  intro left right same
  exact UInt32.toBitVec_inj.mp (Mixing.xorShift_injective shifts (congrArg UInt32.toBitVec same))

theorem finalMix_injective : Function.Injective finalMix := by
  have first := mul_injective (by decide : (0x85ebca6b : UInt32) * 0xa5cb9243 = 1)
  have second := mul_injective (by decide : (0xc2b2ae35 : UInt32) * 0x7ed1b41d = 1)
  have outer := xor_shiftRight_injective (by decide : 0 < ((16 : UInt32).toBitVec % 32).toNat)
  have inner := xor_shiftRight_injective (by decide : 0 < ((13 : UInt32).toBitVec % 32).toNat)
  exact outer.comp (second.comp (inner.comp (first.comp outer)))

theorem finalMix_eq_zero_iff {hash : UInt32} : finalMix hash = 0 ↔ hash = 0 :=
  finalMix_injective.eq_iff' (by decide)

/-- The little-endian word of up to four bytes. -/
def padded (bytes : List UInt8) : UInt32 := LittleEndian.word (bytes ++ [0, 0, 0, 0])

theorem padded_three (first second third : UInt8) :
    padded [first, second, third] =
      (third.toUInt32 <<< 16) ^^^ (second.toUInt32 <<< 8) ^^^ first.toUInt32 := by
  have firstBound : first.toNat < 2 ^ 8 := first.toNat_lt
  have secondBound : second.toNat < 2 ^ 8 := second.toNat_lt
  have thirdBound : third.toNat < 2 ^ 8 := third.toNat_lt
  have upper : third.toNat * 2 ^ 16 ^^^ second.toNat * 2 ^ 8 =
      (third.toNat * 2 ^ 8 + second.toNat) * 2 ^ 8 := by
    rw [Mixing.mul_xor_of_lt (by omega)]
    omega
  have highest : third.toNat * 2 ^ 16 % 2 ^ 32 = third.toNat * 2 ^ 16 :=
    Nat.mod_eq_of_lt (by omega)
  have middle : second.toNat * 2 ^ 8 % 2 ^ 32 = second.toNat * 2 ^ 8 :=
    Nat.mod_eq_of_lt (by omega)
  apply UInt32.toNat_inj.mp
  rw [UInt32.toNat_xor, UInt32.toNat_xor, UInt32.toNat_shiftLeft, UInt32.toNat_shiftLeft]
  simp only [UInt8.toNat_toUInt32, Nat.shiftLeft_eq]
  change _ = third.toNat * 2 ^ 16 % 2 ^ 32 ^^^ second.toNat * 2 ^ 8 % 2 ^ 32 ^^^ first.toNat
  rw [highest, middle, upper, Mixing.mul_xor_of_lt firstBound]
  simp only [padded, List.cons_append, List.nil_append, LittleEndian.word, UInt32.toNat_ofNat']
  rw [Nat.mod_eq_of_lt]
  · change _ + _ + _ + 2 ^ 24 * 0 = _
    omega
  · change _ + _ + _ + 2 ^ 24 * 0 < _
    omega

theorem padded_two (first second : UInt8) :
    padded [first, second] = (second.toUInt32 <<< 8) ^^^ first.toUInt32 := by
  have wider := padded_three first second 0
  rwa [show (0 : UInt8).toUInt32 <<< 16 = 0 by decide, UInt32.zero_xor] at wider

theorem padded_one (first : UInt8) : padded [first] = first.toUInt32 := by
  have wider := padded_two first 0
  rwa [show (0 : UInt8).toUInt32 <<< 8 = 0 by decide, UInt32.zero_xor] at wider

/-- The bytes behind the last whole block count as one more block, but for the round. -/
theorem hashBytes_tail {bytes : List UInt8} (short : bytes.length < 4) (hash : UInt32) :
    hashBytes hash bytes = hash ^^^ scramble (padded bytes) := by
  cases bytes with
  | nil =>
      have nothing : scramble (padded []) = 0 := by decide
      rw [nothing, UInt32.xor_zero]
      rfl
  | cons first bytes =>
      cases bytes with
      | nil => rw [padded_one]; rfl
      | cons second bytes =>
          cases bytes with
          | nil => rw [padded_two]; rfl
          | cons third bytes =>
              cases bytes with
              | nil => rw [padded_three]; rfl
              | cons _ _ => simp only [List.length_cons] at short; omega

theorem hashBytes_block {block : List UInt8} (size : block.length = 4) (rest : List UInt8)
    (hash : UInt32) :
    hashBytes hash (block ++ rest) = hashBytes (hashBlock hash (padded block)) rest := by
  rw [padded, LittleEndian.word_append size.ge]
  obtain ⟨first, second, third, fourth, rfl⟩ := List.length_eq_four.mp size
  delta hashBytes
  rfl

theorem hashBytes_injective (bytes : List UInt8) :
    Function.Injective fun hash => hashBytes hash bytes := by
  induction bytes using LittleEndian.blocks_induction with
  | tail bytes short =>
      intro left right same
      simp only [hashBytes_tail short] at same
      exact (UInt32.xor_left_inj _).mp same
  | block block rest size ih =>
      simp only [hashBytes_block size]
      exact ih.comp (hashBlock_state_injective _)

theorem take_padded {bytes : List UInt8} (short : bytes.length ≤ 4) :
    (LittleEndian.bytes (padded bytes)).take bytes.length = bytes := by
  rw [padded, LittleEndian.bytes_word (by simp), List.take_take, Nat.min_eq_left short,
    List.take_left]

theorem padded_injective {left right : List UInt8} (length : left.length = right.length)
    (short : left.length ≤ 4) (same : padded left = padded right) : left = right := by
  rw [← take_padded short, same, length, take_padded (length ▸ short)]

/-- The names differ only inside one aligned block of four bytes, or only behind the
last whole one. -/
def WithinOneWord (left right : List UInt8) : Prop :=
  ∃ word, ∀ index : Nat, left[index]? ≠ right[index]? → index / 4 = word

theorem WithinOneWord.append {block otherBlock rest otherRest : List UInt8}
    (size : block.length = 4) (otherSize : otherBlock.length = 4)
    (within : WithinOneWord (block ++ rest) (otherBlock ++ otherRest)) :
    block = otherBlock ∧ WithinOneWord rest otherRest ∨ rest = otherRest := by
  obtain ⟨word, places⟩ := within
  have behind (index : Nat) (differ : rest[index]? ≠ otherRest[index]?) :
      (index + 4) / 4 = word := by
    apply places
    rwa [List.getElem?_append_right (by omega), List.getElem?_append_right (by omega), size,
      otherSize, Nat.add_sub_cancel]
  cases word with
  | zero =>
      refine .inr (List.ext_getElem? fun index => ?_)
      apply Classical.byContradiction
      intro differ
      have place := behind index differ
      omega
  | succ word =>
      refine .inl ⟨List.ext_getElem? fun index => ?_, word, fun index differ => ?_⟩
      · by_cases inside : index < 4
        · apply Classical.byContradiction
          intro differ
          have place := places index (by
            rwa [List.getElem?_append_left (by omega), List.getElem?_append_left (by omega)])
          omega
        · rw [List.getElem?_eq_none (by omega), List.getElem?_eq_none (by omega)]
      · have place := behind index differ
        omega

theorem hashBytes_ne {left right : List UInt8} (length : left.length = right.length)
    (different : left ≠ right) (within : WithinOneWord left right) (hash : UInt32) :
    hashBytes hash left ≠ hashBytes hash right := by
  induction left using LittleEndian.blocks_induction generalizing right hash with
  | tail left short =>
      rw [hashBytes_tail short, hashBytes_tail (length ▸ short)]
      intro same
      have words := scramble_injective ((UInt32.xor_right_inj _).mp same)
      exact different (padded_injective length (Nat.le_of_lt short) words)
  | block block rest size ih =>
      have whole : (right.take 4).length = 4 := by
        rw [List.length_take, ← length, List.length_append]
        omega
      rw [← List.take_append_drop 4 right] at length different within ⊢
      rw [hashBytes_block size, hashBytes_block whole]
      rcases within.append size whole with same | same
      · obtain ⟨blocks, within⟩ := same
        rw [← blocks] at different length ⊢
        refine ih ?_ (fun rests => different (by rw [rests])) within _
        simpa using length
      · rw [← same] at different ⊢
        intro collided
        have words := hashBlock_injective _ (hashBytes_injective rest collided)
        have blocks := padded_injective (size.trans whole.symm) size.le words
        exact different (by rw [blocks])

/-- The bytes that are hashed: all of them, if thirty-two bits count them. -/
def key (addr : List UInt8) : List UInt8 := addr.take (UInt32.ofNat addr.length).toNat

theorem length_key (addr : List UInt8) :
    UInt32.ofNat (key addr).length = UInt32.ofNat addr.length := by
  have counted : (UInt32.ofNat addr.length).toNat ≤ addr.length := by
    rw [UInt32.toNat_ofNat']
    exact Nat.mod_le _ _
  rw [key, List.length_take, Nat.min_eq_left counted, UInt32.ofNat_toNat]

theorem hash_eq (addr : List UInt8) :
    hash addr = finalMix (hashBytes 0xEE6B27EB (key addr) ^^^ UInt32.ofNat (key addr).length) := by
  rw [length_key]
  rfl

theorem key_of_counted {addr : List UInt8} (counted : addr.length < 2 ^ 32) : key addr = addr := by
  rw [key, UInt32.toNat_ofNat', Nat.mod_eq_of_lt counted, List.take_length]

theorem hash_ne {left right : List UInt8} (counted : left.length < 2 ^ 32)
    (length : left.length = right.length) (different : left ≠ right)
    (within : WithinOneWord left right) : hash left ≠ hash right := by
  rw [hash_eq, hash_eq, key_of_counted counted, key_of_counted (length ▸ counted), length]
  intro same
  have mixed := (UInt32.xor_left_inj _).mp (finalMix_injective same)
  exact hashBytes_ne length different within _ mixed

/-- Names that differ in one word are hashed apart, and so clients and nodes of such
names have different addresses. -/
theorem create_ne_of_one_word {left right : List UInt8} (counted : left.length < 2 ^ 31)
    (length : left.length = right.length) (different : left ≠ right)
    (within : WithinOneWord left right) :
    hash left ≠ hash right ∧
      (slash ∉ left → slash ∉ right → (create left).clientAddr ≠ (create right).clientAddr) ∧
      (left.getLast? = some slash → right.getLast? = some slash →
        (create left).nodeAddr ≠ (create right).nodeAddr) := by
  have apart : hash left ≠ hash right := hash_ne (by omega) length different within
  refine ⟨apart, fun client other => ?_, fun node other => ?_⟩
  · rw [create_of_client client, create_of_client other]
    exact apart
  · rw [create_of_node node, create_of_node other]
    exact apart

theorem withinOneWord_of_places {left right : List UInt8} (word : Nat)
    (length : left.length = right.length)
    (places : ∀ index < left.length, left[index]? ≠ right[index]? → index / 4 = word) :
    WithinOneWord left right := by
  refine ⟨word, fun index differ => ?_⟩
  by_cases inside : index < left.length
  · exact places index inside differ
  · rw [List.getElem?_eq_none (by omega), List.getElem?_eq_none (by omega)] at differ
    exact absurd rfl differ

/-- The clients `chat-a-room-at-b` and `chat-c-room-at-b` differ inside the second of four
blocks, the nodes `/at-b/room/` and `/at-b/rood/` in the bytes behind the last one. -/
theorem create_ne_of_one_word_inside :
    (create [99, 104, 97, 116, 45, 97, 45, 114, 111, 111, 109, 45, 97, 116, 45, 98]).clientAddr ≠
        (create [99, 104, 97, 116, 45, 99, 45, 114, 111, 111, 109, 45, 97, 116, 45,
          98]).clientAddr ∧
      (create [47, 97, 116, 45, 98, 47, 114, 111, 111, 109, 47]).nodeAddr ≠
        (create [47, 97, 116, 45, 98, 47, 114, 111, 111, 100, 47]).nodeAddr := by
  constructor
  · have inside : WithinOneWord
        [99, 104, 97, 116, 45, 97, 45, 114, 111, 111, 109, 45, 97, 116, 45, 98]
        [99, 104, 97, 116, 45, 99, 45, 114, 111, 111, 109, 45, 97, 116, 45, 98] :=
      withinOneWord_of_places 1 rfl (by decide)
    refine (create_ne_of_one_word ?_ ?_ ?_ inside).2.1 ?_ ?_ <;> decide
  · have behind : WithinOneWord [47, 97, 116, 45, 98, 47, 114, 111, 111, 109, 47]
        [47, 97, 116, 45, 98, 47, 114, 111, 111, 100, 47] :=
      withinOneWord_of_places 2 rfl (by decide)
    refine (create_ne_of_one_word ?_ ?_ ?_ behind).2.2 ?_ ?_ <;> decide

theorem hashBytes_append {front : List UInt8} (blocks : front.length % 4 = 0)
    (rest : List UInt8) (hash : UInt32) :
    hashBytes hash (front ++ rest) = hashBytes (hashBytes hash front) rest := by
  induction front using LittleEndian.blocks_induction generalizing hash with
  | tail front short =>
      have nothing : front = [] := List.length_eq_zero_iff.mp (by omega)
      rw [nothing]
      rfl
  | block block front size ih =>
      have behind : front.length % 4 = 0 := by
        rw [List.length_append] at blocks
        omega
      rw [List.append_assoc, hashBytes_block size, hashBytes_block size, ih behind]

/-- The blocks before the last word, and the last word, of one to four bytes. -/
def front (bytes : List UInt8) : List UInt8 := bytes.take ((bytes.length - 1) / 4 * 4)

def lastWord (bytes : List UInt8) : UInt32 := padded (bytes.drop ((bytes.length - 1) / 4 * 4))

/-- The one last word with which a name of so many bytes is hashed to 0, behind the
blocks before it. -/
def zeroWord (front : List UInt8) (length : Nat) : UInt32 :=
  let state := hashBytes 0xEE6B27EB front
  let len := UInt32.ofNat length
  if length % 4 = 0 then unscramble (state ^^^ unround len) else unscramble (state ^^^ len)

theorem hashBytes_last_eq_iff {last : List UInt8} (bounded : last.length ≤ 4)
    {hash after : UInt32} :
    hashBytes hash last = after ↔
      padded last = if last.length = 4 then unscramble (hash ^^^ unround after)
        else unscramble (hash ^^^ after) := by
  by_cases whole : last.length = 4
  · have block := hashBytes_block whole [] hash
    rw [List.append_nil] at block
    rw [block, if_pos whole]
    exact hashBlock_eq_iff
  · rw [hashBytes_tail (Nat.lt_of_le_of_ne bounded whole), if_neg whole]
    exact xor_scramble_eq_iff

theorem hashBytes_eq_length_iff (bytes : List UInt8) :
    hashBytes 0xEE6B27EB bytes = UInt32.ofNat bytes.length ↔
      lastWord bytes = zeroWord (front bytes) bytes.length := by
  by_cases filled : bytes = []
  · subst filled
    decide
  have positive : 0 < bytes.length := List.length_pos_iff.mpr filled
  let cut := (bytes.length - 1) / 4 * 4
  have behind : (bytes.drop cut).length = bytes.length - cut := List.length_drop
  have within : cut ≤ bytes.length ∧ bytes.length - cut ≤ 4 ∧ cut % 4 = 0 := by omega
  have whole : (bytes.drop cut).length = 4 ↔ bytes.length % 4 = 0 := by omega
  have blocks : (front bytes).length % 4 = 0 := by
    rw [front, List.length_take, Nat.min_eq_left within.1]
    exact within.2.2
  have split := hashBytes_append blocks (bytes.drop cut) 0xEE6B27EB
  rw [front, List.take_append_drop] at split
  rw [split, hashBytes_last_eq_iff (behind ▸ within.2.1), if_congr whole rfl rfl]
  rfl

theorem hash_eq_zero_iff (addr : List UInt8) :
    hash addr = 0 ↔ lastWord (key addr) = zeroWord (front (key addr)) (key addr).length := by
  rw [hash_eq, finalMix_eq_zero_iff, UInt32.xor_eq_zero_iff, hashBytes_eq_length_iff]

end Cpmd.Address
