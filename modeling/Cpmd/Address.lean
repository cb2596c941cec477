import Cpmd.Library.LittleEndian

/-! Addresses: a node part and a client part, each a hash of a part of a
readable address. Byte strings stand for `alpha::Slice` and `std::string`. -/

set_option autoImplicit false

namespace Cpmd

structure Address where
  nodeAddr : UInt32
  clientAddr : UInt32
deriving DecidableEq, Repr

namespace Address

def kLocalNodeAddress : UInt32 := 0

def slash : UInt8 := 47

def rotateLeft (value count : UInt32) : UInt32 := (value <<< count) ||| (value >>> (32 - count))

/-- What one block contributes: the multiplications and the rotation by `r1`. -/
def scramble (block : UInt32) : UInt32 :=
  rotateLeft (block * 0xcc9e2d51) 15 * 0x1b873593

def hashBlock (hash block : UInt32) : UInt32 :=
  rotateLeft (hash ^^^ scramble block) 13 * 5 + 0xe6546b64

/-- The block loop, and the fall-through switch on the trailing bytes. -/
def hashBytes (hash : UInt32) : List UInt8 → UInt32
  | first :: second :: third :: fourth :: rest =>
      hashBytes (hashBlock hash (Library.LittleEndian.word [first, second, third, fourth])) rest
  | [first, second, third] =>
      hash ^^^ scramble ((third.toUInt32 <<< 16) ^^^ (second.toUInt32 <<< 8) ^^^ first.toUInt32)
  | [first, second] => hash ^^^ scramble ((second.toUInt32 <<< 8) ^^^ first.toUInt32)
  | [first] => hash ^^^ scramble first.toUInt32
  | [] => hash

def finalMix (hash : UInt32) : UInt32 :=
  let hash := hash ^^^ (hash >>> 16)
  let hash := hash * 0x85ebca6b
  let hash := hash ^^^ (hash >>> 13)
  let hash := hash * 0xc2b2ae35
  hash ^^^ (hash >>> 16)

/-- MurmurHash, 32 bit, with the fixed seed, of as many bytes as the length of
thirty-two bits counts. -/
def hash (addr : List UInt8) : UInt32 :=
  let len := UInt32.ofNat addr.length
  finalMix (hashBytes 0xEE6B27EB (addr.take len.toNat) ^^^ len)

/-- The two parts of a readable address, cut behind its last slash. -/
def getNodeAddress (address : List UInt8) : List UInt8 × List UInt8 :=
  let left := (address.reverse.takeWhile (· != slash)).reverse
  (address.take (address.length - left.length), left)

def create (readableAddress : List UInt8) : Address :=
  if slash ∉ readableAddress then
    ⟨kLocalNodeAddress, hash readableAddress⟩
  else if readableAddress.getLast? = some slash then
    ⟨hash readableAddress, 0⟩
  else
    let parts := getNodeAddress readableAddress
    ⟨hash parts.1, hash parts.2⟩

def createDirectly (nodeAddr clientAddr : UInt32) : Address := ⟨nodeAddr, clientAddr⟩

end Address

end Cpmd
