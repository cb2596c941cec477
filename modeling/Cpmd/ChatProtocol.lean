import Cpmd.Library.LittleEndian
import Cpmd.Library.Memory

/-! The messages of the chatroom among the examples: a type and three strings in fields of
fixed width, what the builder writes, and what is read of it. -/

set_option autoImplicit false

namespace Cpmd.Chat

open Library

inductive MessageType where
  | kRegister
  | kHeartBeat
  | kMessage
  | kPrivateMessage
  | unknown (type : Int16)
deriving DecidableEq

namespace MessageType

def ofInt16 (value : Int16) : MessageType :=
  if value = 1 then .kRegister
  else if value = 2 then .kHeartBeat
  else if value = 3 then .kMessage
  else if value = 4 then .kPrivateMessage
  else .unknown value

def toInt16 : MessageType → Int16
  | .kRegister => 1
  | .kHeartBeat => 2
  | .kMessage => 3
  | .kPrivateMessage => 4
  | .unknown value => value

end MessageType

def kMaxNameSize : Nat := 1 <<< 4

def kMaxWordsSize : Nat := 1 <<< 6

/-- A message as its receivers read it, with the strings up to their first NUL. -/
structure Message where
  type : MessageType
  name : List UInt8
  toName : List UInt8
  words : List UInt8
deriving DecidableEq

namespace Message

def nameOffset : Nat := 2

def toNameOffset : Nat := nameOffset + kMaxNameSize

def wordsOffset : Nat := toNameOffset + kMaxNameSize

def sizeof : Nat := wordsOffset + kMaxWordsSize

/-- `data.as<chat::Message>()`. A string goes on up to the next NUL, be it outside its
field. -/
def ofData (data : List UInt8) : Message where
  type := .ofInt16 (LittleEndian.half data).toInt16
  name := Memory.string 0 (data.drop nameOffset)
  toName := Memory.string 0 (data.drop toNameOffset)
  words := Memory.string 0 (data.drop wordsOffset)

namespace Builder

def create : List UInt8 := List.replicate sizeof 0

def setType (m : List UInt8) (type : MessageType) : List UInt8 :=
  Memory.write m 0 (LittleEndian.halfBytes type.toInt16.toUInt16)

/-- One cell less than the field has is copied, and the last one is set to NUL. -/
def setString (offset width : Nat) (m value : List UInt8) : List UInt8 :=
  let m := Memory.write m offset (Memory.strncpy 0 (width - 1) value)
  Memory.write m (offset + (width - 1)) [0]

def setName (m name : List UInt8) : List UInt8 := setString nameOffset kMaxNameSize m name

def setToName (m name : List UInt8) : List UInt8 := setString toNameOffset kMaxNameSize m name

def setWords (m words : List UInt8) : List UInt8 := setString wordsOffset kMaxWordsSize m words

end Builder

/-- The calls on a builder. -/
inductive Setter where
  | setType (type : MessageType)
  | setName (name : List UInt8)
  | setToName (name : List UInt8)
  | setWords (words : List UInt8)

def Setter.apply (m : List UInt8) : Setter → List UInt8
  | .setType type => Builder.setType m type
  | .setName name => Builder.setName m name
  | .setToName name => Builder.setToName m name
  | .setWords words => Builder.setWords m words

/-- `Finish()` after these calls. -/
def build (setters : List Setter) : List UInt8 := setters.foldl Setter.apply Builder.create

/-- The record that the calls describe. -/
def Setter.record (m : Message) : Setter → Message
  | .setType type => { m with type := type }
  | .setName name => { m with name := name }
  | .setToName name => { m with toName := name }
  | .setWords words => { m with words := words }

def described (setters : List Setter) : Message :=
  setters.foldl Setter.record ⟨.unknown 0, [], [], []⟩

/-- What of a string a field of some width can hold. -/
def cut (width : Nat) (value : List UInt8) : List UInt8 :=
  (Memory.string 0 value).take (width - 1)

/-- What a receiver is to read of a message built from this record. -/
def seen (m : Message) : Message where
  type := .ofInt16 m.type.toInt16
  name := cut kMaxNameSize m.name
  toName := cut kMaxNameSize m.toName
  words := cut kMaxWordsSize m.words

/-- Each string leaves room for a NUL in its field, and has none of its own. -/
def Fits (m : Message) : Prop :=
  (m.name.length < kMaxNameSize ∧ (0 : UInt8) ∉ m.name) ∧
    (m.toName.length < kMaxNameSize ∧ (0 : UInt8) ∉ m.toName) ∧
    m.words.length < kMaxWordsSize ∧ (0 : UInt8) ∉ m.words

def field (width : Nat) (value : List UInt8) : List UInt8 :=
  Memory.strncpy 0 (width - 1) value ++ [0]

def layout (m : Message) : List UInt8 :=
  LittleEndian.halfBytes m.type.toInt16.toUInt16 ++
    (field kMaxNameSize m.name ++ (field kMaxNameSize m.toName ++ field kMaxWordsSize m.words))

theorem length_field {width : Nat} (some : 0 < width) (value : List UInt8) :
    (field width value).length = width := by
  rw [field, List.length_append, Memory.length_strncpy]
  exact Nat.sub_add_cancel some

theorem length_layout (m : Message) : m.layout.length = sizeof := by
  simp only [layout, List.length_append, LittleEndian.length_halfBytes]
  rw [length_field (by decide), length_field (by decide), length_field (by decide)]
  rfl

/-- A field is overwritten as a whole: nothing of an earlier string is left in it. -/
theorem setString_append (before after old new : List UInt8) (width : Nat) :
    Builder.setString before.length width (before ++ (field width old ++ after)) new =
      before ++ (field width new ++ after) := by
  have copied : Memory.write (before ++ (Memory.strncpy 0 (width - 1) old ++ ([0] ++ after)))
      before.length (Memory.strncpy 0 (width - 1) new) =
      before ++ (Memory.strncpy 0 (width - 1) new ++ ([0] ++ after)) :=
    Memory.write_append _ _ _ (by rw [Memory.length_strncpy, Memory.length_strncpy])
  have ended : Memory.write (before ++ Memory.strncpy 0 (width - 1) new ++ ([0] ++ after))
      (before ++ Memory.strncpy 0 (width - 1) new).length [0] =
      before ++ Memory.strncpy 0 (width - 1) new ++ ([0] ++ after) :=
    Memory.write_append _ _ _ rfl
  rw [List.length_append, Memory.length_strncpy, List.append_assoc] at ended
  rw [Builder.setString, field, List.append_assoc, copied, ended, field, List.append_assoc]

/-- A call writes to the memory what it means for the record. -/
theorem apply_layout (m : Message) (setter : Setter) :
    setter.apply m.layout = (setter.record m).layout := by
  have start := LittleEndian.length_halfBytes m.type.toInt16.toUInt16
  cases setter with
  | setType type =>
      exact Memory.write_append [] (LittleEndian.halfBytes type.toInt16.toUInt16) _ start
  | setName name =>
      have moved := setString_append (LittleEndian.halfBytes m.type.toInt16.toUInt16)
        (field kMaxNameSize m.toName ++ field kMaxWordsSize m.words) m.name name kMaxNameSize
      rwa [start] at moved
  | setToName name =>
      have moved := setString_append (LittleEndian.halfBytes m.type.toInt16.toUInt16 ++
        field kMaxNameSize m.name) (field kMaxWordsSize m.words) m.toName name kMaxNameSize
      rw [List.length_append, start, length_field (by decide), List.append_assoc,
        List.append_assoc] at moved
      exact moved
  | setWords words =>
      have moved := setString_append (LittleEndian.halfBytes m.type.toInt16.toUInt16 ++
        (field kMaxNameSize m.name ++ field kMaxNameSize m.toName)) [] m.words words kMaxWordsSize
      rw [List.length_append, List.length_append, start, length_field (by decide),
        length_field (by decide)] at moved
      simp only [List.append_assoc, List.append_nil] at moved
      exact moved

theorem layout_nothing : layout ⟨.unknown 0, [], [], []⟩ = Builder.create := by
  decide +kernel

theorem foldl_layout (m : Message) (setters : List Setter) :
    setters.foldl Setter.apply m.layout = (setters.foldl Setter.record m).layout := by
  induction setters generalizing m with
  | nil => rfl
  | cons setter rest ih =>
      rw [List.foldl_cons, List.foldl_cons, apply_layout]
      exact ih (setter.record m)

theorem build_eq_layout (setters : List Setter) : build setters = (described setters).layout := by
  rw [build, described, ← layout_nothing, foldl_layout]

theorem length_build (setters : List Setter) : (build setters).length = sizeof := by
  rw [build_eq_layout, length_layout]

theorem string_field_append {width : Nat} (value rest : List UInt8) :
    Memory.string 0 (field width value ++ rest) = cut width value := by
  have ended : Memory.string (0 : UInt8) ([0] ++ rest) = [] := rfl
  rw [field, List.append_assoc, Memory.string_strncpy_append, ended, List.append_nil, cut]
  split
  · rename_i short
    exact (List.take_of_length_le (Nat.le_of_lt short)).symm
  · rfl

theorem ofData_layout_append (m : Message) (behind : List UInt8) :
    ofData (m.layout ++ behind) = m.seen := by
  have start : (LittleEndian.halfBytes m.type.toInt16.toUInt16).length = nameOffset :=
    LittleEndian.length_halfBytes _
  have behindName : toNameOffset = nameOffset + kMaxNameSize := rfl
  have behindToName : wordsOffset = toNameOffset + kMaxNameSize := rfl
  have name : (m.layout ++ behind).drop nameOffset = field kMaxNameSize m.name ++
      (field kMaxNameSize m.toName ++ (field kMaxWordsSize m.words ++ behind)) := by
    rw [layout, List.append_assoc, List.drop_left' start]
    simp only [List.append_assoc]
  have toName : (m.layout ++ behind).drop toNameOffset = field kMaxNameSize m.toName ++
      (field kMaxWordsSize m.words ++ behind) := by
    rw [behindName, ← List.drop_drop, name, List.drop_left' (length_field (by decide) _)]
  have words : (m.layout ++ behind).drop wordsOffset = field kMaxWordsSize m.words ++ behind := by
    rw [behindToName, ← List.drop_drop, toName, List.drop_left' (length_field (by decide) _)]
  rw [ofData, name, toName, words, string_field_append, string_field_append,
    string_field_append, layout, List.append_assoc, LittleEndian.half_halfBytes_append]
  simp [seen]

theorem cut_cut (width : Nat) (value : List UInt8) :
    cut width (cut width value) = cut width value := by
  have plain : (0 : UInt8) ∉ cut width value := fun member =>
    Memory.not_mem_string value (List.mem_of_mem_take member)
  rw [cut, Memory.string_of_not_mem plain, cut, List.take_take, Nat.min_self]

theorem cut_eq_self_iff {width : Nat} (some : 0 < width) {value : List UInt8} :
    cut width value = value ↔ value.length < width ∧ (0 : UInt8) ∉ value := by
  constructor
  · intro same
    have whole : Memory.string 0 value = value := by
      refine (List.takeWhile_prefix _).eq_of_length_le ?_
      rw [← congrArg List.length same, cut]
      exact List.length_take_le' _ _
    refine ⟨?_, Memory.string_eq_self_iff.mp whole⟩
    have short := congrArg List.length same
    rw [cut, List.length_take] at short
    omega
  · intro fits
    rw [cut, Memory.string_of_not_mem fits.2]
    exact List.take_of_length_le (Nat.le_sub_one_of_lt fits.1)

theorem seen_iff_fits (m : Message) :
    (m.seen.name = m.name ∧ m.seen.toName = m.toName ∧ m.seen.words = m.words) ↔ m.Fits :=
  and_congr (cut_eq_self_iff (by decide))
    (and_congr (cut_eq_self_iff (by decide)) (cut_eq_self_iff (by decide)))

/-- However often and in whatever order the fields are set, nothing but the last values is
left in the message; whatever lies behind it, each is read as its last value, cut to what the
field can hold; and the strings are read as they were exactly if they fit. -/
theorem ofData_build (setters : List Setter) (behind : List UInt8) :
    (build setters).length = sizeof ∧ build setters = (described setters).layout ∧
      ofData (build setters ++ behind) = (described setters).seen ∧
      (((ofData (build setters ++ behind)).name = (described setters).name ∧
          (ofData (build setters ++ behind)).toName = (described setters).toName ∧
          (ofData (build setters ++ behind)).words = (described setters).words) ↔
        (described setters).Fits) := by
  refine ⟨length_build setters, build_eq_layout setters, ?_⟩
  rw [build_eq_layout, ofData_layout_append]
  exact ⟨rfl, seen_iff_fits _⟩

end Message

end Cpmd.Chat
