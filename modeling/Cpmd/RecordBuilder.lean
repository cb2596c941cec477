import Cpmd.Library.Layout
import Cpmd.ProtocolBuilder
import Cpmd.ProtocolMessageStream

/-! Builders of records whose setters are called in any order: what the message holds
then, and what its receiver reads there. -/

set_option autoImplicit false

namespace Cpmd

open Library

/-- A call of a setter, by the macro that defines it: the bytes of a value, or a
string. -/
inductive Setting (Member : Type) where
  | field (member : Member) (cells : List UInt8)
  | stringField (member : Member) (value : List UInt8)
  | lastField (member : Member) (value : List UInt8)

namespace Setting

variable {Member : Type}

def member : Setting Member → Member
  | .field member _ | .stringField member _ | .lastField member _ => member

def cells : Setting Member → List UInt8
  | .field _ cells => cells
  | .stringField _ value | .lastField _ value => Memory.stringCells 0 value

def store (setting : Setting Member) : Layout.Store Member UInt8 := ⟨setting.member, setting.cells⟩

variable (layout : Layout Member)

def apply (message : ProtocolMessage) : Setting Member → ProtocolMessage
  | .field member cells => message.setField (layout.offset member) cells
  | .stringField member value =>
      message.setStringField (layout.offset member) (layout.width member) value
  | .lastField member value => message.setLastField (layout.offset member) value

/-- How far the length has to reach: to the end of the member, or of the last
member's string. -/
def finish : Setting Member → Nat
  | .field member _ | .stringField member _ => layout.finish member
  | .lastField member value => layout.offset member + value.length

/-- The size of the value, the assertions of the setters, and that the last field is
the last. -/
def Fits : Setting Member → Prop
  | .field member cells => cells.length = layout.width member
  | .stringField member value => value.length < layout.width member
  | .lastField member value => value.length < layout.width member ∧
      ∀ other, other ≠ member → layout.finish other ≤ layout.offset member

variable {layout} {setting : Setting Member} {message : ProtocolMessage}

theorem Fits.store (fits : setting.Fits layout) : layout.Fits setting.store := by
  cases setting with
  | field member cells => exact Nat.le_of_eq fits
  | stringField member value =>
      exact Nat.le_of_lt ((Memory.length_stringCells value).trans_lt fits)
  | lastField member value =>
      exact Nat.le_of_lt ((Memory.length_stringCells value).trans_lt fits.1)

theorem Fits.finish_le (fits : setting.Fits layout) :
    setting.finish layout ≤ layout.finish setting.member := by
  cases setting with
  | field member cells => exact Nat.le_refl _
  | stringField member value => exact Nat.le_refl _
  | lastField member value => exact Nat.add_le_add_left (Nat.le_of_lt fits.1) _

theorem data_apply : (setting.apply layout message).data =
    layout.write message.data setting.store := by
  cases setting with
  | field member cells => exact message.data_setField _ _
  | stringField member value => exact ProtocolMessage.data_ensureLength _ _
  | lastField member value => rfl

theorem frame_apply (layout : Layout Member) (setting : Setting Member)
    (message : ProtocolMessage) : (setting.apply layout message).type = message.type ∧
      (setting.apply layout message).padding = message.padding ∧
      (setting.apply layout message).magic = message.magic := by
  cases setting with
  | field member cells => exact ProtocolMessage.frame_ensureLength _ _
  | stringField member value => exact ProtocolMessage.frame_ensureLength _ _
  | lastField member value => exact ⟨rfl, rfl, rfl⟩

/-- The last field's setter assigns the length. It raises it, too, if what the length
covers is before that field. -/
theorem len_apply (fits : setting.Fits layout) (small : layout.finish setting.member < 2 ^ 16)
    (before : ∀ member value, setting = .lastField member value →
      message.len.toNat ≤ layout.offset member) :
    (setting.apply layout message).len.toNat =
      max message.len.toNat (setting.finish layout) := by
  cases setting with
  | field member cells =>
      have whole : layout.offset member + cells.length = layout.finish member := by
        rw [Layout.finish, show cells.length = layout.width member from fits]
      simp only [apply, ProtocolMessage.setField, whole]
      exact ProtocolMessage.len_ensureLength _ small
  | stringField member value => exact ProtocolMessage.len_ensureLength _ small
  | lastField member value =>
      have raised : message.len.toNat ≤ (lastField member value).finish layout :=
        Nat.le_trans (before member value rfl) (Nat.le_add_right _ _)
      have bounded : layout.offset member + value.length < 2 ^ 16 :=
        Nat.lt_of_le_of_lt fits.finish_le small
      rw [Nat.max_eq_right raised]
      exact UInt16.toNat_ofNat_of_lt' bounded

end Setting

/-- What a message is that these settings have made of a cleared one. -/
structure Built {Member : Type} (layout : Layout Member) (messageType : MessageType)
    (settings : List (Setting Member)) (message : ProtocolMessage) : Prop where
  type : message.type = messageType.toInt16
  padding : message.padding = 0
  magic : message.magic = ProtocolMessage.kProtocolMessageMagic
  data : layout.Holds (List.replicate ProtocolMessage.kMaxProtocolDataSize 0)
    (settings.map Setting.store) message.data
  covers : ∀ setting ∈ settings, setting.finish layout ≤ message.len.toNat
  reached : message.len.toNat = 0 ∨
    ∃ setting ∈ settings, message.len.toNat = setting.finish layout

namespace Built

variable {Member : Type} {layout : Layout Member} {messageType : MessageType}
  {settings otherSettings : List (Setting Member)} {setting : Setting Member}
  {message other : ProtocolMessage}

theorem build : Built layout messageType [] (.build messageType) :=
  ⟨rfl, rfl, rfl, Layout.holds_background, by simp, .inl rfl⟩

theorem len_le (built : Built layout messageType settings message)
    (allFit : ∀ earlier ∈ settings, earlier.Fits layout) (fits : setting.Fits layout)
    (fresh : ∀ earlier ∈ settings, earlier.member ≠ setting.member) {member : Member}
    {value : List UInt8} (last : setting = .lastField member value) :
    message.len.toNat ≤ layout.offset member := by
  subst last
  rcases built.reached with nothing | ⟨earlier, listed, reached⟩
  · rw [nothing]
    exact Nat.zero_le _
  · rw [reached]
    exact Nat.le_trans (allFit earlier listed).finish_le (fits.2 _ (fresh earlier listed))

theorem apply (built : Built layout messageType settings message)
    (allFit : ∀ earlier ∈ settings, earlier.Fits layout) (fits : setting.Fits layout)
    (fresh : ∀ earlier ∈ settings, earlier.member ≠ setting.member)
    (small : layout.finish setting.member < ProtocolMessage.kMaxProtocolDataSize) :
    Built layout messageType (settings ++ [setting]) (setting.apply layout message) := by
  obtain ⟨sameType, samePadding, sameMagic⟩ := Setting.frame_apply layout setting message
  have len := Setting.len_apply fits
    (Nat.lt_trans small (by decide : ProtocolMessage.kMaxProtocolDataSize < 2 ^ 16))
    fun _ _ last => built.len_le allFit fits fresh last
  refine ⟨sameType.trans built.type, samePadding.trans built.padding,
    sameMagic.trans built.magic, ?_, ?_, ?_⟩
  · rw [Setting.data_apply, List.map_append]
    refine built.data.write ?_ fits.store ?_ ?_
    · intro store stored
      obtain ⟨earlier, listed, rfl⟩ := List.mem_map.mp stored
      exact (allFit earlier listed).store
    · intro store stored
      obtain ⟨earlier, listed, rfl⟩ := List.mem_map.mp stored
      exact fresh earlier listed
    · rw [List.length_replicate]
      exact Nat.le_of_lt small
  · intro called listed
    rw [len]
    rcases List.mem_append.mp listed with earlier | new
    · exact Nat.le_trans (built.covers called earlier) (Nat.le_max_left _ _)
    · cases List.mem_singleton.mp new
      exact Nat.le_max_right _ _
  · rw [len]
    rcases Nat.le_total message.len.toNat (setting.finish layout) with raised | kept
    · exact .inr ⟨setting, by simp, Nat.max_eq_right raised⟩
    · rw [Nat.max_eq_left kept]
      refine built.reached.imp_right fun reached => ?_
      obtain ⟨earlier, listed, same⟩ := reached
      exact ⟨earlier, List.mem_append_left _ listed, same⟩

theorem foldl (allFit : ∀ setting ∈ settings, setting.Fits layout)
    (distinct : (settings.map Setting.member).Nodup)
    (small : ∀ member, layout.finish member < ProtocolMessage.kMaxProtocolDataSize) :
    Built layout messageType settings
      (settings.foldl (Setting.apply layout) (.build messageType)) := by
  induction settings using List.reverseRecOn with
  | nil => exact build
  | append_singleton settings setting ih =>
      rw [List.map_append, List.nodup_append] at distinct
      obtain ⟨distinctBefore, _, different⟩ := distinct
      have before (earlier : Setting Member) (listed : earlier ∈ settings) :
          earlier.Fits layout := allFit earlier (List.mem_append_left _ listed)
      rw [List.foldl_append]
      refine (ih before distinctBefore).apply before (allFit setting (by simp)) ?_ (small _)
      intro earlier listed
      exact different _ (List.mem_map_of_mem listed) _ (by simp)

theorem unique (built : Built layout messageType settings message)
    (otherBuilt : Built layout messageType otherSettings other)
    (same : ∀ setting, setting ∈ settings ↔ setting ∈ otherSettings) : message = other := by
  have atMost {settings otherSettings : List (Setting Member)} {message other : ProtocolMessage}
      (built : Built layout messageType settings message)
      (otherBuilt : Built layout messageType otherSettings other)
      (listed : ∀ setting ∈ settings, setting ∈ otherSettings) :
      message.len.toNat ≤ other.len.toNat := by
    rcases built.reached with nothing | ⟨setting, member, reached⟩
    · omega
    · rw [reached]
      exact otherBuilt.covers setting (listed setting member)
  have len : message.len = other.len := UInt16.toNat_inj.mp (Nat.le_antisymm
    (atMost built otherBuilt fun setting => (same setting).mp)
    (atMost otherBuilt built fun setting => (same setting).mpr))
  have data : message.data = other.data := by
    refine built.data.unique otherBuilt.data fun store => ?_
    simp only [List.mem_map, same]
  cases message
  cases other
  have type := built.type.trans otherBuilt.type.symm
  have padding := built.padding.trans otherBuilt.padding.symm
  have magic := built.magic.trans otherBuilt.magic.symm
  dsimp only at type padding magic len data
  rw [type, padding, magic, len, data]

theorem len_lt (built : Built layout messageType settings message)
    (allFit : ∀ setting ∈ settings, setting.Fits layout)
    (small : ∀ member, layout.finish member < ProtocolMessage.kMaxProtocolDataSize) :
    message.len.toNat < ProtocolMessage.kMaxProtocolDataSize := by
  rcases built.reached with nothing | ⟨setting, listed, reached⟩
  · rw [nothing]
    decide
  · rw [reached]
    exact Nat.lt_of_le_of_lt (allFit setting listed).finish_le (small _)

theorem length_contents (built : Built layout messageType settings message)
    (short : message.len.toNat < ProtocolMessage.kMaxProtocolDataSize) :
    message.contents.length = message.len.toNat := by
  rw [ProtocolMessage.contents, List.length_take, built.data.length, List.length_replicate]
  exact Nat.min_eq_left (Nat.le_of_lt short)

theorem read_field (built : Built layout messageType settings message)
    (short : message.len.toNat < ProtocolMessage.kMaxProtocolDataSize) {member : Member}
    {cells : List UInt8} (listed : .field member cells ∈ settings)
    (fits : cells.length = layout.width member) (rest : List UInt8) :
    ((message.contents ++ rest).drop (layout.offset member)).take (layout.width member) =
      cells := by
  have covered : layout.finish member ≤ message.len.toNat := built.covers _ listed
  rw [message.read_contents (built.length_contents short) covered, ← fits]
  exact built.data.read_stored (List.mem_map_of_mem listed)

theorem read_unset (built : Built layout messageType settings message)
    (allFit : ∀ setting ∈ settings, setting.Fits layout)
    (short : message.len.toNat < ProtocolMessage.kMaxProtocolDataSize) {member : Member}
    (unset : ∀ setting ∈ settings, setting.member ≠ member)
    (sent : layout.finish member ≤ message.len.toNat) (rest : List UInt8) :
    ((message.contents ++ rest).drop (layout.offset member)).take (layout.width member) =
      List.replicate (layout.width member) 0 := by
  have inside : layout.offset member + layout.width member <
      ProtocolMessage.kMaxProtocolDataSize := Nat.lt_of_le_of_lt sent short
  rw [message.read_contents (built.length_contents short) sent, built.data.read_kept]
  · rw [List.drop_replicate, List.take_replicate]
    congr 1
    omega
  · intro store stored
    obtain ⟨setting, listed, rfl⟩ := List.mem_map.mp stored
    exact (allFit setting listed).store
  · intro store stored
    obtain ⟨setting, listed, rfl⟩ := List.mem_map.mp stored
    exact unset setting listed

end Built

/-- How an integer or an enumeration stands in a record. -/
inductive Scalar where
  | enumeration
  | unsigned
  | signed

namespace Scalar

def width : Scalar → Nat
  | .enumeration => 2
  | .unsigned | .signed => 4

def decode (bytes : List UInt8) : Scalar → Int
  | .enumeration => (LittleEndian.half bytes).toInt16.toInt
  | .unsigned => (LittleEndian.word bytes).toNat
  | .signed => (LittleEndian.word bytes).toInt32.toInt

theorem decode_take (scalar : Scalar) (bytes : List UInt8) :
    scalar.decode (bytes.take scalar.width) = scalar.decode bytes := by
  cases scalar with
  | enumeration => rw [width, decode, LittleEndian.half_take, decode]
  | unsigned => rw [width, decode, LittleEndian.word_take, decode]
  | signed => rw [width, decode, LittleEndian.word_take, decode]

theorem decode_clear (scalar : Scalar) : scalar.decode (List.replicate scalar.width 0) = 0 := by
  cases scalar <;> rfl

end Scalar

/-- A builder of records: its setters, the macro behind each of them, and how the
integers among a record's members are read. -/
structure RecordBuilder (Member Call Record : Type) where
  messageType : MessageType
  layout : Layout Member
  run : ProtocolMessage → Call → ProtocolMessage
  /-- The assertion of a setter of a string. -/
  Asserts : Call → Prop
  setting : Call → Setting Member
  /-- The value given to a setter of an integer or an enumeration. -/
  given : Call → Option Int
  ofData : List UInt8 → Record
  integer : Record → Member → Option Int
  scalar : Member → Option Scalar
  small : ∀ member, layout.finish member < ProtocolMessage.kMaxProtocolDataSize
  run_eq : ∀ message call, run message call = (setting call).apply layout message
  fits : ∀ call, Asserts call → (setting call).Fits layout
  width_scalar : ∀ member kind, scalar member = some kind → layout.width member = kind.width
  field_of_given : ∀ call value, given call = some value → ∃ member kind cells,
    setting call = .field member cells ∧ scalar member = some kind ∧ kind.decode cells = value
  integer_ofData : ∀ data member, integer (ofData data) member =
    (scalar member).map (Scalar.decode (data.drop (layout.offset member)))

namespace RecordBuilder

variable {Member Call Record : Type} (builder : RecordBuilder Member Call Record)

def member (call : Call) : Member := (builder.setting call).member

/-- The calls in turn, on a fresh builder. -/
def build (calls : List Call) : ProtocolMessage :=
  calls.foldl builder.run (.build builder.messageType)

/-- The integers that were set have the values given, and the others are 0 as far as
they were sent. -/
structure Reads (calls : List Call) (len : Nat) (record : Record) : Prop where
  set : ∀ call ∈ calls, ∀ value, builder.given call = some value →
    builder.integer record (builder.member call) = some value
  unset : ∀ member, (∀ call ∈ calls, builder.member call ≠ member) →
    builder.layout.finish member ≤ len → ∀ value, builder.integer record member = some value →
      value = 0

/-- The message of some calls: how long it is, and what a receiver reads of it. -/
structure Delivers (calls : List Call) (message : ProtocolMessage) : Prop where
  covers : ∀ call ∈ calls, (builder.setting call).finish builder.layout ≤ message.len.toNat
  short : message.len.toNat < ProtocolMessage.kMaxProtocolDataSize
  read : ∀ following behind, (message.serialize ++ following).length < 2 ^ 31 →
    ∃ ended received rest,
      ProtocolMessageCodec.OnRead (message.serialize ++ following) behind ended ∧
        ended.last.handed = (0, received) :: rest ∧
        builder.Reads calls message.len.toNat (builder.ofData received.data)

/-- Setters of different members may be called in any order. -/
def Lawful : Prop :=
  ∀ calls otherOrder : List Call, (calls.map builder.member).Nodup →
    (∀ call ∈ calls, builder.Asserts call) → calls.Perm otherOrder →
    builder.build otherOrder = builder.build calls ∧
      builder.Delivers calls (builder.build calls)

variable {builder} {calls : List Call}

theorem settings_fit (asserts : ∀ call ∈ calls, builder.Asserts call) :
    ∀ setting ∈ calls.map builder.setting, setting.Fits builder.layout := by
  intro setting listed
  obtain ⟨call, called, rfl⟩ := List.mem_map.mp listed
  exact builder.fits call (asserts call called)

theorem built (asserts : ∀ call ∈ calls, builder.Asserts call)
    (distinct : (calls.map builder.member).Nodup) :
    Built builder.layout builder.messageType (calls.map builder.setting)
      (builder.build calls) := by
  have sameRun : builder.build calls = (calls.map builder.setting).foldl
      (Setting.apply builder.layout) (.build builder.messageType) := by
    rw [build, List.foldl_map]
    congr 1
    funext message call
    exact builder.run_eq message call
  rw [sameRun]
  refine Built.foldl (settings_fit asserts) ?_ builder.small
  rw [List.map_map]
  exact distinct

theorem integer_of_read (builder : RecordBuilder Member Call Record) {data cells : List UInt8}
    {member : Member} {kind : Scalar}
    (read : (data.drop (builder.layout.offset member)).take (builder.layout.width member) = cells)
    (known : builder.scalar member = some kind) :
    builder.integer (builder.ofData data) member = some (kind.decode cells) := by
  rw [builder.integer_ofData, known, Option.map_some, ← read,
    builder.width_scalar member kind known, kind.decode_take]

theorem reads (asserts : ∀ call ∈ calls, builder.Asserts call)
    (distinct : (calls.map builder.member).Nodup) (rest : List UInt8) :
    builder.Reads calls (builder.build calls).len.toNat
      (builder.ofData ((builder.build calls).contents ++ rest)) := by
  have built := built asserts distinct
  have fits := settings_fit asserts
  have short := built.len_lt fits builder.small
  constructor
  · intro call called value given
    obtain ⟨member, kind, cells, field, known, decoded⟩ := builder.field_of_given call value given
    have listed : .field member cells ∈ calls.map builder.setting :=
      List.mem_map.mpr ⟨call, called, field⟩
    have own : builder.member call = member := by rw [RecordBuilder.member, field, Setting.member]
    rw [own, builder.integer_of_read (built.read_field short listed (fits _ listed) rest) known,
      decoded]
  · intro member unset sent value read
    have unsetHere (setting : Setting Member) (listed : setting ∈ calls.map builder.setting) :
        setting.member ≠ member := by
      obtain ⟨call, called, rfl⟩ := List.mem_map.mp listed
      exact unset call called
    cases known : builder.scalar member with
    | none =>
        rw [builder.integer_ofData, known] at read
        cases read
    | some kind =>
        rw [builder.integer_of_read (built.read_unset fits short unsetHere sent rest) known,
          builder.width_scalar member kind known, kind.decode_clear] at read
        exact (Option.some.inj read).symm

theorem delivers (asserts : ∀ call ∈ calls, builder.Asserts call)
    (distinct : (calls.map builder.member).Nodup) :
    builder.Delivers calls (builder.build calls) := by
  have built := built asserts distinct
  have short := built.len_lt (settings_fit asserts) builder.small
  refine ⟨fun call called => built.covers _ (List.mem_map_of_mem called), short, ?_⟩
  intro following behind bounded
  obtain ⟨ended, read, _⟩ := ProtocolMessageCodec.onRead_inside
    ((builder.build calls).serialize ++ following) behind
  obtain ⟨rest, handed⟩ := ProtocolMessageCodec.onRead_frame built.magic short
    (built.length_contents short) bounded read
  exact ⟨ended, _, rest, read, handed, reads asserts distinct _⟩

theorem lawful (builder : RecordBuilder Member Call Record) : builder.Lawful := by
  intro calls otherOrder distinct asserts order
  have otherAsserts (call : Call) (called : call ∈ otherOrder) : builder.Asserts call :=
    asserts call (order.mem_iff.mpr called)
  have first := built asserts distinct
  have second := built otherAsserts ((order.map builder.member).nodup_iff.mp distinct)
  refine ⟨second.unique first fun setting => ?_, delivers asserts distinct⟩
  simp only [List.mem_map, order.mem_iff]

end RecordBuilder

end Cpmd
