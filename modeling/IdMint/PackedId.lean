import IdMint.Error

/-! # Packed identifiers

A packed identifier is a 64-bit number of four fields, from the top: one bit that is always zero, 41
bits of timestamp, five bits of datacenter, five bits of machine, and twelve bits of sequence number.
The fields are the digits of the number in a mixed radix, so identifiers are ordered by timestamp
first and by sequence number last. -/

namespace IdMint

/-- The number of values that a field can hold. -/
def IdField.size : IdField → UInt64
  | timestamp => 0x20000000000
  | datacenter => 32
  | machine => 32
  | sequence => 4096

/-- The greatest value that a field can hold. -/
def IdField.greatest (field : IdField) : UInt64 := field.size - 1

/-- What one unit of a field counts for in the identifier. -/
def IdField.weight : IdField → UInt64
  | timestamp => 0x400000
  | datacenter => 0x20000
  | machine => 0x1000
  | sequence => 1

/-- An identifier that packs a timestamp, a location and a sequence number into 64 bits. -/
structure PackedId where
  /-- The number itself. -/
  raw : UInt64
  deriving DecidableEq, Inhabited, Repr

namespace PackedId

/-- The value of a field. -/
def field (id : PackedId) (f : IdField) : UInt64 := id.raw / f.weight % f.size

/-- The milliseconds since the epoch. -/
def timestamp (id : PackedId) : UInt64 := id.field .timestamp

/-- The number of the datacenter. -/
def datacenter (id : PackedId) : UInt64 := id.field .datacenter

/-- The number of the machine within its datacenter. -/
def machine (id : PackedId) : UInt64 := id.field .machine

/-- The number of the identifier within its millisecond. -/
def sequence (id : PackedId) : UInt64 := id.field .sequence

/-- Packs four numbers. Of a number that does not fit its field only the low bits are kept. -/
def pack (timestamp datacenter machine sequence : UInt64) : PackedId :=
  ⟨timestamp % IdField.timestamp.size * IdField.timestamp.weight
    + datacenter % IdField.datacenter.size * IdField.datacenter.weight
    + machine % IdField.machine.size * IdField.machine.weight
    + sequence % IdField.sequence.size⟩

/-- Packing adds up the fields without overflow. -/
theorem toNat_raw_pack (t d m s : UInt64) :
    (pack t d m s).raw.toNat =
      t.toNat % 2 ^ 41 * 2 ^ 22 + d.toNat % 32 * 2 ^ 17 + m.toNat % 32 * 2 ^ 12
        + s.toNat % 4096 := by
  simp [pack, IdField.size, IdField.weight]
  omega

theorem toNat_timestamp (id : PackedId) :
    id.timestamp.toNat = id.raw.toNat / 2 ^ 22 % 2 ^ 41 := by
  simp [timestamp, field, IdField.size, IdField.weight]

theorem toNat_datacenter (id : PackedId) :
    id.datacenter.toNat = id.raw.toNat / 2 ^ 17 % 32 := by
  simp [datacenter, field, IdField.size, IdField.weight]

theorem toNat_machine (id : PackedId) : id.machine.toNat = id.raw.toNat / 2 ^ 12 % 32 := by
  simp [machine, field, IdField.size, IdField.weight]

theorem toNat_sequence (id : PackedId) : id.sequence.toNat = id.raw.toNat % 4096 := by
  simp [sequence, field, IdField.size, IdField.weight]

theorem toNat_timestamp_pack (t d m s : UInt64) :
    (pack t d m s).timestamp.toNat = t.toNat % 2 ^ 41 := by
  rw [toNat_timestamp, toNat_raw_pack]; omega

theorem toNat_datacenter_pack (t d m s : UInt64) :
    (pack t d m s).datacenter.toNat = d.toNat % 32 := by
  rw [toNat_datacenter, toNat_raw_pack]; omega

theorem toNat_machine_pack (t d m s : UInt64) :
    (pack t d m s).machine.toNat = m.toNat % 32 := by
  rw [toNat_machine, toNat_raw_pack]; omega

theorem toNat_sequence_pack (t d m s : UInt64) :
    (pack t d m s).sequence.toNat = s.toNat % 4096 := by
  rw [toNat_sequence, toNat_raw_pack]; omega

/-- Refuses a number that does not fit its field. -/
def checkField (field : IdField) (value : UInt64) : Outcome Unit :=
  if field.greatest < value then .error (.invalidArgument (.fieldTooLarge field value field.greatest))
  else .ok ()

/-- Packs four numbers, and refuses the first one that does not fit its field. -/
def ofFields (timestamp datacenter machine sequence : UInt64) : Outcome PackedId := do
  checkField .timestamp timestamp
  checkField .datacenter datacenter
  checkField .machine machine
  checkField .sequence sequence
  return pack timestamp datacenter machine sequence

/-- Whether another identifier fits the same millisecond. -/
def hasRoom (id : PackedId) : Bool := id.sequence < IdField.sequence.greatest

/-- The identifier with the next sequence number. -/
def increment (id : PackedId) : PackedId :=
  pack id.timestamp id.datacenter id.machine (id.sequence + 1)

/-- The first identifier of the same location in a new millisecond. -/
def rollover (id : PackedId) (timestamp : UInt64) : PackedId :=
  pack timestamp id.datacenter id.machine 0

/-- The identifier in decimal. -/
def text (id : PackedId) : String := toString id.raw

/-- The identifier in decimal with twenty digits, zeros on the left. -/
def paddedText (id : PackedId) : String := Decimal.padded 20 id.raw.toNat

end PackedId

/-! ## Fields with an absolute timestamp -/

/-- The fields of an identifier, with the timestamp counted from the Unix epoch. -/
structure DecodedId where
  /-- The milliseconds since the Unix epoch. -/
  timestampMs : UInt64
  datacenter : UInt64
  machine : UInt64
  sequence : UInt64
  deriving DecidableEq, Inhabited, Repr

/-- Packs an absolute timestamp and three fields. The epoch and the timestamp are both in
milliseconds since the Unix epoch. -/
def encode (epoch timestampMs datacenter machine sequence : UInt64) : Outcome UInt64 :=
  if timestampMs < epoch then .error (.invalidArgument (.beforeEpoch timestampMs epoch))
  else do
    let id ← PackedId.ofFields (timestampMs - epoch) datacenter machine sequence
    return id.raw

/-- The fields of an identifier that counts its timestamp from the given epoch. -/
def decode (epoch raw : UInt64) : DecodedId :=
  let id : PackedId := ⟨raw⟩
  ⟨epoch + id.timestamp, id.datacenter, id.machine, id.sequence⟩

end IdMint
