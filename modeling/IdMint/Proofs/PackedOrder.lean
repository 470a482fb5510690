import IdMint.PackedId
import IdMint.Proofs.Numerals

/-! # The order of packed identifiers

A packed identifier, whose top bit is zero, is the number that its four fields add up to. So the next
identifier of a generator, be it the next one of the same millisecond or the first one of a later
millisecond, is a greater number with the same location. -/

namespace IdMint

/-- The timestamp field holds 41 bits. -/
theorem IdField.toNat_greatest_timestamp : IdField.timestamp.greatest.toNat = 2 ^ 41 - 1 := rfl

/-- The sequence field holds twelve bits. -/
theorem IdField.toNat_greatest_sequence : IdField.sequence.greatest.toNat = 4095 := rfl

namespace PackedId

/-- The top bit is zero, as in every identifier that is packed from fields. -/
def TopBitClear (id : PackedId) : Prop := id.raw.toNat < 2 ^ 63

theorem topBitClear_pack (t d m s : UInt64) : (pack t d m s).TopBitClear := by
  rw [TopBitClear, toNat_raw_pack]
  omega

/-- An identifier is the number that its fields add up to. -/
theorem TopBitClear.toNat_raw {id : PackedId} (h : id.TopBitClear) :
    id.raw.toNat = id.timestamp.toNat * 2 ^ 22 + id.datacenter.toNat * 2 ^ 17
      + id.machine.toNat * 2 ^ 12 + id.sequence.toNat := by
  rw [TopBitClear] at h
  rw [toNat_timestamp, toNat_datacenter, toNat_machine, toNat_sequence]
  omega

theorem toNat_timestamp_lt (id : PackedId) : id.timestamp.toNat < 2 ^ 41 := by
  rw [toNat_timestamp]
  omega

theorem toNat_datacenter_lt (id : PackedId) : id.datacenter.toNat < 32 := by
  rw [toNat_datacenter]
  omega

theorem toNat_machine_lt (id : PackedId) : id.machine.toNat < 32 := by
  rw [toNat_machine]
  omega

theorem toNat_sequence_lt (id : PackedId) : id.sequence.toNat < 4096 := by
  rw [toNat_sequence]
  omega

/-- An identifier that is packed from numbers that fit their fields shows them. -/
theorem fields_pack {t d m s : UInt64} (ht : t ≤ IdField.timestamp.greatest) (hd : d.toNat < 32)
    (hm : m.toNat < 32) (hs : s.toNat ≤ 4095) :
    (pack t d m s).timestamp = t ∧ (pack t d m s).datacenter = d ∧ (pack t d m s).machine = m
      ∧ (pack t d m s).sequence = s := by
  have hfits : t.toNat ≤ 2 ^ 41 - 1 := UInt64.le_iff_toNat_le.mp ht
  refine ⟨?_, ?_, ?_, ?_⟩
  · rw [← UInt64.toNat_inj, toNat_timestamp_pack]
    omega
  · rw [← UInt64.toNat_inj, toNat_datacenter_pack]
    omega
  · rw [← UInt64.toNat_inj, toNat_machine_pack]
    omega
  · rw [← UInt64.toNat_inj, toNat_sequence_pack]
    omega

/-- The decimal text of an identifier is read back as its number. -/
@[simp] theorem uint64?_text (id : PackedId) : Decimal.uint64? id.text = some id.raw :=
  Decimal.uint64?_toString id.raw

/-- Identifiers of the same decimal text are the same. -/
theorem text_injective : Function.Injective text := by
  intro a b h
  have hraw : some a.raw = some b.raw := by rw [← uint64?_text a, h, uint64?_text]
  cases a
  cases b
  cases hraw
  rfl

/-- `new` may be issued after `old` at the reading `now`: it is a greater number of the same location,
and its timestamp is the reading. -/
structure Succeeds (now : UInt64) (old new : PackedId) : Prop where
  topBitClear : new.TopBitClear
  raw_lt : old.raw < new.raw
  timestamp_eq : new.timestamp = now
  datacenter_eq : new.datacenter = old.datacenter
  machine_eq : new.machine = old.machine

/-- There is room while the sequence number is not the greatest one. -/
theorem hasRoom_iff {id : PackedId} : id.hasRoom = true ↔ id.sequence.toNat < 4095 := by
  simp [hasRoom, UInt64.lt_iff_toNat_lt, IdField.toNat_greatest_sequence]

/-- While there is room, the next identifier of the millisecond may be issued in it. -/
theorem succeeds_increment {id : PackedId} (h : id.TopBitClear) (room : id.hasRoom = true) :
    Succeeds id.timestamp id id.increment := by
  have hsum := h.toNat_raw
  have ht := toNat_timestamp_lt id
  have hd := toNat_datacenter_lt id
  have hm := toNat_machine_lt id
  have hroom : id.sequence.toNat < 4095 := hasRoom_iff.mp room
  -- while there is room the sequence does not run over into the field above it
  have hnext : (id.sequence + 1).toNat = id.sequence.toNat + 1 := by
    rw [UInt64.toNat_add]
    exact Nat.mod_eq_of_lt (by show id.sequence.toNat + 1 < 2 ^ 64; omega)
  refine ⟨topBitClear_pack _ _ _ _, ?_, ?_, ?_, ?_⟩
  · rw [UInt64.lt_iff_toNat_lt, increment, toNat_raw_pack, hnext]
    omega
  · rw [← UInt64.toNat_inj, increment, toNat_timestamp_pack]
    omega
  · rw [← UInt64.toNat_inj, increment, toNat_datacenter_pack]
    omega
  · rw [← UInt64.toNat_inj, increment, toNat_machine_pack]
    omega

/-- The first identifier of a later millisecond that fits its field may be issued in it. -/
theorem succeeds_rollover {id : PackedId} (h : id.TopBitClear) {now : UInt64}
    (later : id.timestamp < now) (fits : now ≤ IdField.timestamp.greatest) :
    Succeeds now id (id.rollover now) := by
  have hsum := h.toNat_raw
  have hd := toNat_datacenter_lt id
  have hm := toNat_machine_lt id
  have hs := toNat_sequence_lt id
  have hlater : id.timestamp.toNat < now.toNat := UInt64.lt_iff_toNat_lt.mp later
  have hfits : now.toNat ≤ 2 ^ 41 - 1 := by
    rw [← IdField.toNat_greatest_timestamp]
    exact UInt64.le_iff_toNat_le.mp fits
  refine ⟨topBitClear_pack _ _ _ _, ?_, ?_, ?_, ?_⟩
  · rw [UInt64.lt_iff_toNat_lt, rollover, toNat_raw_pack]
    omega
  · rw [← UInt64.toNat_inj, rollover, toNat_timestamp_pack]
    omega
  · rw [← UInt64.toNat_inj, rollover, toNat_datacenter_pack]
    omega
  · rw [← UInt64.toNat_inj, rollover, toNat_machine_pack]
    omega

end PackedId

end IdMint
