import IdMint.Proofs.PackedOrder
import Mathlib.Data.Prod.Lex

/-! # Encoding and decoding

`encode` counts an absolute timestamp from an epoch and packs it together with three fields; `decode`
takes the identifier apart again. Numbers have to meet five rules to be encoded, and the refusal of
others names the first rule that they break. Between the numbers that meet the rules, in their
lexicographic order, and the identifiers whose top bit is zero and whose timestamp is one of 64 bits,
`encode` and `decode` are inverse to each other and keep the order. -/

namespace IdMint

/-! ## Rules -/

/-- A rule that numbers have to meet to be encoded. -/
inductive EncodingRule
  /-- The timestamp does not lie before the epoch. -/
  | sinceEpoch
  /-- The number for a field fits the field. -/
  | fits (field : IdField)
  deriving DecidableEq

namespace EncodingRule

/-- The rules in the order in which numbers are held against them. -/
def inOrder : List EncodingRule :=
  [.sinceEpoch, .fits .timestamp, .fits .datacenter, .fits .machine, .fits .sequence]

/-- The numbers meet the rule. -/
def Holds (epoch : UInt64) (d : DecodedId) : EncodingRule → Prop
  | sinceEpoch => epoch.toNat ≤ d.timestampMs.toNat
  | fits .timestamp => d.timestampMs.toNat - epoch.toNat < 2 ^ 41
  | fits .datacenter => d.datacenter.toNat < 32
  | fits .machine => d.machine.toNat < 32
  | fits .sequence => d.sequence.toNat < 4096

instance (epoch : UInt64) (d : DecodedId) (rule : EncodingRule) : Decidable (rule.Holds epoch d) :=
  match rule with
  | sinceEpoch => inferInstanceAs (Decidable (_ ≤ _))
  | fits .timestamp | fits .datacenter | fits .machine | fits .sequence =>
    inferInstanceAs (Decidable (_ < _))

/-- The number that is packed into a field. -/
def part (epoch : UInt64) (d : DecodedId) : IdField → UInt64
  | .timestamp => d.timestampMs - epoch
  | .datacenter => d.datacenter
  | .machine => d.machine
  | .sequence => d.sequence

/-- The reason by which numbers are refused that break the rule. -/
def refusal (epoch : UInt64) (d : DecodedId) : EncodingRule → ArgumentFault
  | sinceEpoch => .beforeEpoch d.timestampMs epoch
  | fits field => .fieldTooLarge field (part epoch d field) field.greatest

theorem mem_inOrder (rule : EncodingRule) : rule ∈ inOrder := by
  rcases rule with _ | field
  · decide
  · cases field <;> decide

end EncodingRule

namespace DecodedId

/-- Packs the fields with their timestamp counted from an epoch. -/
def encoded (epoch : UInt64) (d : DecodedId) : Outcome UInt64 :=
  encode epoch d.timestampMs d.datacenter d.machine d.sequence

/-- The fields in their lexicographic order: the timestamp counts most, the sequence number least. -/
def rank (d : DecodedId) : ℕ ×ₗ ℕ ×ₗ ℕ ×ₗ ℕ :=
  toLex (d.timestampMs.toNat, toLex (d.datacenter.toNat, toLex (d.machine.toNat, d.sequence.toNat)))

theorem rank_lt_iff {d e : DecodedId} :
    d.rank < e.rank ↔ d.timestampMs.toNat < e.timestampMs.toNat
      ∨ d.timestampMs.toNat = e.timestampMs.toNat
        ∧ (d.datacenter.toNat < e.datacenter.toNat
          ∨ d.datacenter.toNat = e.datacenter.toNat
            ∧ (d.machine.toNat < e.machine.toNat
              ∨ d.machine.toNat = e.machine.toNat ∧ d.sequence.toNat < e.sequence.toNat)) := by
  simp only [rank, Prod.Lex.toLex_lt_toLex]

end DecodedId

open EncodingRule DecodedId

variable {epoch : UInt64}

/-- From the epoch on, timestamps are counted without wraparound. -/
theorem EncodingRule.toNat_timestamp_sub {d : DecodedId} (h : sinceEpoch.Holds epoch d) :
    (d.timestampMs - epoch).toNat = d.timestampMs.toNat - epoch.toNat :=
  UInt64.toNat_sub_of_le _ _ (UInt64.le_iff_toNat_le.mpr h)

/-- The number for a field is refused exactly if it breaks the rule for the field. -/
theorem EncodingRule.checkField_part {d : DecodedId} (h : sinceEpoch.Holds epoch d)
    (field : IdField) :
    PackedId.checkField field (part epoch d field)
      = if (fits field).Holds epoch d then .ok ()
        else .error (.invalidArgument ((fits field).refusal epoch d)) := by
  have hfits : field.greatest < part epoch d field ↔ ¬ (fits field).Holds epoch d := by
    rw [UInt64.lt_iff_toNat_lt]
    -- the greatest number of a field is one below the bound of its rule
    cases field with
    | timestamp =>
      rw [part, toNat_timestamp_sub h, IdField.toNat_greatest_timestamp, Holds]
      omega
    | datacenter =>
      show (31 : Nat) < d.datacenter.toNat ↔ ¬ d.datacenter.toNat < 32
      omega
    | machine =>
      show (31 : Nat) < d.machine.toNat ↔ ¬ d.machine.toNat < 32
      omega
    | sequence =>
      show (4095 : Nat) < d.sequence.toNat ↔ ¬ d.sequence.toNat < 4096
      omega
  rw [PackedId.checkField]
  by_cases hholds : (fits field).Holds epoch d
  · rw [if_neg (fun hlt => hfits.mp hlt hholds), if_pos hholds]
  · rw [if_pos (hfits.mpr hholds), if_neg hholds, refusal]

/-- What stands behind a check is reached only if the check is passed. -/
theorem Outcome.check_bind {α : Type} (p : Prop) [Decidable p] (cause : Error) (rest : Outcome α) :
    ((if p then .ok () else .error cause : Outcome Unit) >>= fun _ => rest)
      = if p then rest else .error cause := by
  by_cases hp : p
  · rw [if_pos hp, if_pos hp]
    rfl
  · rw [if_neg hp, if_neg hp]
    rfl

/-- Numbers that meet all rules are packed, and others are refused by the first rule that they break. -/
theorem DecodedId.encoded_eq (epoch : UInt64) (d : DecodedId) :
    d.encoded epoch =
      match inOrder.find? (fun rule => !decide (rule.Holds epoch d)) with
      | none => .ok (PackedId.pack (d.timestampMs - epoch) d.datacenter d.machine d.sequence).raw
      | some rule => .error (.invalidArgument (rule.refusal epoch d)) := by
  rw [encoded, encode]
  by_cases hsince : sinceEpoch.Holds epoch d
  · have hlate : ¬ d.timestampMs < epoch := by
      rw [UInt64.lt_iff_toNat_lt]
      exact Nat.not_lt.mpr hsince
    have hcheck := checkField_part hsince
    have htimestamp := hcheck .timestamp
    have hdatacenter := hcheck .datacenter
    have hmachine := hcheck .machine
    have hsequence := hcheck .sequence
    simp only [part] at htimestamp hdatacenter hmachine hsequence
    rw [if_neg hlate]
    simp only [PackedId.ofFields, htimestamp, hdatacenter, hmachine, hsequence, Outcome.check_bind,
      inOrder, List.find?_cons, List.find?_nil, hsince]
    -- the rules for the fields, in order, up to the first that is broken
    by_cases h₁ : (fits .timestamp).Holds epoch d
    · by_cases h₂ : (fits .datacenter).Holds epoch d
      · by_cases h₃ : (fits .machine).Holds epoch d
        · by_cases h₄ : (fits .sequence).Holds epoch d
          · simp only [h₁, h₂, h₃, h₄, if_true, decide_true, Bool.not_true]
            rfl
          · simp [h₁, h₂, h₃, h₄]
        · simp [h₁, h₂, h₃]
      · simp [h₁, h₂]
    · simp [h₁]
  · have hearly : d.timestampMs < epoch := by
      rw [UInt64.lt_iff_toNat_lt]
      exact Nat.lt_of_not_le hsince
    rw [if_pos hearly]
    simp [inOrder, hsince, refusal]

/-! ## Encoding and decoding -/

/-- Numbers that meet all rules. -/
structure Encodable (epoch : UInt64) (d : DecodedId) : Prop where
  since : epoch.toNat ≤ d.timestampMs.toNat
  timestamp : d.timestampMs.toNat - epoch.toNat < 2 ^ 41
  datacenter : d.datacenter.toNat < 32
  machine : d.machine.toNat < 32
  sequence : d.sequence.toNat < 4096

theorem encodable_iff {d : DecodedId} :
    Encodable epoch d ↔ ∀ rule : EncodingRule, rule.Holds epoch d := by
  constructor
  · rintro ⟨hsince, htimestamp, hdatacenter, hmachine, hsequence⟩ rule
    rcases rule with _ | field
    · exact hsince
    · cases field with
      | timestamp => exact htimestamp
      | datacenter => exact hdatacenter
      | machine => exact hmachine
      | sequence => exact hsequence
  · intro h
    exact ⟨h sinceEpoch, h (fits .timestamp), h (fits .datacenter), h (fits .machine),
      h (fits .sequence)⟩

/-- Numbers are encoded exactly if they meet all rules, and then into what they are packed into. -/
theorem DecodedId.encoded_eq_ok_iff {d : DecodedId} {raw : UInt64} :
    d.encoded epoch = .ok raw ↔ Encodable epoch d
      ∧ (PackedId.pack (d.timestampMs - epoch) d.datacenter d.machine d.sequence).raw = raw := by
  rw [encoded_eq, encodable_iff]
  cases hfind : inOrder.find? fun rule => !decide (rule.Holds epoch d) with
  | none =>
    have hall (rule : EncodingRule) : rule.Holds epoch d := by
      simpa using List.find?_eq_none.mp hfind rule rule.mem_inOrder
    rw [Except.ok.injEq]
    exact (and_iff_right hall).symm
  | some broken =>
    have hbroken : ¬ broken.Holds epoch d := by simpa using List.find?_some hfind
    constructor
    · intro h
      cases h
    · rintro ⟨hall, -⟩
      exact absurd (hall broken) hbroken

/-- Numbers that break a rule are refused by it if they meet all rules before it. -/
theorem DecodedId.encoded_of_broken {d : DecodedId} {before after : List EncodingRule}
    {rule : EncodingRule} (horder : inOrder = before ++ rule :: after)
    (hbefore : ∀ earlier ∈ before, earlier.Holds epoch d) (hbroken : ¬ rule.Holds epoch d) :
    d.encoded epoch = .error (.invalidArgument (rule.refusal epoch d)) := by
  have hfind : inOrder.find? (fun rule => !decide (rule.Holds epoch d)) = some rule := by
    refine List.find?_eq_some_iff_append.mpr ⟨by simpa using hbroken, before, after, horder, ?_⟩
    intro earlier hearlier
    simpa using hbefore earlier hearlier
  rw [encoded_eq, hfind]

/-- An identifier is the number that the fields add up to, with the timestamp counted from the epoch. -/
theorem DecodedId.toNat_of_encoded {d : DecodedId} {raw : UInt64} (h : d.encoded epoch = .ok raw) :
    raw.toNat = (d.timestampMs.toNat - epoch.toNat) * 2 ^ 22 + d.datacenter.toNat * 2 ^ 17
      + d.machine.toNat * 2 ^ 12 + d.sequence.toNat := by
  obtain ⟨hmeets, rfl⟩ := encoded_eq_ok_iff.mp h
  rw [PackedId.toNat_raw_pack, toNat_timestamp_sub hmeets.since, Nat.mod_eq_of_lt hmeets.timestamp,
    Nat.mod_eq_of_lt hmeets.datacenter, Nat.mod_eq_of_lt hmeets.machine,
    Nat.mod_eq_of_lt hmeets.sequence]

/-- Different numbers are encoded into different identifiers. -/
theorem DecodedId.eq_of_encoded {d e : DecodedId} {raw : UInt64} (hd : d.encoded epoch = .ok raw)
    (he : e.encoded epoch = .ok raw) : d = e := by
  obtain ⟨hsince, -, hdatacenter, hmachine, hsequence⟩ := (encoded_eq_ok_iff.mp hd).1
  obtain ⟨hsince', -, hdatacenter', hmachine', hsequence'⟩ := (encoded_eq_ok_iff.mp he).1
  have hsum := (toNat_of_encoded hd).symm.trans (toNat_of_encoded he)
  cases d
  cases e
  simp only [DecodedId.mk.injEq, ← UInt64.toNat_inj]
  dsimp only at *
  -- within their bounds the fields do not overlap in the sum
  omega

/-- Between numbers that are encoded, the lexicographic order is the order of the identifiers. -/
theorem DecodedId.lt_iff_of_encoded {d e : DecodedId} {x y : UInt64} (hx : d.encoded epoch = .ok x)
    (hy : e.encoded epoch = .ok y) : x < y ↔ d.rank < e.rank := by
  have hd := (encoded_eq_ok_iff.mp hx).1
  have he := (encoded_eq_ok_iff.mp hy).1
  have hdatacenter := And.intro hd.datacenter he.datacenter
  have hmachine := And.intro hd.machine he.machine
  have hsequence := And.intro hd.sequence he.sequence
  have hsince := And.intro hd.since he.since
  rw [UInt64.lt_iff_toNat_lt, toNat_of_encoded hx, toNat_of_encoded hy, rank_lt_iff]
  -- one unit of a field outweighs all that the fields below it can hold
  omega

/-- An identifier that decoding from the epoch makes sense of: its top bit is zero, and the epoch and
its timestamp add up to a number of 64 bits. -/
structure Decodable (epoch raw : UInt64) : Prop where
  topBitClear : raw.toNat < 2 ^ 63
  inRange : epoch.toNat + (raw >>> 22).toNat < 2 ^ 64

theorem Decodable.toNat_shift (raw : UInt64) : (raw >>> 22).toNat = raw.toNat / 2 ^ 22 := by
  simp [UInt64.toNat_shiftRight, Nat.shiftRight_eq_div_pow]

/-- What numbers are encoded into can be decoded. -/
theorem DecodedId.decodable_of_encoded {d : DecodedId} {raw : UInt64} (h : d.encoded epoch = .ok raw) :
    Decodable epoch raw := by
  obtain ⟨hsince, htimestamp, hdatacenter, hmachine, hsequence⟩ := (encoded_eq_ok_iff.mp h).1
  have hraw := toNat_of_encoded h
  have hword := d.timestampMs.toNat_lt
  refine ⟨by omega, ?_⟩
  rw [Decodable.toNat_shift]
  -- what is shifted down is the difference that was packed, and with the epoch it makes the timestamp
  omega

/-- The timestamp that an identifier is decoded into is counted without wraparound. -/
theorem Decodable.toNat_timestampMs {raw : UInt64} (h : Decodable epoch raw) :
    (decode epoch raw).timestampMs.toNat = epoch.toNat + (PackedId.mk raw).timestamp.toNat := by
  have hraw := h.topBitClear
  have hrange := h.inRange
  rw [toNat_shift] at hrange
  have htimestamp : (PackedId.mk raw).timestamp.toNat = raw.toNat / 2 ^ 22 % 2 ^ 41 :=
    PackedId.toNat_timestamp ⟨raw⟩
  show (epoch + (PackedId.mk raw).timestamp).toNat = _
  rw [UInt64.toNat_add]
  exact Nat.mod_eq_of_lt (by omega)

/-- The fields of an identifier are encoded into it again. -/
theorem Decodable.encoded_decode {raw : UInt64} (h : Decodable epoch raw) :
    (decode epoch raw).encoded epoch = .ok raw := by
  have htimestampMs := h.toNat_timestampMs
  have hmeets : Encodable epoch (decode epoch raw) := by
    refine ⟨by omega, ?_, PackedId.toNat_datacenter_lt _, PackedId.toNat_machine_lt _,
      PackedId.toNat_sequence_lt _⟩
    have hlt := PackedId.toNat_timestamp_lt ⟨raw⟩
    omega
  refine encoded_eq_ok_iff.mpr ⟨hmeets, ?_⟩
  have hclear : (PackedId.mk raw).TopBitClear := h.topBitClear
  have hsum : raw.toNat = _ := hclear.toNat_raw
  have hrelative : ((decode epoch raw).timestampMs - epoch).toNat
      = (PackedId.mk raw).timestamp.toNat := by
    rw [UInt64.toNat_sub_of_le _ _ (UInt64.le_iff_toNat_le.mpr (by omega)), htimestampMs,
      Nat.add_sub_cancel_left]
  rw [← UInt64.toNat_inj, PackedId.toNat_raw_pack, hrelative, hsum,
    Nat.mod_eq_of_lt (PackedId.toNat_timestamp_lt _), Nat.mod_eq_of_lt hmeets.datacenter,
    Nat.mod_eq_of_lt hmeets.machine, Nat.mod_eq_of_lt hmeets.sequence]
  rfl

/-- The fields of what numbers are encoded into are these numbers. -/
theorem DecodedId.decode_of_encoded {d : DecodedId} {raw : UInt64} (h : d.encoded epoch = .ok raw) :
    decode epoch raw = d :=
  eq_of_encoded (decodable_of_encoded h).encoded_decode h

/-! ## The correspondence -/

/-- What is said of encoding and decoding with an epoch. -/
structure EncodesInOrder (epoch : UInt64) : Prop where
  /-- Numbers are encoded exactly if they meet all rules. -/
  accepts : ∀ d : DecodedId, (∃ raw, d.encoded epoch = .ok raw) ↔ Encodable epoch d
  /-- Other numbers are refused by the first rule that they break. -/
  refuses : ∀ (d : DecodedId) (before after : List EncodingRule) (rule : EncodingRule),
    inOrder = before ++ rule :: after → (∀ earlier ∈ before, earlier.Holds epoch d) →
    ¬ rule.Holds epoch d → d.encoded epoch = .error (.invalidArgument (rule.refusal epoch d))
  /-- What numbers are encoded into can be decoded, and into the same numbers. -/
  decodes : ∀ (d : DecodedId) (raw : UInt64), d.encoded epoch = .ok raw →
    Decodable epoch raw ∧ decode epoch raw = d
  /-- What can be decoded is encoded again. -/
  encodes : ∀ raw : UInt64, Decodable epoch raw → (decode epoch raw).encoded epoch = .ok raw
  /-- The order of the identifiers is the lexicographic order of the numbers. -/
  ordered : ∀ (d e : DecodedId) (x y : UInt64), d.encoded epoch = .ok x → e.encoded epoch = .ok y →
    (x < y ↔ d.rank < e.rank)

/-- **Encoding and decoding are inverse to each other and keep the order.** -/
theorem encodesInOrder (epoch : UInt64) : EncodesInOrder epoch where
  accepts d := by
    constructor
    · rintro ⟨raw, h⟩
      exact (DecodedId.encoded_eq_ok_iff.mp h).1
    · intro hmeets
      exact ⟨_, DecodedId.encoded_eq_ok_iff.mpr ⟨hmeets, rfl⟩⟩
  refuses _ _ _ _ := DecodedId.encoded_of_broken
  decodes _ _ h := ⟨DecodedId.decodable_of_encoded h, DecodedId.decode_of_encoded h⟩
  encodes _ h := h.encoded_decode
  ordered _ _ _ _ := DecodedId.lt_iff_of_encoded

/-- The latest epoch from which the timestamp field does not lead out of 64 bits. -/
def latestEpoch : UInt64 := 0xFFFFFE0000000000

/-- From the latest epoch the greatest numbers are encoded into the greatest identifier and back, and of
three numbers that are too large the first one is named. -/
theorem encodesInOrder_latestEpoch :
    (⟨0xFFFFFFFFFFFFFFFF, 31, 31, 4095⟩ : DecodedId).encoded latestEpoch = .ok 0x7FFFFFFFFFFFFFFF
      ∧ Decodable latestEpoch 0x7FFFFFFFFFFFFFFF
      ∧ decode latestEpoch 0x7FFFFFFFFFFFFFFF = ⟨0xFFFFFFFFFFFFFFFF, 31, 31, 4095⟩
      ∧ (⟨0xFFFFFFFFFFFFFFFF, 32, 99, 4096⟩ : DecodedId).encoded latestEpoch
        = .error (.invalidArgument (.fieldTooLarge .datacenter 32 31)) := by
  have hgreatest : (⟨0xFFFFFFFFFFFFFFFF, 31, 31, 4095⟩ : DecodedId).encoded latestEpoch
      = .ok 0x7FFFFFFFFFFFFFFF := by decide
  have h := encodesInOrder latestEpoch
  refine ⟨hgreatest, (h.decodes _ _ hgreatest).1, (h.decodes _ _ hgreatest).2, ?_⟩
  exact h.refuses ⟨0xFFFFFFFFFFFFFFFF, 32, 99, 4096⟩ [sinceEpoch, fits .timestamp]
    [fits .machine, fits .sequence] (fits .datacenter) rfl (by decide) (by decide)

end IdMint
