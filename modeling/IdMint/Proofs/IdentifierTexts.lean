import IdMint.CommandLine.Run
import IdMint.Proofs.LocalHistories
import IdMint.Proofs.TextBytes

/-! # Texts of packed identifiers

Identifiers leave the library as texts. A padded text has twenty digits, enough for every 64-bit number,
so it is the numeral of this width: padded texts are ordered by their bytes as the identifiers are ordered
as numbers, and both texts of an identifier are read back as its number. So the front end reads every
identifier that it shows with its fields. -/

namespace IdMint

namespace Decimal

/-- A number of no more digits than the width is padded to exactly this width. -/
theorem padded_eq_fixed {w n : Nat} (hw : 0 < w) (hn : n < 10 ^ w) : padded w n = fixed w n := by
  have hle : (toString n).length ≤ w := (Nat.length_repr_le_iff hw).mpr hn
  have hlist : (toString n).toList = Nat.toDigits 10 n := Nat.toList_repr
  unfold padded
  dsimp only
  split
  · rfl
  · next hlong =>
    have hlength : (Nat.toDigits 10 n).length = w := by
      rw [← hlist, String.length_toList]
      omega
    refine String.toList_injective ?_
    rw [hlist, toList_fixed, ← hlength, prepend_length_toDigits, List.append_nil]

/-- Numerals of one width are ordered as the numbers that they show. -/
theorem fixed_lt_iff {w a b : Nat} : fixed w a < fixed w b ↔ a % 10 ^ w < b % 10 ^ w := by
  rw [String.lt_iff, toList_fixed, toList_fixed, prepend_lt_iff]
  simp

end Decimal

namespace Text

/-- A digit is kept in the one byte of its number. -/
theorem utf8EncodeChar_of_isDigit {c : Char} (h : c.isDigit = true) :
    String.utf8EncodeChar c = [UInt8.ofNat c.toNat] := by
  have hascii : c.val.toNat ≤ 0x7f := Nat.le_trans (Decimal.bounds_of_isDigit h).2 (by decide)
  unfold String.utf8EncodeChar
  dsimp only
  rw [if_pos hascii]
  rfl

/-- A text of digits is kept in as many bytes, the numbers of the digits. -/
theorem bytes_of_isDigit {text : String} (h : ∀ c ∈ text.toList, c.isDigit = true) :
    bytes text = text.toList.map fun c => UInt8.ofNat c.toNat := by
  rw [bytes_eq_flatMap, ← List.flatMap_pure_eq_map]
  exact List.flatMap_congr fun c hc => utf8EncodeChar_of_isDigit (h c hc)

end Text

namespace PackedId

/-- A padded text is the numeral of twenty digits. -/
theorem paddedText_eq_fixed (id : PackedId) : id.paddedText = Decimal.fixed 20 id.raw.toNat :=
  Decimal.padded_eq_fixed (by decide) (Nat.lt_trans id.raw.toNat_lt (by decide))

theorem isDigit_of_mem_paddedText (id : PackedId) : ∀ c ∈ id.paddedText.toList, c.isDigit = true := by
  rw [paddedText_eq_fixed]
  exact Decimal.isDigit_of_mem_fixed

/-- A padded text is read back as the number. -/
theorem uint64?_paddedText (id : PackedId) : Decimal.uint64? id.paddedText = some id.raw := by
  have hread : Decimal.unsigned? id.paddedText.toList = some id.raw.toNat := by
    rw [Decimal.unsigned?_of_isDigit id.isDigit_of_mem_paddedText]
    exact Decimal.natural?_padded 20 id.raw.toNat
  exact Decimal.uint64?_of_unsigned? hread

/-- The bytes of padded texts are ordered as the identifiers are as numbers. -/
theorem bytes_paddedText_lt_iff {a b : PackedId} :
    Text.bytes a.paddedText < Text.bytes b.paddedText ↔ a.raw < b.raw := by
  have hfits (id : PackedId) : id.raw.toNat % 10 ^ 20 = id.raw.toNat :=
    Nat.mod_eq_of_lt (Nat.lt_trans id.raw.toNat_lt (by decide))
  rw [Text.bytes_lt_iff, paddedText_eq_fixed, paddedText_eq_fixed, Decimal.fixed_lt_iff, hfits, hfits,
    UInt64.lt_iff_toNat_lt]

/-- The byte of an ASCII digit. -/
def IsDigitByte (byte : UInt8) : Prop := 48 ≤ byte ∧ byte ≤ 57

/-- A padded text takes twenty bytes, all of them digits. -/
theorem bytes_paddedText (id : PackedId) :
    (Text.bytes id.paddedText).length = 20 ∧ ∀ byte ∈ Text.bytes id.paddedText, IsDigitByte byte := by
  rw [Text.bytes_of_isDigit id.isDigit_of_mem_paddedText]
  constructor
  · rw [List.length_map, String.length_toList, paddedText_eq_fixed, Decimal.length_fixed]
  · intro byte hbyte
    obtain ⟨c, hc, rfl⟩ := List.mem_map.mp hbyte
    obtain ⟨hlow, hhigh⟩ := Decimal.bounds_of_isDigit (id.isDigit_of_mem_paddedText c hc)
    rw [IsDigitByte, UInt8.le_iff_toNat_le, UInt8.le_iff_toNat_le, UInt8.toNat_ofNat',
      Nat.mod_eq_of_lt (Nat.lt_of_le_of_lt hhigh (by decide))]
    exact ⟨hlow, hhigh⟩

end PackedId

/-! ## Identifiers that are shown -/

namespace WallClock

/-- The epoch of a wall clock is the one that it is made with. -/
theorem epoch_of_ofEpoch {epoch : Duration} {now : UInt64} {wall : WallClock}
    (h : ofEpoch epoch now = .ok wall) : wall.epoch = UInt64.ofNat epoch.millis := by
  unfold ofEpoch at h
  dsimp only at h
  split at h
  · cases h
  · cases h
    rfl

end WallClock

namespace LocalIds

variable {σ : Type} [TimeSource σ]

/-- A facade counts from the epoch of its clock. -/
theorem epoch_of_ofSettings {settings : LocalSettings} {clock : σ}
    {ids : LocalIds} (h : ofSettings settings clock = .ok ids) :
    ids.epoch = TimeSource.epoch clock := by
  unfold ofSettings at h
  cases hl : Location.ofNumbers settings.datacenter settings.machine with
  | error cause =>
    rw [hl] at h
    cases h
  | ok l =>
    rw [hl] at h
    cases h
    rfl

/-- A batch that succeeds consists of the decimal texts of identifiers. -/
theorem exists_of_nextMany {ids : LocalIds} {patience : Nat} {count : UInt64} {r : Registry} {clock : σ}
    {texts : List String} {s : Registry × σ}
    (h : ids.nextMany patience count (r, clock) = some (.ok texts, s)) :
    ∃ issued : List PackedId, texts = issued.map PackedId.text := by
  obtain ⟨ps, hps⟩ := polledFor_nextManyFor h
  exact ⟨_, hps.texts_eq⟩

end LocalIds

namespace CommandLine.Job

/-- The line of an identifier that is shown with the fields that its number holds. -/
def decodedLine (id : PackedId) : String :=
  id.text ++ "\ttimestamp_ms=" ++ toString (IdMint.decode standardEpoch id.raw).timestampMs
    ++ " datacenter_id=" ++ toString id.datacenter ++ " machine_id=" ++ toString id.machine
    ++ " sequence=" ++ toString id.sequence

/-- The text of an identifier is read back where it is shown with its fields. -/
theorem withFields_text {ids : LocalIds} (hepoch : ids.epoch = standardEpoch) (id : PackedId) :
    withFields ids id.text = .ok (decodedLine id) := by
  have hread : Decimal.parseUInt64 id.text = .ok id.raw :=
    Decimal.parseUInt64_eq_ok_iff.mpr id.uint64?_text
  rw [withFields, hread, decodedLine, ← hepoch]
  rfl

/-- The line in which a job shows an identifier. -/
def line (job : Job) (id : PackedId) : String := if job.decode then decodedLine id else id.text

/-- The texts of identifiers are all shown. -/
theorem showIds_texts (job : Job) {ids : LocalIds} (hepoch : ids.epoch = standardEpoch)
    (issued : List PackedId) :
    job.showIds ids (issued.map PackedId.text) = .ok (issued.map job.line) := by
  rw [showIds]
  by_cases hdecode : job.decode = true
  · have hline : job.line = decodedLine := funext fun id => if_pos hdecode
    have hshown : withFields ids ∘ PackedId.text = fun id => pure (decodedLine id) :=
      funext fun id => withFields_text hepoch id
    rw [if_pos hdecode, hline, List.mapM_map, hshown, List.mapM_pure]
    rfl
  · have hline : job.line = PackedId.text := funext fun id => if_neg hdecode
    rw [if_neg hdecode, hline]
    rfl

/-- A job for local identifiers shows identifiers, each as the job says, or fails with an error that is
reported to it: no identifier is unreadable. -/
theorem localIds_cases {job : Job} {s : Surroundings} {result : Except Failure (List String)}
    (h : job.localIds s = some result) :
    (∃ cause, result = .error (.reported cause))
      ∨ ∃ issued : List PackedId, result = .ok (issued.map job.line) := by
  rw [localIds] at h
  cases hwall : WallClock.ofEpoch (.ofMillis standardEpoch.toNat) (systemMillis (s.times 0)) with
  | error cause =>
    rw [hwall] at h
    cases h
    exact .inl ⟨cause, rfl⟩
  | ok wall =>
    simp only [hwall] at h
    split at h
    · next cause _ =>
      cases h
      exact .inl ⟨cause, rfl⟩
    · next ids hids =>
      have hepoch : ids.epoch = standardEpoch :=
        (LocalIds.epoch_of_ofSettings hids).trans (WallClock.epoch_of_ofEpoch hwall)
      obtain ⟨⟨drawn, rest⟩, hdraw, rfl⟩ := Option.map_eq_some_iff.mp h
      cases drawn with
      | error cause => exact .inl ⟨cause, rfl⟩
      | ok texts =>
        obtain ⟨issued, rfl⟩ := LocalIds.exists_of_nextMany hdraw
        exact .inr ⟨issued, job.showIds_texts hepoch issued⟩

end CommandLine.Job

namespace PackedId

/-- What is said of the texts of two identifiers. -/
structure TextsTell (a b : PackedId) : Prop where
  /-- The padded text takes twenty bytes, all of them digits. -/
  padded : (Text.bytes a.paddedText).length = 20 ∧ ∀ byte ∈ Text.bytes a.paddedText, IsDigitByte byte
  /-- Padded texts are ordered by their bytes as the identifiers are as numbers. -/
  lt_iff : Text.bytes a.paddedText < Text.bytes b.paddedText ↔ a.raw < b.raw
  /-- Both texts are read back as the number. -/
  read : Decimal.uint64? a.text = some a.raw ∧ Decimal.uint64? a.paddedText = some a.raw
  /-- Different identifiers have different texts of both kinds. -/
  inj : (a.text = b.text ↔ a.raw = b.raw) ∧ (a.paddedText = b.paddedText ↔ a.raw = b.raw)

/-- Texts that are read back as numbers tell identifiers apart. -/
theorem eq_iff_of_read {shown : PackedId → String}
    (h : ∀ id, Decimal.uint64? (shown id) = some id.raw) {a b : PackedId} :
    shown a = shown b ↔ a.raw = b.raw := by
  constructor
  · intro htext
    have hread := h a
    rw [htext, h b] at hread
    exact (Option.some.inj hread).symm
  · intro hraw
    rw [show a = b from congrArg PackedId.mk hraw]

/-- **Texts tell identifiers.** Whatever two identifiers are, their texts show them and, when padded,
their order; and every line of a job for local identifiers shows an identifier, whose text is read back
where the job shows its fields. So no job fails because an identifier is unreadable. -/
theorem texts_tell_identifiers :
    (∀ a b : PackedId, a.TextsTell b)
      ∧ ∀ (job : CommandLine.Job) (s : CommandLine.Surroundings)
        (result : Except CommandLine.Failure (List String)), job.localIds s = some result →
        (∃ cause, result = .error (.reported cause))
          ∨ ∃ issued : List PackedId, result = .ok (issued.map job.line) := by
  refine ⟨fun a b => ?_, fun job s result h => CommandLine.Job.localIds_cases h⟩
  exact
    { padded := a.bytes_paddedText
      lt_iff := bytes_paddedText_lt_iff
      read := ⟨a.uint64?_text, a.uint64?_paddedText⟩
      inj := ⟨eq_iff_of_read uint64?_text, eq_iff_of_read uint64?_paddedText⟩ }

/-- A job that shows two identifiers of the location 1/2 with their fields. -/
def decodedJob : CommandLine.Job :=
  CommandLine.Job.describe
    { CommandLine.Options.standard with count := 2, datacenter := 1, machine := 2, decode := true }
    .exponentialBackoff

/-- A system clock that stands five milliseconds after the epoch. -/
def standingTimes : CommandLine.Surroundings := ⟨fun _ => none, fun _ => some (.ofMillis 1483200000005), 1⟩

/-- Identifiers at the two ends of the 64-bit numbers, and a job whose lines show fields. -/
theorem texts_tell_identifiers_ends :
    TextsTell ⟨0⟩ ⟨0xffffffffffffffff⟩
      ∧ ∃ lines, decodedJob.localIds standingTimes = some (.ok lines)
        ∧ ∃ issued : List PackedId, lines = issued.map decodedJob.line := by
  have hlines : decodedJob.localIds standingTimes = some (.ok
      ["21110784\ttimestamp_ms=1483200000005 datacenter_id=1 machine_id=2 sequence=0",
        "21110785\ttimestamp_ms=1483200000005 datacenter_id=1 machine_id=2 sequence=1"]) := rfl
  obtain ⟨issued, hissued⟩ := (texts_tell_identifiers.2 _ _ _ hlines).resolve_left nofun
  exact ⟨texts_tell_identifiers.1 _ _, _, hlines, issued, Except.ok.inj hissued⟩

end PackedId

end IdMint
