import Mathlib.Algebra.Group.Nat.Defs

/-! # The order of texts and of their bytes

In UTF-8 a character is one byte or a first byte followed by digits in base 64, the more the greater the
character, and first bytes grow with the number of digits that follow. So texts are ordered by their bytes
as they are ordered by their characters: `Text.bytes_lt_iff`. -/

namespace IdMint.Text

/-- The bytes that a text is kept in. -/
def bytes (text : String) : List UInt8 := text.toByteArray.data.toList

/-- They are the bytes of its characters in UTF-8. -/
theorem bytes_eq_flatMap (text : String) :
    bytes text = text.toList.flatMap String.utf8EncodeChar := by
  rw [bytes, ← String.utf8Encode_toList, List.utf8Encode, List.toList_data_toByteArray]

/-! ## Characters -/

/-- The bytes behind the first one of a character: its last digits in base 64. -/
def lastDigits (code : Nat) : Nat → List UInt8
  | 0 => []
  | places + 1 => UInt8.ofNat (code / 64 ^ places % 64 + 128) :: lastDigits code places

/-- A byte in front decides the order, or what is behind it. -/
theorem ofNat_cons_lt {m n : Nat} (hm : m < 256) (hn : n < 256) {as bs : List UInt8}
    (h : m < n ∨ m = n ∧ as < bs) : UInt8.ofNat m :: as < UInt8.ofNat n :: bs := by
  rw [List.cons_lt_cons_iff, UInt8.lt_iff_toNat_lt, UInt8.toNat_ofNat', UInt8.toNat_ofNat',
    Nat.mod_eq_of_lt hm, Nat.mod_eq_of_lt hn]
  exact h.imp_right fun h => ⟨congrArg UInt8.ofNat h.1, h.2⟩

/-- Numbers of so many digits are ordered by them, whatever follows. -/
theorem lastDigits_append_lt {m n places : Nat} (h : m % 64 ^ places < n % 64 ^ places)
    (as bs : List UInt8) : lastDigits m places ++ as < lastDigits n places ++ bs := by
  induction places with
  | zero => omega
  | succ places ih =>
    rw [Nat.mod_pow_succ, Nat.mod_pow_succ] at h
    refine ofNat_cons_lt (by omega) (by omega) ?_
    rcases Nat.lt_trichotomy (m / 64 ^ places % 64) (n / 64 ^ places % 64) with hlt | heq | hgt
    · exact .inl (Nat.add_lt_add_right hlt 128)
    · rw [heq] at h
      exact .inr ⟨congrArg (· + 128) heq, ih (Nat.lt_of_add_lt_add_right h)⟩
    · -- a greater digit outweighs all digits behind it
      have hdigit := Nat.mul_le_mul_left (64 ^ places) (Nat.succ_le_of_lt hgt)
      have hrest := Nat.mod_lt n (Nat.pow_pos (n := places) (show 0 < 64 by decide))
      rw [Nat.mul_succ] at hdigit
      omega

/-- The first byte of a character, and the number of digits behind it. -/
inductive Leads : Nat → Nat → Nat → Prop
  | one {code : Nat} (h : code ≤ 0x7f) : Leads code code 0
  | two {code : Nat} (hlow : 0x7f < code) (hhigh : code ≤ 0x7ff) : Leads code (code / 64 + 0xc0) 1
  | three {code : Nat} (hlow : 0x7ff < code) (hhigh : code ≤ 0xffff) :
    Leads code (code / 4096 + 0xe0) 2
  | four {code : Nat} (hlow : 0xffff < code) (hhigh : code < 0x110000) :
    Leads code (code / 262144 + 0xf0) 3

theorem toNat_val_lt (c : Char) : c.val.toNat < 0x110000 := by
  have hvalid := c.valid
  simp only [UInt32.isValidChar, Nat.isValidChar] at hvalid
  omega

/-- Every character is its first byte with its last digits behind it. -/
theorem exists_leads (c : Char) :
    ∃ first places, Leads c.val.toNat first places
      ∧ String.utf8EncodeChar c = UInt8.ofNat first :: lastDigits c.val.toNat places := by
  have hcode := toNat_val_lt c
  unfold String.utf8EncodeChar
  generalize c.val.toNat = code at hcode
  dsimp only
  split
  · next h => exact ⟨_, 0, .one h, rfl⟩
  next hone =>
  split
  · next h =>
    refine ⟨_, 1, .two (Nat.not_le.mp hone) h, ?_⟩
    rw [Nat.mod_eq_of_lt (show code / 64 < 0x20 by omega)]
    simp [lastDigits]
  next htwo =>
  split
  · next h =>
    refine ⟨_, 2, .three (Nat.not_le.mp htwo) h, ?_⟩
    rw [Nat.mod_eq_of_lt (show code / 4096 < 0x10 by omega)]
    simp [lastDigits]
  · next hthree =>
    refine ⟨_, 3, .four (Nat.not_le.mp hthree) hcode, ?_⟩
    rw [Nat.mod_eq_of_lt (show code / 262144 < 0x08 by omega)]
    simp [lastDigits]

/-- The first byte grows with the character; where it is the same, so is the number of digits, and these
decide. -/
theorem Leads.order {m n first first' places places' : Nat} (h : Leads m first places)
    (h' : Leads n first' places') (hlt : m < n) :
    first < 256 ∧ first' < 256
      ∧ (first < first' ∨ first = first' ∧ places = places' ∧ m % 64 ^ places < n % 64 ^ places) := by
  cases h <;> cases h' <;> omega

/-- The bytes of a smaller character come first, whatever follows. -/
theorem utf8EncodeChar_append_lt {c d : Char} (h : c < d) (as bs : List UInt8) :
    String.utf8EncodeChar c ++ as < String.utf8EncodeChar d ++ bs := by
  obtain ⟨first, places, hleads, hc⟩ := exists_leads c
  obtain ⟨first', places', hleads', hd⟩ := exists_leads d
  obtain ⟨hfirst, hfirst', horder⟩ := hleads.order hleads' h
  rw [hc, hd, List.cons_append, List.cons_append]
  refine ofNat_cons_lt hfirst hfirst' (horder.imp_right ?_)
  rintro ⟨rfl, rfl, hdigits⟩
  exact ⟨rfl, lastDigits_append_lt hdigits as bs⟩

/-! ## Texts -/

theorem flatMap_utf8EncodeChar_lt {cs ds : List Char} (h : cs < ds) :
    cs.flatMap String.utf8EncodeChar < ds.flatMap String.utf8EncodeChar := by
  induction h with
  | @nil d ds =>
    obtain ⟨first, places, -, hd⟩ := exists_leads d
    rw [List.flatMap_cons, hd]
    exact .nil
  | @rel c cs d ds hlt => exact utf8EncodeChar_append_lt hlt _ _
  | @cons c cs ds _ ih =>
    rw [List.flatMap_cons, List.flatMap_cons]
    exact List.append_left_lt ih

/-- **Texts are ordered by their bytes.** -/
theorem bytes_lt_iff {a b : String} : bytes a < bytes b ↔ a < b := by
  rw [bytes_eq_flatMap, bytes_eq_flatMap]
  constructor
  · intro h
    rcases Std.lt_trichotomy a b with hlt | rfl | hgt
    · exact hlt
    · exact absurd h (List.lt_irrefl _)
    · exact absurd h (List.lt_asymm (flatMap_utf8EncodeChar_lt hgt))
  · exact flatMap_utf8EncodeChar_lt

-- the last character of two bytes and the first of three
example : bytes "\u07ff" = [0xdf, 0xbf] ∧ bytes "\u0800" = [0xe0, 0xa0, 0x80] := by decide

end IdMint.Text
