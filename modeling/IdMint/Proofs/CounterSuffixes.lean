import IdMint.Counter.Reply
import IdMint.Proofs.Numerals

/-! # Counters in a fixed number of digits

The digits of a counter are cut where they are more than the width and padded with zeros where they are
fewer. Both ways lead to the numeral of the remainder by a power of ten, whether the width is below, at or
above the twenty digits that a counter can have: `suffixes_tell_counts`. -/

namespace IdMint

namespace Decimal

/-- **Cutting and padding come to one numeral.** Brought to a width, the digits of a number are its numeral
of this width, whether they are more or fewer. -/
theorem fit?_toDigits (w n : Nat) : Text.fit? '0' w (Nat.toDigits 10 n) = some (prepend w n []) := by
  refine (Text.fit?_of_narrow utf8Size_of_mem_toDigits '0' w).trans ?_
  split
  · next hcut => rw [prepend_of_le_length hcut]
  · next hpad => rw [prepend_of_length_le (Nat.le_of_not_le hpad)]

@[inherit_doc fit?_toDigits]
theorem fitted_eq_fixed (w n : Nat) : fitted w n = fixed w n :=
  congrArg String.ofList (Option.get_of_eq_some _ (fit?_toDigits w n))

end Decimal

namespace Counter

open Decimal

/-- The suffix of a counter is the numeral of its width. -/
theorem suffix_eq_fixed (count : UInt64) (length : Nat) :
    suffix count length = fixed length count.toNat := fitted_eq_fixed length count.toNat

/-- The text consists of so many decimal digits. -/
structure IsNumeral (width : Nat) (text : String) : Prop where
  length_eq : text.length = width
  isDigit : ∀ c ∈ text.toList, c.isDigit = true

/-- What is said of the text that shows a counter in so many digits. -/
structure ShowsCount (count : UInt64) (length : Nat) (text : String) : Prop where
  /-- It is what the counter's numeral is brought to. -/
  fitted : Text.fit? '0' length (toString count).toList = some text.toList
  /-- Where the numeral is long enough, it has the place where it is cut, and the text stands behind. -/
  cut : length ≤ (toString count).utf8ByteSize →
    Text.dropBytes? ((toString count).utf8ByteSize - length) (toString count).toList = some text.toList
  /-- It has just so many digits. -/
  numeral : IsNumeral length text
  /-- It denotes the counter's remainder by the power of ten. -/
  denotes : Denotes text.toList (count.toNat % 10 ^ length : Nat)

/-- In any width of one digit or more, a suffix shows its counter. -/
theorem showsCount_suffix {length : Nat} (hlength : 1 ≤ length) (count : UInt64) :
    ShowsCount count length (suffix count length) := by
  have hlist : (toString count).toList = Nat.toDigits 10 count.toNat := Nat.toList_repr
  have hfit : Text.fit? '0' length (toString count).toList
      = some (fixed length count.toNat).toList := by
    rw [hlist, fit?_toDigits, toList_fixed]
  have hread : natural? (fixed length count.toNat).toList = some (count.toNat % 10 ^ length) :=
    natural?_fixed hlength count.toNat
  obtain ⟨hdigits, hvalue⟩ := natural?_eq_some_iff.mp hread
  rw [suffix_eq_fixed]
  refine ⟨hfit, fun hcut => ?_, ⟨length_fixed _ _, isDigit_of_mem_fixed⟩, ?_⟩
  · rw [← Text.byteSize_toList] at hcut ⊢
    rw [← hfit, Text.fit?, if_pos hcut]
  · rw [hvalue]
    exact .bare hdigits

/-- **Suffixes tell counters.** In any width of one digit or more, every counter has a suffix, of just so
many digits, which denotes the counter's remainder by the power of ten; and two counters have one suffix
exactly where they have one remainder. -/
theorem suffixes_tell_counts {length : Nat} (hlength : 1 ≤ length) :
    (∀ count : UInt64, ShowsCount count length (suffix count length))
      ∧ ∀ a b : UInt64, suffix a length = suffix b length
          ↔ a.toNat % 10 ^ length = b.toNat % 10 ^ length := by
  refine ⟨showsCount_suffix hlength, fun a b => ?_⟩
  rw [suffix_eq_fixed, suffix_eq_fixed, fixed_inj]

/-- The greatest counter has twenty digits. One width cuts the first one of them, and so shows a counter of
nineteen digits too; another one pads all of them. -/
theorem suffixes_tell_counts_greatest :
    (1 ≤ 19 ∧ ShowsCount 18446744073709551615 19 "8446744073709551615"
        ∧ (suffix 18446744073709551615 19 = suffix 8446744073709551615 19
          ↔ 18446744073709551615 % 10 ^ 19 = 8446744073709551615 % 10 ^ 19))
      ∧ 1 ≤ 21 ∧ ShowsCount 18446744073709551615 21 "018446744073709551615" := by
  have hcut := suffixes_tell_counts (show 1 ≤ 19 by decide)
  have hpad := suffixes_tell_counts (show 1 ≤ 21 by decide)
  exact ⟨⟨by decide, hcut.1 18446744073709551615, hcut.2 18446744073709551615 8446744073709551615⟩,
    by decide, hpad.1 18446744073709551615⟩

-- cut, as it is, and padded
example : suffix 12345 4 = "2345" ∧ suffix 1234 4 = "1234" ∧ suffix 7 4 = "0007" := by decide

end Counter

end IdMint
