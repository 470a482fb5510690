import IdMint.Json.Record
import IdMint.Proofs.Numerals

/-! # JSON values read back

What the readers make of the texts and numbers that are written. Every character of a text comes back
from the form in which it is written, escaped or not, and the digits of a number that fits 64 bits add
up to it and end where the record goes on. -/

namespace IdMint.Json

/-! ## Characters -/

/-- A control character is the one that the two digits of its escape denote. -/
theorem hex4?_hexChar : ∀ n, n < 32 → hex4? '0' '0' (hexChar (n / 16)) (hexChar n) = some n := by
  decide

/-- Reading goes on behind a character. -/
def prefixed (c : Char) : Except Fault (List Char × List Char) → Except Fault (List Char × List Char) :=
  Except.map fun (content, rest) => (c :: content, rest)

/-- A backslash and what follows it make one character. -/
theorem readCharsWithin_escape {fuel : Nat} {cs rest : List Char} {c : Char}
    (h : readEscape cs = .ok (c, rest)) :
    readCharsWithin (fuel + 1) ('\\' :: cs) = prefixed c (readCharsWithin fuel rest) := by
  rw [readCharsWithin, if_neg (by decide), if_pos rfl, h]
  show (readCharsWithin fuel rest).bind (fun read => .ok (c :: read.1, read.2)) = _
  cases readCharsWithin fuel rest <;> rfl

/-- A control character without a letter of its own is read back from its escape. -/
theorem readEscape_control {c : Char} (h : c.toNat < 0x20) (rest : List Char) :
    readEscape ('u' :: '0' :: '0' :: hexChar (c.toNat / 16) :: hexChar c.toNat :: rest)
      = .ok (c, rest) := by
  have hhex : readHex ('0' :: '0' :: hexChar (c.toNat / 16) :: hexChar c.toNat :: rest)
      = .ok (c.toNat, rest) := by rw [readHex, hex4?_hexChar _ h]
  have hlow : ¬ (0xDC00 ≤ c.toNat ∧ c.toNat ≤ 0xDFFF) := by omega
  have hhigh : ¬ (0xD800 ≤ c.toNat ∧ c.toNat ≤ 0xDBFF) := by omega
  show (readHex _).bind (fun read =>
    if 0xDC00 ≤ read.1 ∧ read.1 ≤ 0xDFFF then Except.error Fault.malformed
    else if 0xD800 ≤ read.1 ∧ read.1 ≤ 0xDBFF then readSecondHalf read.1 read.2
    else .ok (Char.ofNat read.1, read.2)) = _
  rw [hhex]
  show (if 0xDC00 ≤ c.toNat ∧ c.toNat ≤ 0xDFFF then Except.error Fault.malformed
    else if 0xD800 ≤ c.toNat ∧ c.toNat ≤ 0xDBFF then readSecondHalf c.toNat rest
    else .ok (Char.ofNat c.toNat, rest)) = _
  rw [if_neg hlow, if_neg hhigh, Char.ofNat_toNat]

/-- A character is read back from the form in which it is written. -/
theorem readCharsWithin_writeChar (fuel : Nat) (c : Char) (rest : List Char) :
    readCharsWithin (fuel + 1) (writeChar c ++ rest) = prefixed c (readCharsWithin fuel rest) := by
  unfold writeChar
  -- the characters that have a letter of their own behind the backslash
  iterate 7
    split
    · subst c
      exact readCharsWithin_escape rfl
  split
  · rename_i hcontrol
    exact readCharsWithin_escape (readEscape_control hcontrol rest)
  · rename_i hquote hbackslash _ _ _ _ _ hplain
    rw [List.singleton_append, readCharsWithin, if_neg hquote, if_neg hbackslash, if_neg hplain]
    cases readCharsWithin fuel rest <;> rfl

/-! ## Texts -/

/-- Characters are read back up to the quote behind them. -/
theorem readCharsWithin_write (content rest : List Char) {fuel : Nat} (h : content.length < fuel) :
    readCharsWithin fuel (content.flatMap writeChar ++ '"' :: rest) = .ok (content, rest) := by
  induction content generalizing fuel with
  | nil =>
    obtain ⟨fuel, rfl⟩ := Nat.exists_eq_add_of_le' h
    rfl
  | cons c content ih =>
    obtain ⟨fuel, rfl⟩ := Nat.exists_eq_add_of_le' (Nat.zero_lt_of_lt h)
    rw [List.flatMap_cons, List.append_assoc]
    refine (readCharsWithin_writeChar fuel c _).trans ?_
    rw [ih (Nat.lt_of_succ_lt_succ h)]
    rfl

theorem writeChar_ne_nil (c : Char) : writeChar c ≠ [] := by
  unfold writeChar
  repeat' split
  all_goals exact List.cons_ne_nil _ _

/-- A text takes no fewer characters than it has. -/
theorem length_le_flatMap_writeChar (content : List Char) :
    content.length ≤ (content.flatMap writeChar).length := by
  induction content with
  | nil => exact Nat.le_refl 0
  | cons c content ih =>
    have hchar : 0 < (writeChar c).length := List.length_pos_iff.mpr (writeChar_ne_nil c)
    rw [List.flatMap_cons, List.length_append, List.length_cons]
    omega

/-- A text is read back behind its opening quote. -/
theorem readString_write (s : String) (rest : List Char) :
    readString (s.toList.flatMap writeChar ++ '"' :: rest) = .ok (s, rest) := by
  have hlength := length_le_flatMap_writeChar s.toList
  unfold readString
  rw [readCharsWithin_write s.toList rest (by rw [List.length_append]; omega)]
  show Except.ok (String.ofList s.toList, rest) = _
  rw [String.ofList_toList]

theorem writeString_append (s : String) (rest : List Char) :
    writeString s ++ rest = '"' :: (s.toList.flatMap writeChar ++ '"' :: rest) := by
  simp [writeString]

/-! ## Numbers -/

/-- Digits are appended as long as what they add up to fits 64 bits. -/
theorem appendDigits_eq {cs : List Char} {n : Nat} (h : Nat.ofDigitChars 10 cs n < 2 ^ 64) :
    appendDigits n (cs.map fun c => c.toNat - 48) = (Nat.ofDigitChars 10 cs n, cs.length, 0) := by
  induction cs generalizing n with
  | nil => rfl
  | cons c cs ih =>
    rw [Nat.ofDigitChars_cons] at h ⊢
    have hfits : 10 * n + (c.toNat - 48) < 2 ^ 64 := Nat.lt_of_le_of_lt (Decimal.le_ofDigitChars cs _) h
    have hlater : appendDigits (10 * n + (c.toNat - 48)) (cs.map fun c => c.toNat - 48)
        = (Nat.ofDigitChars 10 cs (10 * n + (c.toNat - 48)), cs.length, 0) := ih h
    rw [List.map_cons, appendDigits, if_pos hfits, hlater]
    rfl

/-- The digit of value zero. -/
theorem eq_zero_of_isDigit {c : Char} (hdigit : c.isDigit = true) (hzero : c.toNat - 48 = 0) :
    c = '0' := by
  have hle : 48 ≤ c.toNat := (Decimal.bounds_of_isDigit hdigit).1
  have hval : c.toNat = '0'.toNat := by
    have hzeroVal : '0'.toNat = 48 := rfl
    omega
  exact Char.toNat_inj.mp hval

/-- A number does not begin with a zero, unless it is zero. -/
theorem toDigits_zero_cons {n : Nat} {cs : List Char} (h : Nat.toDigits 10 n = '0' :: cs) : cs = [] := by
  induction n using Nat.strongRecOn generalizing cs with
  | ind n ih =>
    by_cases hn : n < 10
    · rw [Nat.toDigits_of_lt_base hn] at h
      exact (List.cons.inj h).2.symm
    · exfalso
      have hbase : 10 ≤ n := Nat.not_lt.mp hn
      rw [Nat.toDigits_of_base_le (by decide) hbase] at h
      -- the digits in front are those of a number of their own, and that is not zero
      obtain ⟨c, front, hfront⟩ := List.exists_cons_of_ne_nil
        (Nat.toDigits_ne_nil (n := n / 10) (b := 10))
      rw [hfront, List.cons_append, List.cons.injEq] at h
      obtain ⟨rfl, -⟩ := h
      have hzero := Nat.ofDigitChars_ten_toDigits (n := n / 10)
      rw [hfront, ih (n / 10) (by omega) hfront] at hzero
      have hten : n / 10 = 0 := hzero.symm
      omega

/-- What is left does not go on with a digit. -/
def EndsDigits (rest : List Char) : Prop := ∀ c ∈ rest.head?, c.isDigit = false

/-- What is left does not go on with a value: it is at its end, at white space, at a comma or at the
closing character of a list. -/
def Ends (rest : List Char) : Prop :=
  ∀ c ∈ rest.head?, isSpace c = true ∨ c = ',' ∨ c = ']' ∨ c = '\x7d'

/-- What is left does not go on with a value: it is at its end, at a comma or at a closing brace. -/
def Stops : List Char → Prop
  | [] => True
  | c :: _ => c = ',' ∨ c = '\x7d'

theorem Stops.ends {rest : List Char} (h : Stops rest) : Ends rest := by
  cases rest with
  | nil => nofun
  | cons c rest =>
    rintro _ ⟨⟩
    rcases h with rfl | rfl
    · exact .inr (.inl rfl)
    · exact .inr (.inr (.inr rfl))

theorem isSpace_of_isDigit {c : Char} (h : c.isDigit = true) : isSpace c = false := by
  rw [Bool.eq_false_iff]
  intro hspace
  simp only [isSpace, Bool.or_eq_true, decide_eq_true_eq] at hspace
  rcases hspace with ((rfl | rfl) | rfl) | rfl <;> exact absurd h (by decide)

/-- Where a value ends its digits end, and neither a fraction nor an exponent follows. -/
theorem Ends.head_ne {rest : List Char} (h : Ends rest) :
    ∀ c ∈ rest.head?, c.isDigit = false ∧ c ≠ '.' ∧ isExponentMark c = false := by
  intro c hc
  rcases h c hc with hspace | rfl | rfl | rfl
  · have hdigit : c.isDigit = false := by
      rw [Bool.eq_false_iff]
      intro hdigit
      rw [isSpace_of_isDigit hdigit] at hspace
      cases hspace
    refine ⟨hdigit, ?_, ?_⟩
    · rintro rfl
      exact absurd hspace (by decide)
    · rw [Bool.eq_false_iff]
      intro hmark
      simp only [isExponentMark, Bool.or_eq_true, decide_eq_true_eq] at hmark
      rcases hmark with rfl | rfl <;> exact absurd hspace (by decide)
  all_goals decide

theorem Ends.endsDigits {rest : List Char} (h : Ends rest) : EndsDigits rest :=
  fun c hc => (h.head_ne c hc).1

/-- Digits are taken up to what does not go on with one. -/
theorem digits_append {ds : List Char} (hds : ∀ c ∈ ds, c.isDigit = true) {rest : List Char}
    (hrest : EndsDigits rest) : digits (ds ++ rest) = (ds.map (fun c => c.toNat - 48), rest) := by
  have hstop : rest.takeWhile Char.isDigit = [] ∧ rest.dropWhile Char.isDigit = rest := by
    cases rest with
    | nil => exact ⟨rfl, rfl⟩
    | cons c rest =>
      have hc : ¬ c.isDigit = true := Bool.eq_false_iff.mp (hrest c rfl)
      exact ⟨List.takeWhile_cons_of_neg hc, List.dropWhile_cons_of_neg hc⟩
  rw [digits, List.takeWhile_append_of_pos hds, List.dropWhile_append_of_pos hds, hstop.1, hstop.2,
    List.append_nil]

/-- The digits of a number end where they do not go on. -/
theorem digits_toDigits (n : Nat) {rest : List Char} (hrest : EndsDigits rest) :
    digits (Nat.toDigits 10 n ++ rest) = ((Nat.toDigits 10 n).map (fun c => c.toNat - 48), rest) :=
  digits_append (fun _ hc => Decimal.isDigit_of_mem hc) hrest

/-- Where a number ends, it is the integer of its digits. -/
theorem readAfterInteger_ends {ds : List Nat} {n taken : Nat}
    (hdigits : appendDigits 0 ds = (n, taken, 0)) {rest : List Char} (hrest : Ends rest) :
    readAfterInteger false ds rest = .ok (.natural n, rest) := by
  rw [readAfterInteger, hdigits]
  cases rest with
  | nil => rfl
  | cons c rest =>
    obtain ⟨-, hpoint, hmark⟩ := hrest.head_ne c rfl
    simp [hpoint, hmark]

/-- The digits of a number are some, and no zero stands in front of others. -/
theorem map_toDigits_cases (n : Nat) :
    ∃ d ds, (Nat.toDigits 10 n).map (fun c => c.toNat - 48) = d :: ds ∧ (d = 0 → ds = []) := by
  obtain ⟨c, cs, hcons, -, -⟩ := Decimal.exists_cons_toDigits n
  have hdigit : c.isDigit = true := Decimal.isDigit_of_mem (hcons ▸ List.mem_cons_self)
  refine ⟨c.toNat - 48, cs.map fun c => c.toNat - 48, by rw [hcons]; rfl, fun hzero => ?_⟩
  rw [eq_zero_of_isDigit hdigit hzero] at hcons
  rw [toDigits_zero_cons hcons]
  rfl

/-- Digits of a number are read for themselves: there is one, and no zero stands in front of others. -/
theorem readUnsigned_toDigits (negative : Bool) (n : Nat) {rest : List Char}
    (hrest : EndsDigits rest) :
    readUnsigned negative (Nat.toDigits 10 n ++ rest)
      = readAfterInteger negative ((Nat.toDigits 10 n).map fun c => c.toNat - 48) rest := by
  rw [readUnsigned, digits_toDigits n hrest]
  obtain ⟨d, ds, hds, hzero⟩ := map_toDigits_cases n
  rw [hds]
  cases d with
  | zero =>
    rw [hzero rfl]
    rfl
  | succ d => rfl

/-- Digits without a sign are read as an unsigned number. -/
theorem readNumber_of_isDigit {c : Char} (hc : c.isDigit = true) (cs : List Char) :
    readNumber (c :: cs) = readUnsigned false (c :: cs) := by
  unfold readNumber
  split
  · rename_i heq
    rw [(List.cons.inj heq).1] at hc
    exact absurd hc (by decide)
  · rfl

/-- The digits of a number are read back as the number. -/
theorem readNumber_toDigits {n : Nat} (h : n < 2 ^ 64) {rest : List Char} (hrest : Ends rest) :
    readNumber (Nat.toDigits 10 n ++ rest) = .ok (.natural n, rest) := by
  have hsum : Nat.ofDigitChars 10 (Nat.toDigits 10 n) 0 = n := Nat.ofDigitChars_ten_toDigits
  have hdigits : appendDigits 0 ((Nat.toDigits 10 n).map fun c => c.toNat - 48)
      = (n, (Nat.toDigits 10 n).length, 0) := by
    rw [appendDigits_eq (by rwa [hsum]), hsum]
  have hunsigned : readNumber (Nat.toDigits 10 n ++ rest)
      = readUnsigned false (Nat.toDigits 10 n ++ rest) := by
    obtain ⟨c, cs, hcons, -, -⟩ := Decimal.exists_cons_toDigits n
    rw [hcons, List.cons_append]
    exact readNumber_of_isDigit (Decimal.isDigit_of_mem (hcons ▸ List.mem_cons_self)) _
  rw [hunsigned, readUnsigned_toDigits false n hrest.endsDigits]
  exact readAfterInteger_ends hdigits hrest

/-! ## Codecs -/

/-- Values are read back from the form in which they are written, wherever a value may stand. -/
def Codec.Lawful {α : Type} (codec : Codec α) : Prop :=
  ∀ a {rest}, Stops rest → codec.read (codec.write a ++ rest) = .ok (a, rest)

theorem Codec.lawful_text : Codec.text.Lawful := by
  intro s rest _
  show readText (writeString s ++ rest) = _
  rw [writeString_append]
  exact readString_write s rest

theorem skipSpace_cons {c : Char} {cs : List Char} (h : isSpace c = false) :
    skipSpace (c :: cs) = c :: cs :=
  List.dropWhile_cons_of_neg (Bool.eq_false_iff.mp h)

/-- A number below a bound of at most 64 bits is read back. -/
theorem readBelow_toDigits {n bound : Nat} (h : n < bound) (hbound : bound ≤ 2 ^ 64) {rest : List Char}
    (hrest : Ends rest) : readBelow bound (Nat.toDigits 10 n ++ rest) = .ok (n, rest) := by
  have hread := readNumber_toDigits (Nat.lt_of_lt_of_le h hbound) hrest
  obtain ⟨c, cs, hcons, -, -⟩ := Decimal.exists_cons_toDigits n
  have hdigit : c.isDigit = true := Decimal.isDigit_of_mem (hcons ▸ List.mem_cons_self)
  have hspace : skipSpace (c :: (cs ++ rest)) = c :: (cs ++ rest) :=
    skipSpace_cons (isSpace_of_isDigit hdigit)
  have hbegins : beginsNumber c = true := by rw [beginsNumber, hdigit, Bool.or_true]
  rw [hcons, List.cons_append] at hread ⊢
  unfold readBelow
  rw [hspace]
  dsimp only
  rw [if_pos hbegins, hread]
  exact if_pos h

theorem Codec.lawful_uint64 : Codec.uint64.Lawful := by
  intro n rest hrest
  show (readBelow UInt64.size (Nat.toDigits 10 n.toNat ++ rest)).map _ = _
  rw [readBelow_toDigits n.toNat_lt (Nat.le_refl _) hrest.ends]
  show Except.ok (UInt64.ofNat n.toNat, rest) = _
  rw [UInt64.ofNat_toNat]

theorem Codec.lawful_uint32 : Codec.uint32.Lawful := by
  intro n rest hrest
  show (readBelow UInt32.size (Nat.toDigits 10 n.toNat ++ rest)).map _ = _
  rw [readBelow_toDigits n.toNat_lt (by decide) hrest.ends]
  show Except.ok (UInt32.ofNat n.toNat, rest) = _
  rw [UInt32.ofNat_toNat]

end IdMint.Json
