import IdMint.Text.Decimal

/-! # Numerals read back

What the readers of decimal numerals make of the numerals that are written: the decimal text of a
number is read back as that number, with and without a sign, and so is a padded one. A reader takes no
other texts than numerals, of which `Denotes` is the grammar. Fixed-width numerals are ordered as texts
as the numbers that they show, also with other texts behind them, and agree only where these agree. They
are made of the number's own digits, of the last ones or of all behind zeros. -/

namespace IdMint.Decimal

/-! ## Numerals of any width -/

/-- A decimal digit stands for its distance from zero. -/
theorem digit?_of_isDigit {c : Char} (h : c.isDigit = true) :
    digit? c = some (c.toNat - '0'.toNat) := if_pos h

/-- Reading digits behind the number read so far adds them up. -/
theorem foldlM_digit? {cs : List Char} (hd : ∀ c ∈ cs, c.isDigit = true) (n : Nat) :
    cs.foldlM (fun n d => (digit? d).map (10 * n + ·)) n = some (Nat.ofDigitChars 10 cs n) := by
  induction cs generalizing n with
  | nil => rfl
  | cons c cs ih =>
    rw [List.foldlM_cons, digit?_of_isDigit (hd c List.mem_cons_self), Nat.ofDigitChars_cons]
    exact ih (fun d hmem => hd d (List.mem_cons_of_mem c hmem)) _

/-- A nonempty run of digits denotes the number that its digits add up to. -/
theorem natural?_eq_ofDigitChars {cs : List Char} (hne : cs ≠ [])
    (hd : ∀ c ∈ cs, c.isDigit = true) : natural? cs = some (Nat.ofDigitChars 10 cs 0) := by
  cases cs with
  | nil => exact absurd rfl hne
  | cons c cs => exact foldlM_digit? hd 0

theorem isDigit_of_mem {n : Nat} {c : Char} (h : c ∈ Nat.toDigits 10 n) : c.isDigit = true :=
  Nat.isDigit_of_mem_toDigits (by decide) (by decide) h

/-- The digits of a number denote it. -/
@[simp] theorem natural?_toDigits (n : Nat) : natural? (Nat.toDigits 10 n) = some n := by
  rw [natural?_eq_ofDigitChars Nat.toDigits_ne_nil fun c hc => isDigit_of_mem hc,
    Nat.ofDigitChars_ten_toDigits]

/-- The digits of a number begin with a digit, so with no sign. -/
theorem exists_cons_toDigits (n : Nat) :
    ∃ c cs, Nat.toDigits 10 n = c :: cs ∧ c ≠ '+' ∧ c ≠ '-' := by
  obtain ⟨c, cs, h⟩ := List.exists_cons_of_ne_nil (Nat.toDigits_ne_nil (n := n) (b := 10))
  have hc : c.isDigit = true := isDigit_of_mem (h ▸ List.mem_cons_self)
  refine ⟨c, cs, h, ?_, ?_⟩ <;> rintro rfl <;> exact absurd hc (by decide)

/-- Digits without a sign are read as the number that they denote. -/
theorem unsigned?_of_isDigit {cs : List Char} (hd : ∀ c ∈ cs, c.isDigit = true) :
    unsigned? cs = natural? cs := by
  unfold unsigned?
  split
  · exact absurd (hd '+' List.mem_cons_self) (by decide)
  · rfl

/-- Digits behind a minus sign are read as the opposite of the number that they denote. -/
theorem signed?_minus (cs : List Char) :
    signed? ('-' :: cs) = (natural? cs).map fun n : Nat => -Int.ofNat n := by
  rw [signed?]
  cases natural? cs <;> rfl

/-- Digits behind a plus sign are read as the number that they denote. -/
theorem signed?_plus (cs : List Char) : signed? ('+' :: cs) = (natural? cs).map Int.ofNat := by
  rw [signed?]
  cases natural? cs <;> rfl

/-- Characters without a sign in front are read as the number that they denote. -/
theorem signed?_bare {c : Char} (hminus : c ≠ '-') (hplus : c ≠ '+') (cs : List Char) :
    signed? (c :: cs) = (natural? (c :: cs)).map Int.ofNat := by
  unfold signed?
  split
  · next heq => exact absurd (List.cons.inj heq).1 hminus
  · next heq => exact absurd (List.cons.inj heq).1 hplus
  · cases natural? (c :: cs) <;> rfl

@[inherit_doc unsigned?_of_isDigit]
theorem signed?_of_isDigit {cs : List Char} (hd : ∀ c ∈ cs, c.isDigit = true) :
    signed? cs = (natural? cs).map Int.ofNat := by
  cases cs with
  | nil => rfl
  | cons c cs =>
    have hc : c.isDigit = true := hd c List.mem_cons_self
    -- no sign is a digit
    refine signed?_bare ?_ ?_ cs <;> rintro rfl <;> exact absurd hc (by decide)

theorem unsigned?_toDigits (n : Nat) : unsigned? (Nat.toDigits 10 n) = some n := by
  rw [unsigned?_of_isDigit fun c hc => isDigit_of_mem hc, natural?_toDigits]

theorem signed?_toDigits (n : Nat) : signed? (Nat.toDigits 10 n) = some (n : Int) := by
  rw [signed?_of_isDigit fun c hc => isDigit_of_mem hc, natural?_toDigits]
  rfl

/-- The decimal text of an integer is read back as the integer. -/
theorem signed?_toString (n : Int) : signed? (toString n).toList = some n := by
  cases n with
  | ofNat n =>
    have hlist : (toString (Int.ofNat n)).toList = Nat.toDigits 10 n := Nat.toList_repr
    rw [hlist, signed?_toDigits]
    rfl
  | negSucc n =>
    have hlist : (toString (Int.negSucc n)).toList = '-' :: Nat.toDigits 10 (n + 1) := by
      show ("-" ++ Nat.repr (n + 1)).toList = _
      rw [String.toList_append, Nat.toList_repr]
      rfl
    rw [hlist, signed?_minus, natural?_toDigits]
    rfl

/-- Different integers have different decimal texts. -/
theorem eq_of_toString_eq {m n : Int} (h : toString m = toString n) : m = n := by
  have hread : signed? (toString m).toList = signed? (toString n).toList := by rw [h]
  rw [signed?_toString, signed?_toString] at hread
  exact Option.some.inj hread

/-- A text that is read as the value of a 64-bit number is read as this number. -/
theorem uint64?_of_unsigned? {text : String} {n : UInt64} (h : unsigned? text.toList = some n.toNat) :
    uint64? text = some n := by
  have hlt : n.toNat < UInt64.size := n.toNat_lt
  rw [uint64?, h]
  show (if n.toNat < UInt64.size then some (UInt64.ofNat n.toNat) else none) = some n
  rw [if_pos hlt, UInt64.ofNat_toNat]

/-- The decimal text of a 64-bit number is read back as the number. -/
@[simp] theorem uint64?_toString (n : UInt64) : uint64? (toString n) = some n := by
  have hlist : (toString n).toList = Nat.toDigits 10 n.toNat := Nat.toList_repr
  exact uint64?_of_unsigned? (by rw [hlist, unsigned?_toDigits])

/-- The decimal text of a natural number is read back as the signed number of its value. -/
theorem int64?_toString (n : Nat) : int64? (toString n) = toInt64? n := by
  have hlist : (toString n).toList = Nat.toDigits 10 n := Nat.toList_repr
  rw [int64?, hlist, signed?_toDigits, Option.bind_eq_bind, Option.bind_some]

/-- A signed 64-bit number of a value is there where the value fits, and has it. -/
theorem toInt64?_eq_some_iff {n : Int} {value : Int64} :
    toInt64? n = some value ↔ value.toInt = n := by
  unfold toInt64?
  constructor
  · intro h
    split at h
    · next hfits =>
      cases h
      exact Int64.toInt_ofInt_of_le hfits.1 hfits.2
    · cases h
  · rintro rfl
    rw [if_pos ⟨value.le_toInt, value.toInt_lt⟩, Int64.ofInt_toInt]

/-- A value has no signed 64-bit number where it does not fit. -/
theorem toInt64?_eq_none_iff {n : Int} : toInt64? n = none ↔ ¬ FitsInt64 n := by
  simp [toInt64?]

/-! ## What numerals denote -/

/-- Digits, and at least one. -/
def Digits (cs : List Char) : Prop := cs ≠ [] ∧ ∀ c ∈ cs, c.isDigit = true

/-- A numeral consists of digits behind one sign at most. It denotes what its digits add up to, and the
opposite of that behind a minus sign. -/
inductive Denotes : List Char → Int → Prop
  | bare {digits : List Char} (h : Digits digits) : Denotes digits (Nat.ofDigitChars 10 digits 0)
  | plus {digits : List Char} (h : Digits digits) :
    Denotes ('+' :: digits) (Nat.ofDigitChars 10 digits 0)
  | minus {digits : List Char} (h : Digits digits) :
    Denotes ('-' :: digits) (-(Nat.ofDigitChars 10 digits 0 : Int))

/-- Where the reader of digits comes to a number there are only digits. -/
theorem isDigit_of_foldlM {cs : List Char} {n m : Nat}
    (h : cs.foldlM (fun n d => (digit? d).map (10 * n + ·)) n = some m) :
    ∀ c ∈ cs, c.isDigit = true := by
  induction cs generalizing n with
  | nil => exact fun c hc => absurd hc List.not_mem_nil
  | cons d cs ih =>
    rw [List.foldlM_cons] at h
    obtain ⟨next, hnext, hrest⟩ := Option.bind_eq_some_iff.mp h
    obtain ⟨digit, hdigit, -⟩ := Option.map_eq_some_iff.mp hnext
    have hd : d.isDigit = true := (Option.ite_none_right_eq_some.mp hdigit).1
    intro c hc
    rcases List.mem_cons.mp hc with rfl | hc
    · exact hd
    · exact ih hrest c hc

/-- Digits only make a number greater. -/
theorem le_ofDigitChars (cs : List Char) (n : Nat) : n ≤ Nat.ofDigitChars 10 cs n := by
  induction cs generalizing n with
  | nil => exact Nat.le_refl n
  | cons c cs ih =>
    rw [Nat.ofDigitChars_cons]
    have hle := ih (10 * n + (c.toNat - '0'.toNat))
    omega

theorem natural?_eq_some_iff {cs : List Char} {n : Nat} :
    natural? cs = some n ↔ Digits cs ∧ n = Nat.ofDigitChars 10 cs 0 := by
  constructor
  · intro h
    cases cs with
    | nil => cases h
    | cons c cs =>
      have hdigits : Digits (c :: cs) := ⟨List.cons_ne_nil c cs, isDigit_of_foldlM h⟩
      rw [natural?_eq_ofDigitChars hdigits.1 hdigits.2] at h
      exact ⟨hdigits, (Option.some.inj h).symm⟩
  · rintro ⟨hdigits, rfl⟩
    exact natural?_eq_ofDigitChars hdigits.1 hdigits.2

/-- What is made of the number that digits denote. -/
theorem map_natural?_eq_some_iff {f : Nat → Int} {cs : List Char} {n : Int} :
    (natural? cs).map f = some n ↔ Digits cs ∧ n = f (Nat.ofDigitChars 10 cs 0) := by
  rw [Option.map_eq_some_iff]
  constructor
  · rintro ⟨m, hm, rfl⟩
    obtain ⟨hdigits, rfl⟩ := natural?_eq_some_iff.mp hm
    exact ⟨hdigits, rfl⟩
  · rintro ⟨hdigits, rfl⟩
    exact ⟨_, natural?_eq_some_iff.mpr ⟨hdigits, rfl⟩, rfl⟩

/-- The reader of signed numerals takes numerals only, and as what they denote. -/
theorem signed?_eq_some_iff {cs : List Char} {n : Int} : signed? cs = some n ↔ Denotes cs n := by
  constructor
  · intro h
    rcases cs with _ | ⟨c, cs⟩
    · cases h
    -- the first character is a minus sign, a plus sign, or the first digit
    by_cases hminus : c = '-'
    · subst hminus
      rw [signed?_minus, map_natural?_eq_some_iff] at h
      obtain ⟨hdigits, rfl⟩ := h
      exact .minus hdigits
    by_cases hplus : c = '+'
    · subst hplus
      rw [signed?_plus, map_natural?_eq_some_iff] at h
      obtain ⟨hdigits, rfl⟩ := h
      exact .plus hdigits
    · rw [signed?_bare hminus hplus, map_natural?_eq_some_iff] at h
      obtain ⟨hdigits, rfl⟩ := h
      exact .bare hdigits
  · intro h
    cases h with
    | bare hdigits =>
      rw [signed?_of_isDigit hdigits.2, map_natural?_eq_some_iff]
      exact ⟨hdigits, rfl⟩
    | plus hdigits =>
      rw [signed?_plus, map_natural?_eq_some_iff]
      exact ⟨hdigits, rfl⟩
    | minus hdigits =>
      rw [signed?_minus, map_natural?_eq_some_iff]
      exact ⟨hdigits, rfl⟩

/-- The reader of signed 64-bit numerals takes the numerals that denote such a number. -/
theorem int64?_eq_some_iff {text : String} {value : Int64} :
    int64? text = some value ↔ Denotes text.toList value.toInt := by
  rw [int64?, Option.bind_eq_bind, Option.bind_eq_some_iff, ← signed?_eq_some_iff]
  constructor
  · rintro ⟨n, hn, hvalue⟩
    rw [hn, toInt64?_eq_some_iff.mp hvalue]
  · exact fun h => ⟨value.toInt, h, toInt64?_eq_some_iff.mpr rfl⟩

/-- The reader of unsigned 64-bit numerals takes the numerals of such a number. -/
theorem uint64?_eq_some_iff {text : String} {n : UInt64} :
    uint64? text = some n ↔ unsigned? text.toList = some n.toNat := by
  refine ⟨fun h => ?_, uint64?_of_unsigned?⟩
  rw [uint64?, Option.bind_eq_bind, Option.bind_eq_some_iff] at h
  obtain ⟨m, hm, hn⟩ := h
  obtain ⟨hlt, hn⟩ := Option.ite_none_right_eq_some.mp hn
  rw [hm, ← Option.some.inj hn, UInt64.toNat_ofNat_of_lt' hlt]

/-! ## Numerals that are parsed -/

/-- Digits are parsed where they are digits and what they add up to is not too great. -/
theorem parseDigits_eq_ok_iff {bound n m : Nat} {cs : List Char} (h : n < bound) :
    parseDigits bound n cs = .ok m
      ↔ (∀ c ∈ cs, c.isDigit = true) ∧ m = Nat.ofDigitChars 10 cs n ∧ m < bound := by
  induction cs generalizing n with
  | nil =>
    rw [parseDigits, Nat.ofDigitChars_nil, Except.ok.injEq]
    constructor
    · rintro rfl
      exact ⟨nofun, rfl, h⟩
    · exact fun hm => hm.2.1.symm
  | cons c cs ih =>
    rw [List.forall_mem_cons, Nat.ofDigitChars_cons, parseDigits, digit?]
    by_cases hdigit : c.isDigit = true
    · rw [if_pos hdigit]
      dsimp only
      by_cases hlt : 10 * n + (c.toNat - '0'.toNat) < bound
      · rw [if_pos hlt, ih hlt]
        simp only [hdigit, true_and]
      · -- more digits do not make the number less
        have hle := le_ofDigitChars cs (10 * n + (c.toNat - '0'.toNat))
        rw [if_neg hlt]
        refine iff_of_false nofun ?_
        rintro ⟨-, rfl, hm⟩
        exact hlt (Nat.lt_of_le_of_lt hle hm)
    · rw [if_neg hdigit]
      exact iff_of_false nofun fun hm => hdigit hm.1.1

theorem map_parseDigits_eq_ok_iff {cs : List Char} (hne : cs ≠ []) {n : UInt64} :
    (parseDigits UInt64.size 0 cs).map UInt64.ofNat = .ok n ↔ natural? cs = some n.toNat := by
  rw [natural?_eq_some_iff]
  have hparsed (m : Nat) : parseDigits UInt64.size 0 cs = .ok m
      ↔ (∀ c ∈ cs, c.isDigit = true) ∧ m = Nat.ofDigitChars 10 cs 0 ∧ m < UInt64.size :=
    parseDigits_eq_ok_iff (by decide)
  constructor
  · intro h
    cases hdigits : parseDigits UInt64.size 0 cs with
    | error fault =>
      rw [hdigits] at h
      cases h
    | ok m =>
      obtain ⟨hall, hm, hlt⟩ := (hparsed m).mp hdigits
      rw [hdigits] at h
      cases h
      exact ⟨⟨hne, hall⟩, by rw [UInt64.toNat_ofNat_of_lt' hlt, hm]⟩
  · rintro ⟨⟨-, hall⟩, hn⟩
    rw [(hparsed n.toNat).mpr ⟨hall, hn, n.toNat_lt⟩]
    exact congrArg Except.ok UInt64.ofNat_toNat

/-- What is parsed is what is read, and is the same number. -/
theorem parseUInt64_eq_ok_iff {text : String} {n : UInt64} :
    parseUInt64 text = .ok n ↔ uint64? text = some n := by
  rw [uint64?_eq_some_iff, parseUInt64]
  generalize text.toList = cs
  rcases cs with _ | ⟨c, cs⟩
  · exact iff_of_false nofun nofun
  by_cases hplus : c = '+'
  · subst hplus
    rcases cs with _ | ⟨d, cs⟩
    · exact iff_of_false nofun nofun
    · exact map_parseDigits_eq_ok_iff (List.cons_ne_nil d cs)
  · have hbare : unsigned? (c :: cs) = natural? (c :: cs) := by simp [unsigned?, hplus]
    rw [hbare, ← map_parseDigits_eq_ok_iff (List.cons_ne_nil c cs)]
    simp [hplus]

-- a number is found too great before the character behind it is looked at
example : parseUInt64 "99999999999999999999x" = .error .overflow := by cbv

/-! ## Numerals of a fixed width -/

/-- The last digits of a number are the last digits of what stands before its last one, and that. -/
theorem mod_pow_succ (n w : Nat) : n % 10 ^ (w + 1) = 10 * (n / 10 % 10 ^ w) + n % 10 := by
  rw [Nat.pow_succ', Nat.mod_mul, Nat.add_comm]

/-- The digits of a fixed-width numeral add up to the remainder that they show. -/
theorem ofDigitChars_prepend (w n : Nat) (tail : List Char) (init : Nat) :
    Nat.ofDigitChars 10 (prepend w n tail) init
      = Nat.ofDigitChars 10 tail (10 ^ w * init + n % 10 ^ w) := by
  induction w generalizing n tail init with
  | zero => simp [Nat.mod_one]
  | succ w ih =>
    rw [prepend_succ, ih, Nat.ofDigitChars_cons_digitChar_of_lt_ten (Nat.mod_lt n (by decide)),
      mod_pow_succ, Nat.pow_succ', Nat.mul_add, Nat.mul_assoc, Nat.add_assoc]

theorem isDigit_of_mem_prepend {w n : Nat} {tail : List Char}
    (htail : ∀ c ∈ tail, c.isDigit = true) : ∀ c ∈ prepend w n tail, c.isDigit = true := by
  induction w generalizing n tail with
  | zero => exact htail
  | succ w ih =>
    refine ih fun c hc => ?_
    rcases List.mem_cons.mp hc with rfl | hc
    · simp [Nat.isDigit_digitChar, Nat.mod_lt]
    · exact htail c hc

theorem toList_fixed (w n : Nat) : (fixed w n).toList = prepend w n [] := String.toList_ofList

/-- A fixed-width numeral is made of digits. -/
theorem isDigit_of_mem_fixed {w n : Nat} : ∀ c ∈ (fixed w n).toList, c.isDigit = true := by
  rw [toList_fixed]
  exact isDigit_of_mem_prepend fun c hc => absurd hc List.not_mem_nil

/-- The length of a fixed-width numeral is its width. -/
@[simp] theorem length_fixed (w n : Nat) : (fixed w n).length = w := by
  simp [fixed, String.length_ofList]

/-- A numeral of some width denotes the remainder that it shows. -/
theorem natural?_fixed {w : Nat} (hw : 0 < w) (n : Nat) :
    natural? (fixed w n).toList = some (n % 10 ^ w) := by
  have hne : (fixed w n).toList ≠ [] := by
    rw [← List.length_pos_iff, String.length_toList, length_fixed]
    exact hw
  rw [natural?_eq_ofDigitChars hne isDigit_of_mem_fixed, toList_fixed, ofDigitChars_prepend,
    Nat.ofDigitChars_nil, Nat.mul_zero, Nat.zero_add]

/-- Behind one numeral, another one of a fixed width adds its digits. -/
theorem prepend_prepend (w v a b : Nat) (tail : List Char) :
    prepend w a (prepend v b tail) = prepend (w + v) (a * 10 ^ v + b % 10 ^ v) tail := by
  induction v generalizing b tail with
  | zero => simp [Nat.mod_one]
  | succ v ih =>
    have hsplit : a * 10 ^ (v + 1) + b % 10 ^ (v + 1)
        = 10 * (a * 10 ^ v + b / 10 % 10 ^ v) + b % 10 := by
      rw [mod_pow_succ, Nat.pow_succ', Nat.mul_add, Nat.mul_left_comm, Nat.add_assoc]
    have hlast : b % 10 < 10 := Nat.mod_lt b (by decide)
    rw [prepend_succ, ih, ← Nat.add_assoc, prepend_succ, hsplit, Nat.mul_add_div (by decide),
      Nat.div_eq_of_lt hlast, Nat.add_zero, Nat.mul_add_mod, Nat.mod_mod]

/-- Characters behind a numeral are the tail that it is put in front of. -/
theorem prepend_append (w n : Nat) (tail cs : List Char) :
    prepend w n tail ++ cs = prepend w n (tail ++ cs) := by
  induction w generalizing n tail with
  | zero => rfl
  | succ w ih => rw [prepend_succ, prepend_succ, ih, List.cons_append]

theorem toList_fixed_append (w n : Nat) (text : String) :
    (fixed w n ++ text).toList = prepend w n text.toList := by
  rw [String.toList_append, toList_fixed, prepend_append, List.nil_append]

/-- Two numerals of fixed widths are one numeral of both widths. -/
theorem fixed_append_fixed (w v a b : Nat) :
    fixed w a ++ fixed v b = fixed (w + v) (a * 10 ^ v + b % 10 ^ v) := by
  refine String.toList_injective ?_
  rw [toList_fixed_append, toList_fixed, toList_fixed, prepend_prepend]

/-! ## The order of numerals -/

/-- Digits are ordered as the numbers that they stand for. -/
theorem digitChar_lt_iff {m n : Nat} (hm : m < 10) (hn : n < 10) :
    Nat.digitChar m < Nat.digitChar n ↔ m < n := by
  have htoNat (c d : Char) : c < d ↔ c.toNat < d.toNat := UInt32.lt_iff_toNat_lt
  rw [htoNat, Nat.toNat_digitChar_of_lt_ten hm, Nat.toNat_digitChar_of_lt_ten hn]
  omega

theorem digitChar_inj {m n : Nat} (hm : m < 10) (hn : n < 10) :
    Nat.digitChar m = Nat.digitChar n ↔ m = n := by
  rw [← Char.toNat_inj, Nat.toNat_digitChar_of_lt_ten hm, Nat.toNat_digitChar_of_lt_ten hn]
  omega

/-- Numerals of one width are ordered by what they show, and where they show the same by what stands
behind them. -/
theorem prepend_lt_iff {w a b : Nat} {s t : List Char} :
    prepend w a s < prepend w b t ↔ a % 10 ^ w < b % 10 ^ w ∨ a % 10 ^ w = b % 10 ^ w ∧ s < t := by
  induction w generalizing a b s t with
  | zero => simp [Nat.mod_one]
  | succ w ih =>
    have ha : a % 10 < 10 := Nat.mod_lt a (by decide)
    have hb : b % 10 < 10 := Nat.mod_lt b (by decide)
    rw [prepend_succ, prepend_succ, ih, List.cons_lt_cons_iff, digitChar_lt_iff ha hb,
      digitChar_inj ha hb, mod_pow_succ, mod_pow_succ]
    by_cases hst : s < t
    · simp only [hst, and_true]
      omega
    · simp only [hst, and_false, or_false]
      omega

theorem prepend_inj {w a b : Nat} {s t : List Char} :
    prepend w a s = prepend w b t ↔ a % 10 ^ w = b % 10 ^ w ∧ s = t := by
  induction w generalizing a b s t with
  | zero => simp [Nat.mod_one]
  | succ w ih =>
    have ha : a % 10 < 10 := Nat.mod_lt a (by decide)
    have hb : b % 10 < 10 := Nat.mod_lt b (by decide)
    rw [prepend_succ, prepend_succ, ih, List.cons.injEq, digitChar_inj ha hb, ← and_assoc,
      mod_pow_succ, mod_pow_succ]
    refine and_congr_left fun _ => ?_
    omega

/-- Texts behind numerals of one width are compared after these. -/
theorem compare_fixed_append (w a b : Nat) (s t : String) :
    compare (fixed w a ++ s) (fixed w b ++ t)
      = (compare (a % 10 ^ w) (b % 10 ^ w)).then (compare s t) := by
  have hlt : fixed w a ++ s < fixed w b ++ t
      ↔ a % 10 ^ w < b % 10 ^ w ∨ a % 10 ^ w = b % 10 ^ w ∧ s < t := by
    rw [String.lt_iff, toList_fixed_append, toList_fixed_append, prepend_lt_iff, String.lt_iff]
  have heq : fixed w a ++ s = fixed w b ++ t ↔ a % 10 ^ w = b % 10 ^ w ∧ s = t := by
    rw [← String.toList_inj, toList_fixed_append, toList_fixed_append, prepend_inj, String.toList_inj]
  show compareOfLessAndEq _ _ = Ordering.then (compareOfLessAndEq _ _) (compareOfLessAndEq _ _)
  simp only [compareOfLessAndEq, hlt, heq]
  rcases Nat.lt_trichotomy (a % 10 ^ w) (b % 10 ^ w) with h | h | h
  · simp [h]
  · simp [h]
  · simp [Nat.not_lt.mpr (Nat.le_of_lt h), Nat.ne_of_gt h]

/-- Numerals of one width are ordered as texts as the numbers that they show. -/
theorem compare_fixed (w a b : Nat) :
    compare (fixed w a) (fixed w b) = compare (a % 10 ^ w) (b % 10 ^ w) := by
  have hbehind := compare_fixed_append w a b "" ""
  rwa [String.append_empty, String.append_empty, Std.compare_self, Ordering.then_eq] at hbehind

/-- Numerals of one width agree where they show the same. -/
theorem fixed_inj {w a b : Nat} : fixed w a = fixed w b ↔ a % 10 ^ w = b % 10 ^ w := by
  rw [← String.toList_inj, toList_fixed, toList_fixed, prepend_inj]
  exact and_iff_left rfl

/-- A numeral of a fixed width is told apart from the text in front of it. -/
theorem append_fixed_inj {w a b : Nat} {s t : String} :
    s ++ fixed w a = t ++ fixed w b ↔ s = t ∧ a % 10 ^ w = b % 10 ^ w := by
  have hlength : (fixed w a).toList.length = (fixed w b).toList.length := by
    rw [String.length_toList, String.length_toList, length_fixed, length_fixed]
  constructor
  · intro h
    have hlist := congrArg String.toList h
    rw [String.toList_append, String.toList_append] at hlist
    obtain ⟨hfront, hbehind⟩ := List.append_inj' hlist hlength
    exact ⟨String.toList_injective hfront, fixed_inj.mp (String.toList_injective hbehind)⟩
  · rintro ⟨rfl, hmod⟩
    rw [fixed_inj.mpr hmod]

/-! ## Numerals and the digits of a number -/

/-- A numeral of a fixed width is that of what stands before its last digits, and these. -/
theorem prepend_add (w v n : Nat) (tail : List Char) :
    prepend (w + v) n tail = prepend w (n / 10 ^ v) (prepend v n tail) := by
  rw [prepend_prepend, Nat.div_add_mod']

/-- Nothing is shown as zeros. -/
theorem prepend_replicate (w : Nat) (tail : List Char) :
    prepend w 0 tail = List.replicate w '0' ++ tail := by
  induction w generalizing tail with
  | zero => rfl
  | succ w ih =>
    rw [prepend_succ, ih, List.replicate_succ', List.append_assoc]
    rfl

/-- The digits of a number are the numeral of their own width. -/
theorem prepend_length_toDigits (n : Nat) (tail : List Char) :
    prepend (Nat.toDigits 10 n).length n tail = Nat.toDigits 10 n ++ tail := by
  -- all digits but the last one are those of the tenth part
  induction n using Nat.strongRecOn generalizing tail with
  | ind n ih =>
    by_cases hn : n < 10
    · rw [Nat.toDigits_of_lt_base hn, List.length_singleton, prepend_succ, prepend_zero,
        Nat.mod_eq_of_lt hn, List.singleton_append]
    · have hbase : 10 ≤ n := Nat.not_lt.mp hn
      rw [Nat.toDigits_of_base_le (by decide) hbase, List.length_append, List.length_singleton,
        prepend_succ, ih (n / 10) (by omega), List.append_assoc, List.singleton_append]

/-- A numeral of no more digits than the number has is made of the last ones of these. -/
theorem prepend_of_le_length {w n : Nat} (h : w ≤ (Nat.toDigits 10 n).length) :
    prepend w n [] = (Nat.toDigits 10 n).drop ((Nat.toDigits 10 n).length - w) := by
  have hsplit : prepend ((Nat.toDigits 10 n).length - w) (n / 10 ^ w) [] ++ prepend w n []
      = Nat.toDigits 10 n := by
    rw [prepend_append, List.nil_append, ← prepend_add, Nat.sub_add_cancel h,
      prepend_length_toDigits, List.append_nil]
  have hlength : (prepend ((Nat.toDigits 10 n).length - w) (n / 10 ^ w) []).length
      = (Nat.toDigits 10 n).length - w := length_prepend _ _ _
  calc prepend w n []
      = (prepend ((Nat.toDigits 10 n).length - w) (n / 10 ^ w) [] ++ prepend w n []).drop
          ((Nat.toDigits 10 n).length - w) := (List.drop_left' hlength).symm
    _ = (Nat.toDigits 10 n).drop ((Nat.toDigits 10 n).length - w) := by rw [hsplit]

/-- A numeral of at least the digits that the number has is made of these behind zeros. -/
theorem prepend_of_length_le {w n : Nat} (h : (Nat.toDigits 10 n).length ≤ w) :
    prepend w n [] = (Nat.toDigits 10 n).leftpad w '0' := by
  have hlt : n < 10 ^ (Nat.toDigits 10 n).length :=
    (Nat.length_toDigits_le_iff (by decide) Nat.length_toDigits_pos).mp (Nat.le_refl _)
  rw [← Nat.sub_add_cancel h, prepend_add, Nat.div_eq_of_lt hlt, prepend_replicate,
    prepend_length_toDigits, List.append_nil, List.leftpad, Nat.add_sub_cancel]

/-! ## Padded numerals -/

/-- A padded numeral denotes its number. -/
@[simp] theorem natural?_padded (w n : Nat) : natural? (padded w n).toList = some n := by
  unfold padded
  dsimp only
  split
  · next hshort =>
    have hw : 0 < w := Nat.zero_lt_of_lt hshort
    have hn : n < 10 ^ w := (Nat.length_repr_le_iff hw).mp (Nat.le_of_lt hshort)
    rw [natural?_fixed hw, Nat.mod_eq_of_lt hn]
  · rw [show (toString n).toList = Nat.toDigits 10 n from Nat.toList_repr, natural?_toDigits]

end IdMint.Decimal
