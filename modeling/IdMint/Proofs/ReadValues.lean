import IdMint.Proofs.PassedValues
import IdMint.Proofs.RecordKinds

/-! # Values that are read

A reader that is put in front of a value takes it if it is of the right kind, and comes to what the value
stands for; every other value it refuses. -/

namespace IdMint.Json

variable {α β : Type}

/-- The result of reading is a value, with what stands behind it, or a failure, as `fits` says. -/
structure Reads (result : Except Fault (α × List Char)) (fits : Prop) (a : α) (rest : List Char) :
    Prop where
  ok : fits → result = .ok (a, rest)
  error : ¬ fits → ∃ fault, result = .error fault

theorem Reads.of_ok {result : Except Fault (α × List Char)} {fits : Prop} {a : α} {rest : List Char}
    (h : result = .ok (a, rest)) (hfits : fits) : Reads result fits a rest :=
  ⟨fun _ => h, fun hnot => absurd hfits hnot⟩

theorem Reads.of_error {result : Except Fault (α × List Char)} {fits : Prop} {a : α}
    {rest : List Char} (h : ∃ fault, result = .error fault) (hfits : ¬ fits) :
    Reads result fits a rest :=
  ⟨fun h => absurd h hfits, fun _ => h⟩

/-- What a reader finds tells whether it comes to a value, and to which one. -/
theorem Reads.of_toOption {result : Except Fault (α × List Char)} {found : Option α}
    {rest : List Char} (h : result.toOption = found.map fun a => (a, rest)) (standard : α) :
    Reads result (found.isSome = true) (found.getD standard) rest := by
  cases result with
  | error fault =>
    cases found with
    | none => exact .of_error ⟨fault, rfl⟩ nofun
    | some a => cases h
  | ok read =>
    cases found with
    | none => cases h
    | some a =>
      cases h
      exact .of_ok rfl rfl

theorem Reads.congr {result : Except Fault (α × List Char)} {fits fits' : Prop} {a : α}
    {rest : List Char} (h : Reads result fits a rest) (hiff : fits ↔ fits') :
    Reads result fits' a rest :=
  ⟨fun hfits => h.ok (hiff.mpr hfits), fun hnot => h.error (hnot ∘ hiff.mp)⟩

theorem Reads.map {result : Except Fault (α × List Char)} {fits : Prop} {a : α} {rest : List Char}
    (h : Reads result fits a rest) (f : α → β) :
    Reads (result.map fun (a, rest) => (f a, rest)) fits (f a) rest where
  ok hfits := by
    rw [h.ok hfits]
    rfl
  error hnot := by
    obtain ⟨fault, hfault⟩ := h.error hnot
    exact ⟨fault, by rw [hfault]; rfl⟩

/-- What is read next is read where reading came to a value. -/
theorem Reads.bind {result : Except Fault (α × List Char)} {fits fits' : Prop} {a : α}
    {rest rest' : List Char} (h : Reads result fits a rest)
    {next : α × List Char → Except Fault (β × List Char)} {b : β}
    (hnext : fits → Reads (next (a, rest)) fits' b rest') :
    Reads (result.bind next) (fits ∧ fits') b rest' where
  ok hboth := by
    rw [h.ok hboth.1]
    exact (hnext hboth.1).ok hboth.2
  error hnot := by
    by_cases hfits : fits
    · rw [h.ok hfits]
      exact (hnext hfits).error fun hfits' => hnot ⟨hfits, hfits'⟩
    · obtain ⟨fault, hfault⟩ := h.error hfits
      exact ⟨fault, by rw [hfault]; rfl⟩

/-- A codec reads the values of a kind, wherever a value may stand, and no others. -/
structure Codec.Follows (codec : Codec α) (kind : Kind α) : Prop where
  steady : kind.Steady
  reads : ∀ {v cs before rest}, Spells v cs → Blank before → Ends rest →
    Reads (codec.read (before ++ (cs ++ rest))) (kind.schema.Fits v) (kind.value v) rest

/-! ## Texts -/

theorem readEscape_letter {l c : Char} (h : plainEscape? l = some c) (rest : List Char) :
    readEscape (l :: rest) = .ok (c, rest) := by
  rw [readEscape, h]
  exact ne_u_of_plainEscape? h

section Units

variable {a b c d : Char} {n : Nat}

/-- A code unit that is no half of a pair is read by itself. -/
theorem readEscape_unit (h : hex4? a b c d = some n) (hfirst : ¬ IsFirstHalf n)
    (hsecond : ¬ IsSecondHalf n) (rest : List Char) :
    readEscape ('u' :: a :: b :: c :: d :: rest) = .ok (Char.ofNat n, rest) := by
  have hlow : ¬ (0xDC00 ≤ n ∧ n ≤ 0xDFFF) := hsecond
  have hhigh : ¬ (0xD800 ≤ n ∧ n ≤ 0xDBFF) := hfirst
  rw [readEscape, readHex_of_hex4? h]
  simp only [bind, Except.bind, if_neg hlow, if_neg hhigh]

/-- Behind a first half the second one is looked for. -/
theorem readEscape_first (h : hex4? a b c d = some n) (hfirst : IsFirstHalf n) (rest : List Char) :
    readEscape ('u' :: a :: b :: c :: d :: rest) = readSecondHalf n rest := by
  have hhigh : 0xD800 ≤ n ∧ n ≤ 0xDBFF := hfirst
  have hlow : ¬ (0xDC00 ≤ n ∧ n ≤ 0xDFFF) := by omega
  rw [readEscape, readHex_of_hex4? h]
  simp only [bind, Except.bind, if_neg hlow, if_pos hhigh]

/-- A second half is refused where no first one is in front of it. -/
theorem readEscape_second (h : hex4? a b c d = some n) (hsecond : IsSecondHalf n)
    (rest : List Char) : readEscape ('u' :: a :: b :: c :: d :: rest) = .error .malformed := by
  have hlow : 0xDC00 ≤ n ∧ n ≤ 0xDFFF := hsecond
  rw [readEscape, readHex_of_hex4? h]
  simp only [bind, Except.bind, if_pos hlow]

/-- The halves of a surrogate pair are read together. -/
theorem readSecondHalf_pair (high : Nat) (h : hex4? a b c d = some n) (hsecond : IsSecondHalf n)
    (rest : List Char) :
    readSecondHalf high ('\\' :: 'u' :: a :: b :: c :: d :: rest)
      = .ok (Char.ofNat ((high - 0xD800) * 1024 + (n - 0xDC00) + 0x10000), rest) := by
  have hlow : ¬ (n < 0xDC00 ∨ 0xDFFF < n) := by
    obtain ⟨hle, hge⟩ := hsecond
    omega
  rw [readSecondHalf, readHex_of_hex4? h]
  simp only [bind, Except.bind, if_neg hlow]

/-- Another code unit is refused where a second half is looked for. -/
theorem readSecondHalf_unit (high : Nat) (h : hex4? a b c d = some n) {raw : List Char}
    (halone : ¬ BeginsSecondHalf ('\\' :: 'u' :: a :: b :: c :: d :: raw)) (rest : List Char) :
    readSecondHalf high ('\\' :: 'u' :: a :: b :: c :: d :: rest) = .error .malformed := by
  have hlow : n < 0xDC00 ∨ 0xDFFF < n := by
    have hsecond : ¬ IsSecondHalf n := fun hsecond => halone ⟨a, b, c, d, n, raw, rfl, h, hsecond⟩
    rw [IsSecondHalf] at hsecond
    omega
  rw [readSecondHalf, readHex_of_hex4? h]
  simp only [bind, Except.bind, if_pos hlow]

end Units

/-- A first half is refused where no second one is behind it. -/
theorem SpellsChars.readSecondHalf {raw : List Char} {content : Option (List Char)}
    (h : SpellsChars raw content) (halone : ¬ BeginsSecondHalf raw) (high : Nat) (rest : List Char) :
    readSecondHalf high (raw ++ '"' :: rest) = .error .malformed := by
  cases h with
  | nil => rfl
  | plain _ hbackslash =>
    rw [List.cons_append, Json.readSecondHalf]
    · nofun
    · exact fun hend => hbackslash (List.cons.inj hend).1
    · exact fun more hunit => hbackslash (List.cons.inj hunit).1
  | letter hletter =>
    rw [List.cons_append, List.cons_append, Json.readSecondHalf]
    · nofun
    · nofun
    · exact fun more hunit => ne_u_of_plainEscape? hletter (List.cons.inj (List.cons.inj hunit).2).1
  | unit h | alone h | pair h => exact readSecondHalf_unit high h halone _

/-- What stands alone is refused behind its backslash. -/
theorem readEscape_alone {a b c d : Char} {half : Nat} {raw : List Char}
    {content : Option (List Char)} (hhalf : hex4? a b c d = some half)
    (halone : IsSecondHalf half ∨ IsFirstHalf half ∧ ¬ BeginsSecondHalf raw)
    (h : SpellsChars raw content) (rest : List Char) :
    readEscape ('u' :: a :: b :: c :: d :: (raw ++ '"' :: rest)) = .error .malformed := by
  rcases halone with hsecond | ⟨hfirst, halone⟩
  · exact readEscape_second hhalf hsecond _
  · rw [readEscape_first hhalf hfirst]
    exact h.readSecondHalf halone half rest

theorem toOption_prefixed (c : Char) (result : Except Fault (List Char × List Char)) :
    (prefixed c result).toOption = result.toOption.map fun (content, rest) => (c :: content, rest) := by
  cases result <;> rfl

/-- A character that is read stands in front of what is read behind it. -/
theorem toOption_readCharsWithin_backslash (fuel : Nat) {cs more rest : List Char} {c : Char}
    (h : readEscape cs = .ok (c, more)) {content : Option (List Char)}
    (hmore : (readCharsWithin fuel more).toOption = content.map fun content => (content, rest)) :
    (readCharsWithin (fuel + 1) ('\\' :: cs)).toOption
      = (content.map (c :: ·)).map fun content => (content, rest) := by
  rw [readCharsWithin_escape h, toOption_prefixed, hmore]
  cases content <;> rfl

/-- Characters that are spelled are read up to the quote behind them, if all of them are. -/
theorem SpellsChars.toOption_readCharsWithin {raw : List Char} {content : Option (List Char)}
    (h : SpellsChars raw content) {fuel : Nat} (hfuel : raw.length < fuel) (rest : List Char) :
    (readCharsWithin fuel (raw ++ '"' :: rest)).toOption
      = content.map fun content => (content, rest) := by
  induction h generalizing fuel with
  | nil =>
    obtain ⟨fuel, rfl⟩ := Nat.exists_eq_add_of_le' hfuel
    rfl
  | @plain c raw content hquote hbackslash hcontrol _ ih =>
    obtain ⟨fuel, rfl⟩ := Nat.exists_eq_add_of_le' (Nat.zero_lt_of_lt hfuel)
    have hread : readCharsWithin (fuel + 1) (c :: raw ++ '"' :: rest)
        = prefixed c (readCharsWithin fuel (raw ++ '"' :: rest)) := by
      rw [List.cons_append, readCharsWithin, if_neg hquote, if_neg hbackslash,
        if_neg (Nat.not_lt.mpr hcontrol)]
      cases readCharsWithin fuel (raw ++ '"' :: rest) <;> rfl
    rw [hread, toOption_prefixed, ih (Nat.lt_of_succ_lt_succ hfuel)]
    cases content <;> rfl
  | letter hletter _ ih =>
    obtain ⟨fuel, rfl⟩ := Nat.exists_eq_add_of_le' (Nat.zero_lt_of_lt hfuel)
    refine toOption_readCharsWithin_backslash fuel (readEscape_letter hletter _) (ih ?_)
    simp only [List.length_cons] at hfuel
    omega
  | unit hunit hfirst hsecond _ ih =>
    obtain ⟨fuel, rfl⟩ := Nat.exists_eq_add_of_le' (Nat.zero_lt_of_lt hfuel)
    refine toOption_readCharsWithin_backslash fuel (readEscape_unit hunit hfirst hsecond _) (ih ?_)
    simp only [List.length_cons] at hfuel
    omega
  | pair hhigh hfirst hlow hsecond _ ih =>
    obtain ⟨fuel, rfl⟩ := Nat.exists_eq_add_of_le' (Nat.zero_lt_of_lt hfuel)
    refine toOption_readCharsWithin_backslash fuel
      ((readEscape_first hhigh hfirst _).trans (readSecondHalf_pair _ hlow hsecond _)) (ih ?_)
    simp only [List.length_cons] at hfuel
    omega
  | @alone a b c d half raw content hhalf halone h _ =>
    -- the reading stops here, whatever is spelled behind it
    obtain ⟨fuel, rfl⟩ := Nat.exists_eq_add_of_le' (Nat.zero_lt_of_lt hfuel)
    have hescape := readEscape_alone hhalf halone h rest
    simp only [List.cons_append] at hescape ⊢
    rw [readCharsWithin, if_neg (by decide), if_pos rfl, hescape]
    rfl

/-- A string is read behind its opening quote, if it spells a text. -/
theorem SpellsChars.reads_readString {raw : List Char} {s : Option String}
    (h : SpellsChars raw (s.map String.toList)) (rest : List Char) :
    Reads (readString (raw ++ '"' :: rest)) (s.isSome = true) (s.getD "") rest := by
  have hlength : raw.length < (raw ++ '"' :: rest).length + 1 := by
    rw [List.length_append]
    omega
  have hreads := (Reads.of_toOption (h.toOption_readCharsWithin hlength rest) []).map String.ofList
  cases s with
  | none => exact hreads
  | some s =>
    rw [Option.map_some, Option.getD_some, String.ofList_toList] at hreads
    exact hreads

/-- Texts are read, and nothing else in their place. -/
theorem reads_readText {v : Value} {cs before : List Char} (hv : Spells v cs) (hbefore : Blank before)
    (rest : List Char) :
    Reads (readText (before ++ (cs ++ rest))) (Schema.text.Fits v) (Kind.text.value v) rest := by
  rw [readText, hv.skipSpace_append hbefore]
  obtain ⟨c, tail, hcons, hc⟩ := hv.begins
  by_cases hquote : c = '"'
  · obtain ⟨s, rfl⟩ := hc.text hquote
    cases hv with
    | @text _ raw h =>
      rw [List.cons_append, List.append_assoc, Kind.text_value]
      exact (h.reads_readString rest).congr Schema.fits_text_iff.symm
  · -- no quote in front: the reader stops there, and nothing but a text begins with one
    refine .of_error ⟨wrongKind (cs ++ rest), ?_⟩ ?_
    · rw [hcons, List.cons_append]
      split
      · rename_i heq
        cases heq
      · rename_i heq
        exact absurd (List.cons.inj heq).1 hquote
      · rfl
    · intro hfits
      cases hfits with
      | text s =>
        cases hv with
        | text => exact hquote (List.cons.inj hcons).1.symm

/-! ## Numbers -/

/-- What is read is no natural number of at most 64 bits. -/
def NotNatural (result : Except Fault (Number × List Char)) : Prop :=
  ∀ n rest, result ≠ .ok (.natural n, rest)

theorem notNatural_endNumber (significand : Nat) (exponent : Int) (rest : List Char) :
    NotNatural (endNumber significand exponent rest) := by
  intro n more
  unfold endNumber
  split <;> simp

theorem notNatural_readExponent (significand : Nat) (exponent : Int) (cs : List Char) :
    NotNatural (readExponent significand exponent cs) := by
  intro n more
  unfold readExponent
  dsimp only
  split
  · simp
  · simp
  · split
    · split <;> simp
    · exact notNatural_endNumber _ _ _ n more

theorem notNatural_readFraction (significand : Nat) (exponent : Int) (cs : List Char) :
    NotNatural (readFraction significand exponent cs) := by
  intro n more
  unfold readFraction
  split
  · simp
  · simp
  · dsimp only
    split
    · split
      · exact notNatural_readExponent _ _ _ n more
      · exact notNatural_endNumber _ _ _ n more
    · exact notNatural_endNumber _ _ _ n more

/-- Behind a minus sign, where digits are left over, and where a fraction or an exponent follows, there is
no natural number. -/
theorem notNatural_readAfterInteger {negative : Bool} {ds : List Nat} {cs : List Char}
    (h : negative = true ∨ 0 < (appendDigits 0 ds).2.2
      ∨ ∃ c ∈ cs.head?, c = '.' ∨ isExponentMark c = true) :
    NotNatural (readAfterInteger negative ds cs) := by
  intro n more
  unfold readAfterInteger
  dsimp only
  -- without a fraction or an exponent, the sign or the digits left over rule a natural number out
  have hwhole (hno : ∀ c ∈ cs.head?, c ≠ '.' ∧ isExponentMark c ≠ true) :
      (if 0 < (appendDigits 0 ds).2.2
        then endNumber (appendDigits 0 ds).1 (appendDigits 0 ds).2.2 cs
        else .ok (if negative then .other else .natural (appendDigits 0 ds).1, cs))
      ≠ .ok (.natural n, more) := by
    split
    · exact notNatural_endNumber _ _ _ n more
    · rename_i hleft
      rcases h with rfl | hpos | ⟨c, hc, hmark⟩
      · simp
      · exact absurd hpos hleft
      · exact absurd hmark (not_or.mpr (hno c hc))
  cases cs with
  | nil => exact hwhole nofun
  | cons c tail =>
    dsimp only
    split
    · exact notNatural_readFraction _ _ _ n more
    · split
      · exact notNatural_readExponent _ _ _ n more
      · rename_i hpoint hmark
        refine hwhole ?_
        rintro _ ⟨⟩
        exact ⟨hpoint, hmark⟩

/-- Where no digits are left over, what they add up to fits 64 bits. -/
theorem lt_of_appendDigits {cs : List Char} {n : Nat} (hn : n < 2 ^ 64)
    (h : (appendDigits n (cs.map fun c => c.toNat - 48)).2.2 = 0) :
    Nat.ofDigitChars 10 cs n < 2 ^ 64 := by
  induction cs generalizing n with
  | nil => exact hn
  | cons c cs ih =>
    rw [Nat.ofDigitChars_cons]
    rw [List.map_cons, appendDigits] at h
    dsimp only at h
    split at h
    · rename_i hfits
      exact ih hfits h
    · exact absurd h (Nat.succ_ne_zero _)

/-- A number is read by the digits of its integer part and what follows them. -/
theorem readNumber_spelled (negative : Bool) (n : Nat) {rest : List Char} (hrest : EndsDigits rest) :
    readNumber (minus negative ++ (Nat.toDigits 10 n ++ rest))
      = readAfterInteger negative ((Nat.toDigits 10 n).map fun c => c.toNat - 48) rest := by
  rw [← readUnsigned_toDigits negative n hrest]
  cases negative with
  | true => rfl
  | false =>
    obtain ⟨c, cs, hcons, -, -⟩ := Decimal.exists_cons_toDigits n
    rw [hcons]
    exact readNumber_of_isDigit (Decimal.isDigit_of_mem (hcons ▸ List.mem_cons_self)) _

/-- A negative integer is no natural number, and neither is one of more than 64 bits. -/
theorem notNatural_integer {negative : Bool} {n : Nat} (h : negative = true ∨ 2 ^ 64 ≤ n)
    {rest : List Char} (hrest : Ends rest) :
    NotNatural (readNumber (minus negative ++ (Nat.toDigits 10 n ++ rest))) := by
  rw [readNumber_spelled negative n hrest.endsDigits]
  refine notNatural_readAfterInteger (h.imp_right fun hlarge => .inl (Nat.pos_of_ne_zero ?_))
  intro hzero
  have hlt := lt_of_appendDigits (by decide) hzero
  rw [Nat.ofDigitChars_ten_toDigits] at hlt
  exact absurd hlt (Nat.not_lt.mpr hlarge)

/-- A number with a fraction or an exponent is no natural number. -/
theorem notNatural_fractional (negative : Bool) (n : Nat) {tail : List Char} (h : IsTail tail)
    (rest : List Char) :
    NotNatural (readNumber (minus negative ++ (Nat.toDigits 10 n ++ (tail ++ rest)))) := by
  rw [readNumber_spelled negative n (h.endsDigits rest)]
  refine notNatural_readAfterInteger (.inr (.inr ?_))
  cases h with
  | fraction | both => exact ⟨'.', rfl, .inl rfl⟩
  | exponent h =>
    obtain ⟨mark, more, rfl, hmark⟩ := h.exists_cons
    exact ⟨mark, rfl, .inr hmark⟩

section Below

variable {bound n : Nat} {cs tail rest : List Char} {c : Char}

theorem readBelow_natural (hskip : skipSpace cs = c :: tail) (hc : beginsNumber c = true)
    (hread : readNumber (c :: tail) = .ok (.natural n, rest)) :
    readBelow bound cs = if n < bound then .ok (n, rest) else .error .mismatched := by
  rw [readBelow, hskip]
  dsimp only
  rw [if_pos hc, hread]

theorem readBelow_notNatural (hskip : skipSpace cs = c :: tail) (hc : beginsNumber c = true)
    (hread : NotNatural (readNumber (c :: tail))) : ∃ fault, readBelow bound cs = .error fault := by
  rw [readBelow, hskip]
  dsimp only
  rw [if_pos hc]
  cases hresult : readNumber (c :: tail) with
  | error fault => exact ⟨fault, rfl⟩
  | ok read =>
    obtain ⟨number, more⟩ := read
    cases number with
    | natural n => exact absurd hresult (hread n more)
    | other => exact ⟨.mismatched, rfl⟩

theorem readBelow_wrongKind (hskip : skipSpace cs = c :: tail) (hc : ¬ beginsNumber c = true) :
    readBelow bound cs = .error (wrongKind (c :: tail)) := by
  rw [readBelow, hskip]
  dsimp only
  rw [if_neg hc]

/-- An integer is read if it is a natural number below the bound. -/
theorem reads_readBelow_integer (hbound : bound ≤ 2 ^ 64) {negative : Bool}
    (hskip : skipSpace cs = c :: tail) (hc : beginsNumber c = true)
    (hspelled : c :: tail = minus negative ++ (Nat.toDigits 10 n ++ rest)) (hrest : Ends rest) :
    Reads (readBelow bound cs) ((Schema.natural bound).Fits (.integer negative n)) n rest := by
  by_cases hsmall : negative = false ∧ n < 2 ^ 64
  · obtain ⟨rfl, hlt⟩ := hsmall
    have hread : readNumber (c :: tail) = .ok (.natural n, rest) :=
      hspelled ▸ readNumber_toDigits hlt hrest
    rw [readBelow_natural hskip hc hread]
    by_cases hn : n < bound
    · exact .of_ok (if_pos hn) (.natural hn)
    · refine .of_error ⟨_, if_neg hn⟩ ?_
      rintro ⟨⟩
      contradiction
  · have hread : NotNatural (readNumber (c :: tail)) := by
      refine hspelled ▸ notNatural_integer ?_ hrest
      cases negative with
      | true => exact .inl rfl
      | false => exact .inr (Nat.not_lt.mp fun hlt => hsmall ⟨rfl, hlt⟩)
    refine .of_error (readBelow_notNatural hskip hc hread) ?_
    rintro ⟨⟩
    exact hsmall ⟨rfl, Nat.lt_of_lt_of_le ‹_› hbound⟩

end Below

/-- Natural numbers below a bound are read, and nothing else in their place. -/
theorem reads_readBelow {bound : Nat} (hbound : bound ≤ 2 ^ 64) {v : Value} {cs before rest : List Char}
    (hv : Spells v cs) (hbefore : Blank before) (hrest : Ends rest) :
    Reads (readBelow bound (before ++ (cs ++ rest))) ((Schema.natural bound).Fits v) (Kind.sizeOf v)
      rest := by
  obtain ⟨c, tail, hcons, hc⟩ := hv.begins
  have hhead : cs ++ rest = c :: (tail ++ rest) := by rw [hcons, List.cons_append]
  have hskip := (hv.skipSpace_append hbefore rest).trans hhead
  by_cases hnumber : beginsNumber c = true
  · obtain ⟨negative, n, rfl⟩ | rfl := hc.number hnumber
    · cases hv
      rw [List.append_assoc] at hhead
      exact reads_readBelow_integer hbound hskip hnumber hhead.symm hrest
    · cases hv with
      | @fractional negative n fraction htail =>
        have hread : NotNatural (readNumber (c :: (tail ++ rest))) := by
          rw [← hhead, List.append_assoc, List.append_assoc]
          exact notNatural_fractional negative n htail rest
        exact .of_error (readBelow_notNatural hskip hnumber hread) nofun
  · refine .of_error ⟨_, readBelow_wrongKind hskip hnumber⟩ fun hfits => ?_
    -- what fits is spelled with a digit in front
    cases hfits with
    | @natural _ n h =>
      cases hv
      obtain ⟨d, ds, hnumeral, hd⟩ := exists_cons_number false n []
      rw [List.append_nil, hcons, List.cons.injEq] at hnumeral
      exact hnumber (hnumeral.1 ▸ hd)

/-! ## Codecs -/

theorem Codec.follows_text : Codec.text.Follows Kind.text where
  steady := Kind.steady_text
  reads hv hbefore _ := reads_readText hv hbefore _

theorem Codec.follows_uint64 : Codec.uint64.Follows Kind.uint64 where
  steady := Kind.steady_uint64
  reads hv hbefore hrest := (reads_readBelow (Nat.le_refl _) hv hbefore hrest).map _

theorem Codec.follows_uint32 : Codec.uint32.Follows Kind.uint32 where
  steady := Kind.steady_uint32
  reads hv hbefore hrest := (reads_readBelow (by decide) hv hbefore hrest).map _

end IdMint.Json
