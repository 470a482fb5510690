import IdMint.Proofs.JsonGrammar
import IdMint.Proofs.JsonValues

/-! # Passing over values

Whatever value a text spells, passing over it leaves what stands behind it. The induction is on the
steps that are granted: a value needs no more of them than it has characters, since every bracket takes
two steps and stands for two characters. -/

namespace IdMint.Json

/-! ## White space -/

theorem blank_nil : Blank [] := nofun

/-- White space in front is passed over. -/
theorem skipSpace_append {before : List Char} (h : Blank before) (cs : List Char) :
    skipSpace (before ++ cs) = skipSpace cs :=
  List.dropWhile_append_of_pos h

/-- White space in front of another character is passed over up to the character. -/
theorem skipSpace_append_cons {before : List Char} (h : Blank before) {c : Char} {cs : List Char}
    (hc : isSpace c = false) : skipSpace (before ++ c :: cs) = c :: cs :=
  (skipSpace_append h _).trans (skipSpace_cons hc)

/-- White space in front of the character that closes a list is passed over. -/
theorem skipSpace_closing {between : List Char} (h : Blank between) {c : Char}
    (hc : isSpace c = false) (rest : List Char) : skipSpace (between ++ [c] ++ rest) = c :: rest := by
  rw [List.append_assoc]
  exact skipSpace_append_cons h hc

/-- White space in front of a comma is passed over, and what follows the comma is left. -/
theorem skipSpace_comma {after : List Char} (h : Blank after) (before cs tail rest : List Char) :
    skipSpace (after ++ ',' :: (before ++ (cs ++ tail)) ++ rest)
      = ',' :: (before ++ (cs ++ (tail ++ rest))) := by
  simp only [List.append_assoc, List.cons_append]
  exact skipSpace_append_cons h (by decide)

/-- What stands behind a value in a list does not go on with the value. -/
theorem ends_append {after : List Char} (hafter : Blank after) {c : Char} (cs : List Char)
    (hc : c = ',' ∨ c = ']' ∨ c = '\x7d') : Ends (after ++ c :: cs) := by
  cases after with
  | nil =>
    rintro _ ⟨⟩
    exact .inr hc
  | cons d after =>
    rintro _ ⟨⟩
    exact .inl (hafter d List.mem_cons_self)

theorem Behind.ends {β : Type} {closer : Char} {P : β → List Char → Prop} {xs : List β}
    {tail : List Char} (h : Behind closer P xs tail) (hcloser : closer = ']' ∨ closer = '\x7d')
    (rest : List Char) : Ends (tail ++ rest) := by
  cases h with
  | last hafter =>
    rw [List.append_assoc]
    exact ends_append hafter rest (.inr hcloser)
  | more hafter =>
    rw [List.append_assoc]
    exact ends_append hafter _ (.inl rfl)

/-- A part of a list takes a character at least. -/
theorem Behind.length_lt {β : Type} {closer : Char} {P : β → List Char → Prop} {xs : List β}
    {tail : List Char} (h : Behind closer P xs tail) : xs.length < tail.length := by
  induction h with
  | last => simp
  | more _ _ _ _ ih =>
    simp only [List.length_append, List.length_cons]
    omega

/-! ## Strings -/

/-- Passing over a code unit leaves what stands behind its four digits. -/
theorem readHex_of_hex4? {a b c d : Char} {n : Nat} (h : hex4? a b c d = some n) (rest : List Char) :
    readHex (a :: b :: c :: d :: rest) = .ok (n, rest) := by
  rw [readHex, h]

theorem skipCharsWithin_backslash (fuel : Nat) {cs rest : List Char} (h : skipEscape cs = .ok rest) :
    skipCharsWithin (fuel + 1) ('\\' :: cs) = skipCharsWithin fuel rest := by
  rw [skipCharsWithin, if_neg (by decide), if_pos rfl, h]
  rfl

theorem skipEscape_unit {a b c d : Char} {n : Nat} (h : hex4? a b c d = some n) (rest : List Char) :
    skipEscape ('u' :: a :: b :: c :: d :: rest) = .ok rest := by
  rw [skipEscape, readHex_of_hex4? h]
  rfl

/-- No letter that stands for one character begins a code unit. -/
theorem ne_u_of_plainEscape? {l c : Char} (h : plainEscape? l = some c) : l ≠ 'u' := by
  rintro rfl
  have hnone : plainEscape? 'u' = none := by decide
  rw [hnone] at h
  cases h

theorem skipEscape_letter {l c : Char} (h : plainEscape? l = some c) (rest : List Char) :
    skipEscape (l :: rest) = .ok rest := by
  rw [skipEscape, if_pos (by rw [h]; rfl)]
  exact ne_u_of_plainEscape? h

/-- Characters that are spelled are passed over up to the quote behind them. -/
theorem SpellsChars.skipCharsWithin {raw : List Char} {content : Option (List Char)}
    (h : SpellsChars raw content) {fuel : Nat} (hfuel : raw.length < fuel) (rest : List Char) :
    skipCharsWithin fuel (raw ++ '"' :: rest) = .ok rest := by
  induction h generalizing fuel with
  | nil =>
    obtain ⟨fuel, rfl⟩ := Nat.exists_eq_add_of_le' hfuel
    rfl
  | plain hquote hbackslash hcontrol _ ih =>
    obtain ⟨fuel, rfl⟩ := Nat.exists_eq_add_of_le' (Nat.zero_lt_of_lt hfuel)
    rw [List.cons_append, Json.skipCharsWithin, if_neg hquote, if_neg hbackslash,
      if_neg (Nat.not_lt.mpr hcontrol)]
    exact ih (Nat.lt_of_succ_lt_succ hfuel)
  | letter hletter _ ih =>
    obtain ⟨fuel, rfl⟩ := Nat.exists_eq_add_of_le' (Nat.zero_lt_of_lt hfuel)
    refine (skipCharsWithin_backslash fuel (skipEscape_letter hletter _)).trans (ih ?_)
    simp only [List.length_cons] at hfuel
    omega
  | unit hunit _ _ _ ih | alone hunit _ _ ih =>
    obtain ⟨fuel, rfl⟩ := Nat.exists_eq_add_of_le' (Nat.zero_lt_of_lt hfuel)
    refine (skipCharsWithin_backslash fuel (skipEscape_unit hunit _)).trans (ih ?_)
    simp only [List.length_cons] at hfuel
    omega
  | pair hhigh _ hlow _ _ ih =>
    have hle : 2 ≤ fuel := by
      simp only [List.length_cons] at hfuel
      omega
    obtain ⟨fuel, rfl⟩ := Nat.exists_eq_add_of_le' hle
    refine (skipCharsWithin_backslash (fuel + 1) (skipEscape_unit hhigh _)).trans ?_
    refine (skipCharsWithin_backslash fuel (skipEscape_unit hlow _)).trans (ih ?_)
    simp only [List.length_cons] at hfuel
    omega

/-- A string is passed over behind its opening quote. -/
theorem SpellsChars.skipString {raw : List Char} {content : Option (List Char)}
    (h : SpellsChars raw content) (rest : List Char) : skipString (raw ++ '"' :: rest) = .ok rest :=
  h.skipCharsWithin (by simp only [List.length_append]; omega) rest

/-! ## Numbers -/

theorem skipDigits_append {ds : List Char} (hds : Decimal.Digits ds) {rest : List Char}
    (hrest : EndsDigits rest) : skipDigits (ds ++ rest) = .ok rest := by
  rw [skipDigits, digits_append hds.2 hrest]
  obtain ⟨c, cs, rfl⟩ := List.exists_cons_of_ne_nil hds.1
  rfl

/-- An exponent does not go on with a digit where one ended. -/
theorem IsExponent.exists_cons {cs : List Char} (h : IsExponent cs) :
    ∃ mark tail, cs = mark :: tail ∧ isExponentMark mark = true := by
  cases h with
  | mk hmark => exact ⟨_, _, rfl, hmark⟩

theorem isDigit_of_isExponentMark {c : Char} (h : isExponentMark c = true) : c.isDigit = false := by
  simp only [isExponentMark, Bool.or_eq_true, decide_eq_true_eq] at h
  rcases h with rfl | rfl <;> rfl

theorem IsExponent.endsDigits {cs : List Char} (h : IsExponent cs) (rest : List Char) :
    EndsDigits (cs ++ rest) := by
  obtain ⟨mark, tail, rfl, hmark⟩ := h.exists_cons
  rintro _ ⟨⟩
  exact isDigit_of_isExponentMark hmark

theorem IsTail.endsDigits {cs : List Char} (h : IsTail cs) (rest : List Char) :
    EndsDigits (cs ++ rest) := by
  cases h with
  | fraction | both =>
    rintro _ ⟨⟩
    rfl
  | exponent h => exact h.endsDigits rest

/-- Behind the digits of an exponent's size stands nothing of the exponent. -/
theorem exponentSign_append {sign ds : List Char} (hsign : sign = [] ∨ sign = ['+'] ∨ sign = ['-'])
    (hds : Decimal.Digits ds) (rest : List Char) :
    (exponentSign (sign ++ ds ++ rest)).2 = ds ++ rest := by
  rcases hsign with rfl | rfl | rfl
  · obtain ⟨c, cs, rfl⟩ := List.exists_cons_of_ne_nil hds.1
    have hc : c.isDigit = true := hds.2 c List.mem_cons_self
    rw [List.nil_append, List.cons_append]
    unfold exponentSign
    split
    · rename_i heq
      rw [(List.cons.inj heq).1] at hc
      exact absurd hc (by decide)
    · rename_i heq
      rw [(List.cons.inj heq).1] at hc
      exact absurd hc (by decide)
    · rfl
  · rfl
  · rfl

theorem IsExponent.skipExponent {cs : List Char} (h : IsExponent cs) {rest : List Char}
    (hrest : Ends rest) : skipExponent (cs ++ rest) = .ok rest := by
  cases h with
  | mk hmark hsign hds =>
    rw [List.cons_append, Json.skipExponent, if_pos hmark, exponentSign_append hsign hds]
    exact skipDigits_append hds hrest.endsDigits

/-- Where a value ends there is no exponent. -/
theorem skipExponent_ends {rest : List Char} (hrest : Ends rest) : skipExponent rest = .ok rest := by
  cases rest with
  | nil => rfl
  | cons c rest =>
    rw [skipExponent, (hrest.head_ne c rfl).2.2]
    rfl

theorem skipAfterInteger_ends {rest : List Char} (hrest : Ends rest) :
    skipAfterInteger rest = .ok rest := by
  cases rest with
  | nil => rfl
  | cons c rest =>
    rw [skipAfterInteger, skipExponent_ends hrest]
    exact fun more hmore => (hrest.head_ne c rfl).2.1 (List.cons.inj hmore).1

theorem IsTail.skipAfterInteger {cs : List Char} (h : IsTail cs) {rest : List Char}
    (hrest : Ends rest) : skipAfterInteger (cs ++ rest) = .ok rest := by
  cases h with
  | fraction hds =>
    rw [List.cons_append, Json.skipAfterInteger, skipDigits_append hds hrest.endsDigits]
    exact skipExponent_ends hrest
  | exponent hexponent =>
    have hskip := hexponent.skipExponent hrest
    obtain ⟨mark, tail, rfl, hmark⟩ := hexponent.exists_cons
    rw [List.cons_append] at hskip ⊢
    rw [Json.skipAfterInteger, hskip]
    rintro more hmore
    rw [(List.cons.inj hmore).1] at hmark
    exact absurd hmark (by decide)
  | both hds hexponent =>
    rw [List.cons_append, List.append_assoc, Json.skipAfterInteger,
      skipDigits_append hds (hexponent.endsDigits rest)]
    exact hexponent.skipExponent hrest

/-- What stands behind the digits of a number is left to its fraction and exponent. -/
theorem skipNumber_of_digits (negative : Bool) {cs rest : List Char} {d : Nat} {ds : List Nat}
    (hminus : ∀ more, cs ≠ '-' :: more) (hdigits : digits cs = (d :: ds, rest))
    (hzero : d = 0 → ds = []) : skipNumber (minus negative ++ cs) = skipAfterInteger rest := by
  -- the sign is dropped before anything is looked at
  have hunsigned : skipNumber (minus negative ++ cs) = skipNumber ('-' :: cs) := by
    cases negative with
    | true => rfl
    | false =>
      show skipNumber cs = skipNumber ('-' :: cs)
      unfold skipNumber
      split
      · exact absurd rfl (hminus _)
      · rfl
  rw [hunsigned, skipNumber, hdigits]
  cases d with
  | zero =>
    rw [hzero rfl]
    rfl
  | succ d => rfl

/-- A number is passed over up to what stands behind its digits. -/
theorem skipNumber_toDigits (negative : Bool) (n : Nat) {rest : List Char}
    (hrest : EndsDigits rest) :
    skipNumber (minus negative ++ (Nat.toDigits 10 n ++ rest)) = skipAfterInteger rest := by
  obtain ⟨c, cs, hcons, -, hminus⟩ := Decimal.exists_cons_toDigits n
  obtain ⟨d, ds, hds, hzero⟩ := map_toDigits_cases n
  have hdigits := digits_toDigits n hrest
  rw [hds] at hdigits
  refine skipNumber_of_digits negative (fun more hmore => hminus ?_) hdigits hzero
  rw [hcons] at hmore
  exact (List.cons.inj hmore).1

/-- A number begins with a minus sign or a digit. -/
theorem exists_cons_number (negative : Bool) (n : Nat) (rest : List Char) :
    ∃ c cs, minus negative ++ (Nat.toDigits 10 n ++ rest) = c :: cs ∧ beginsNumber c = true := by
  cases negative with
  | true => exact ⟨'-', _, rfl, rfl⟩
  | false =>
    obtain ⟨c, cs, hcons, -, -⟩ := Decimal.exists_cons_toDigits n
    have hc : c.isDigit = true := Decimal.isDigit_of_mem (hcons ▸ List.mem_cons_self)
    refine ⟨c, cs ++ rest, by rw [hcons]; rfl, ?_⟩
    rw [beginsNumber, hc, Bool.or_true]

/-- What begins a number begins no other value. -/
theorem ne_of_beginsNumber {c : Char} (h : beginsNumber c = true) :
    isSpace c = false ∧ c ≠ 'n' ∧ c ≠ 't' ∧ c ≠ 'f' ∧ c ≠ '"' ∧ c ≠ '[' ∧ c ≠ ']' ∧ c ≠ '\x7b' := by
  rw [beginsNumber, Bool.or_eq_true, decide_eq_true_eq] at h
  rcases h with rfl | hdigit
  · decide
  · refine ⟨isSpace_of_isDigit hdigit, ?_, ?_, ?_, ?_, ?_, ?_, ?_⟩ <;> rintro rfl <;>
      exact absurd hdigit (by decide)

/-! ## Values -/

/-- What the first character of a value tells of it. -/
structure Value.Begins (v : Value) (c : Char) : Prop where
  isSpace_eq : isSpace c = false
  ne_bracket : c ≠ ']'
  text : c = '"' → ∃ s, v = .text s
  number : beginsNumber c = true → (∃ negative n, v = .integer negative n) ∨ v = .fractional
  array : c = '[' → ∃ items, v = .array items
  object : c = '\x7b' → ∃ members, v = .object members

/-- A number begins like no other value. -/
theorem Value.begins_number {v : Value} (hv : (∃ negative n, v = .integer negative n) ∨ v = .fractional)
    {c : Char} (hc : beginsNumber c = true) : v.Begins c := by
  obtain ⟨hspace, -, -, -, hquote, hbracket, hclose, hbrace⟩ := ne_of_beginsNumber hc
  exact ⟨hspace, hclose, fun h => absurd h hquote, fun _ => hv, fun h => absurd h hbracket,
    fun h => absurd h hbrace⟩

/-- A value begins with a character of its own. -/
theorem Spells.begins {v : Value} {cs : List Char} (h : Spells v cs) :
    ∃ c tail, cs = c :: tail ∧ v.Begins c := by
  cases h with
  | integer negative n =>
    obtain ⟨c, tail, hcons, hc⟩ := exists_cons_number negative n []
    rw [List.append_nil] at hcons
    exact ⟨c, tail, hcons, Value.begins_number (.inl ⟨negative, n, rfl⟩) hc⟩
  | fractional negative n =>
    obtain ⟨c, tail, hcons, hc⟩ := exists_cons_number negative n _
    exact ⟨c, tail, hcons, Value.begins_number (.inr rfl) hc⟩
  | null | yes | no | text | array | object =>
    exact ⟨_, _, rfl, ⟨rfl, by decide, by simp, by simp [beginsNumber], by simp, by simp⟩⟩

/-- A member begins with the quote that opens its key. -/
theorem Member.exists_cons {β : Type} {P : β → List Char → Prop} {m : Option String × β} {cs : List Char}
    (h : Member P m cs) : ∃ tail, cs = '"' :: tail := by
  cases h with
  | mk => exact ⟨_, rfl⟩

/-- White space in front of a value is passed over. -/
theorem Spells.skipSpace_append {v : Value} {cs : List Char} (h : Spells v cs) {before : List Char}
    (hbefore : Blank before) (rest : List Char) : skipSpace (before ++ (cs ++ rest)) = cs ++ rest := by
  obtain ⟨c, tail, rfl, hc⟩ := h.begins
  exact skipSpace_append_cons hbefore hc.isSpace_eq

theorem skipColon_append {gap : List Char} (h : Blank gap) (cs : List Char) :
    skipColon (gap ++ ':' :: cs) = .ok cs := by
  rw [skipColon, skipSpace_append_cons h (by decide)]
  rfl

/-- White space in front does not matter to the passing over a value. -/
theorem Spells.skipValueWithin_append {v : Value} {cs : List Char} (h : Spells v cs)
    {before : List Char} (hbefore : Blank before) (fuel : Nat) (rest : List Char) :
    skipValueWithin fuel (before ++ (cs ++ rest)) = skipValueWithin fuel (cs ++ rest) := by
  cases fuel with
  | zero => rw [skipValueWithin, skipValueWithin]
  | succ fuel =>
    have hskip : skipSpace (cs ++ rest) = cs ++ rest := h.skipSpace_append blank_nil rest
    rw [skipValueWithin, skipValueWithin, h.skipSpace_append hbefore, hskip]

/-- A value is passed over as a number if it begins as one. -/
theorem skipValueWithin_number (fuel : Nat) {c : Char} (h : beginsNumber c = true) (cs : List Char) :
    skipValueWithin (fuel + 1) (c :: cs) = skipNumber (c :: cs) := by
  obtain ⟨hspace, hn, ht, hf, -⟩ := ne_of_beginsNumber h
  rw [skipValueWithin, skipSpace_cons hspace]
  dsimp only
  rw [if_neg hn, if_neg ht, if_neg hf, if_pos h]

/-- So many steps suffice for every value that has no more characters. -/
def PassesWithin (fuel : Nat) : Prop :=
  ∀ {v cs before rest}, Spells v cs → cs.length ≤ fuel → Blank before → Ends rest →
    skipValueWithin fuel (before ++ (cs ++ rest)) = .ok rest

section Parts

variable {fuel : Nat} {cs raw gap value more rest : List Char} {content : Option (List Char)}

/-- Behind the last item stands the closing bracket. -/
theorem skipItemsWithin_close (hvalue : skipValueWithin fuel cs = .ok more)
    (hclose : skipSpace more = ']' :: rest) : skipItemsWithin (fuel + 1) cs = .ok rest := by
  rw [skipItemsWithin]
  simp only [hvalue, hclose, bind, Except.bind]

/-- Behind every other item stands a comma. -/
theorem skipItemsWithin_comma (hvalue : skipValueWithin fuel cs = .ok more)
    (hcomma : skipSpace more = ',' :: rest) :
    skipItemsWithin (fuel + 1) cs = skipItemsWithin fuel rest := by
  rw [skipItemsWithin]
  simp only [hvalue, hcomma, bind, Except.bind]

/-- Behind the last member stands the closing brace. -/
theorem skipMembersWithin_close (hkey : SpellsChars raw content) (hgap : Blank gap)
    (hcs : skipSpace cs = '"' :: (raw ++ '"' :: (gap ++ ':' :: value)))
    (hvalue : skipValueWithin fuel value = .ok more) (hclose : skipSpace more = '\x7d' :: rest) :
    skipMembersWithin (fuel + 1) cs = .ok rest := by
  rw [skipMembersWithin, hcs]
  simp only [hkey.skipString, skipColon_append hgap, hvalue, hclose, bind, Except.bind]

/-- Behind every other member stands a comma. -/
theorem skipMembersWithin_comma (hkey : SpellsChars raw content) (hgap : Blank gap)
    (hcs : skipSpace cs = '"' :: (raw ++ '"' :: (gap ++ ':' :: value)))
    (hvalue : skipValueWithin fuel value = .ok more) (hcomma : skipSpace more = ',' :: rest) :
    skipMembersWithin (fuel + 1) cs = skipMembersWithin fuel rest := by
  rw [skipMembersWithin, hcs]
  simp only [hkey.skipString, skipColon_append hgap, hvalue, hcomma, bind, Except.bind]

end Parts

/-- The items of an array are passed over. -/
theorem skipItemsWithin_behind {items : List Value} {tail : List Char}
    (h : Behind ']' Spells items tail) {fuel : Nat} (hpasses : ∀ k < fuel, PassesWithin k)
    {v : Value} {cs before : List Char} (hv : Spells v cs) (hlength : cs.length + tail.length ≤ fuel)
    (hbefore : Blank before) (rest : List Char) :
    skipItemsWithin fuel (before ++ (cs ++ (tail ++ rest))) = .ok rest := by
  have hends := h.ends (.inl rfl) rest
  -- along the spelling; an item and what stands behind it take one step more than the next item does
  induction h generalizing fuel v cs before with
  | @last after hafter =>
    rw [List.length_append, List.length_singleton] at hlength
    obtain ⟨fuel, rfl⟩ := Nat.exists_eq_add_of_le' (m := 1) (n := fuel) (by omega)
    exact skipItemsWithin_close (hpasses fuel (Nat.lt_succ_self fuel) hv (by omega) hbefore hends)
      (skipSpace_closing hafter (by decide) rest)
  | @more after gap next tail x xs hafter hgap hx htail ih =>
    simp only [List.length_append, List.length_cons] at hlength
    obtain ⟨fuel, rfl⟩ := Nat.exists_eq_add_of_le' (m := 1) (n := fuel) (by omega)
    rw [skipItemsWithin_comma (hpasses fuel (Nat.lt_succ_self fuel) hv (by omega) hbefore hends)
      (skipSpace_comma hafter gap next tail rest)]
    exact ih (fun k hk => hpasses k (Nat.lt_succ_of_lt hk)) hx (by omega) hgap
      (htail.ends (.inl rfl) rest)

/-- The members of an object are passed over. -/
theorem skipMembersWithin_behind {members : List (Option String × Value)} {tail : List Char}
    (h : Behind '\x7d' (Member Spells) members tail) {fuel : Nat}
    (hpasses : ∀ k < fuel, PassesWithin k) {m : Option String × Value} {cs before : List Char}
    (hm : Member Spells m cs) (hlength : cs.length + tail.length ≤ fuel) (hbefore : Blank before)
    (rest : List Char) : skipMembersWithin fuel (before ++ (cs ++ (tail ++ rest))) = .ok rest := by
  have hends := h.ends (.inr rfl) rest
  induction h generalizing fuel m cs before with
  | @last after hafter =>
    cases hm with
    | @mk key v raw gap between cs hkey hgap hbetween hv =>
      simp only [List.length_append, List.length_cons] at hlength
      obtain ⟨fuel, rfl⟩ := Nat.exists_eq_add_of_le' (m := 1) (n := fuel) (by omega)
      refine skipMembersWithin_close hkey hgap ?_
        (hpasses fuel (Nat.lt_succ_self fuel) hv (by omega) hbetween hends)
        (skipSpace_closing hafter (by decide) rest)
      simp only [List.cons_append, List.append_assoc]
      exact skipSpace_append_cons hbefore (by decide)
  | @more after between next tail x xs hafter hbetween' hx htail ih =>
    cases hm with
    | @mk key v raw gap between' cs hkey hgap hbetween hv =>
      simp only [List.length_append, List.length_cons] at hlength
      obtain ⟨fuel, rfl⟩ := Nat.exists_eq_add_of_le' (m := 1) (n := fuel) (by omega)
      refine (skipMembersWithin_comma hkey hgap ?_
        (hpasses fuel (Nat.lt_succ_self fuel) hv (by omega) hbetween hends)
        (skipSpace_comma hafter between next tail rest)).trans ?_
      · simp only [List.cons_append, List.append_assoc]
        exact skipSpace_append_cons hbefore (by decide)
      · exact ih (fun k hk => hpasses k (Nat.lt_succ_of_lt hk)) hx (by omega) hbetween'
          (htail.ends (.inr rfl) rest)

section Brackets

variable (fuel : Nat) {cs tail : List Char} {c : Char}

/-- The closing bracket may stand right behind the opening one. -/
theorem skipValueWithin_bracket_close (h : skipSpace cs = ']' :: tail) :
    skipValueWithin (fuel + 1) ('[' :: cs) = .ok tail := by
  simp [skipValueWithin, skipSpace_cons, isSpace, beginsNumber, h]

/-- Behind an opening bracket stand items, unless the closing one stands there. -/
theorem skipValueWithin_bracket (h : skipSpace cs = c :: tail) (hc : c ≠ ']') :
    skipValueWithin (fuel + 1) ('[' :: cs) = skipItemsWithin fuel (c :: tail) := by
  simp [skipValueWithin, skipSpace_cons, isSpace, beginsNumber, h, hc]

/-- The closing brace may stand right behind the opening one. -/
theorem skipValueWithin_brace_close (h : skipSpace cs = '\x7d' :: tail) :
    skipValueWithin (fuel + 1) ('\x7b' :: cs) = .ok tail := by
  simp [skipValueWithin, skipSpace_cons, isSpace, beginsNumber, h]

/-- Behind an opening brace stand members, unless the closing one stands there. -/
theorem skipValueWithin_brace (h : skipSpace cs = '"' :: tail) :
    skipValueWithin (fuel + 1) ('\x7b' :: cs) = skipMembersWithin fuel ('"' :: tail) := by
  simp [skipValueWithin, skipSpace_cons, isSpace, beginsNumber, h]

end Brackets

/-- A value takes no more steps than it has characters. -/
theorem passesWithin (fuel : Nat) : PassesWithin fuel := by
  -- the parts of a list are passed over with less and less fuel, so one step less is not enough
  induction fuel using Nat.strongRecOn with
  | ind fuel ih =>
    intro v cs before rest hv hlength hbefore hrest
    rw [hv.skipValueWithin_append hbefore]
    obtain ⟨c, tail, hcons, -⟩ := hv.begins
    rw [hcons, List.length_cons] at hlength
    obtain ⟨fuel, rfl⟩ := Nat.exists_eq_add_of_le' (m := 1) (n := fuel) (by omega)
    cases hv with
    | null | yes | no => rfl
    | integer negative n =>
      obtain ⟨d, ds, hnumber, hd⟩ := exists_cons_number negative n rest
      rw [List.append_assoc, hnumber, skipValueWithin_number fuel hd, ← hnumber,
        skipNumber_toDigits negative n hrest.endsDigits, skipAfterInteger_ends hrest]
    | fractional negative n htail =>
      obtain ⟨d, ds, hnumber, hd⟩ := exists_cons_number negative n (_ ++ rest)
      rw [List.append_assoc, List.append_assoc, hnumber, skipValueWithin_number fuel hd, ← hnumber,
        skipNumber_toDigits negative n (htail.endsDigits rest), htail.skipAfterInteger hrest]
    | @text s raw h =>
      show skipString (raw ++ ['"'] ++ rest) = _
      rw [List.append_assoc]
      exact h.skipString rest
    | array h =>
      cases h with
      | @empty between hbetween =>
        exact skipValueWithin_bracket_close fuel (skipSpace_closing hbetween (by decide) rest)
      | @some between cs more x xs hbetween hx hmore =>
        obtain ⟨d, ds, rfl, hd⟩ := hx.begins
        have hskip : skipSpace (between ++ (d :: ds ++ more) ++ rest) = d :: (ds ++ (more ++ rest)) := by
          simp only [List.append_assoc, List.cons_append]
          exact skipSpace_append_cons hbetween hd.isSpace_eq
        rw [List.cons_append, skipValueWithin_bracket fuel hskip hd.ne_bracket]
        cases hcons
        simp only [List.length_append] at hlength
        exact skipItemsWithin_behind hmore (fun k hk => ih k (Nat.lt_succ_of_lt hk)) hx
          (by omega) blank_nil rest
    | object h =>
      cases h with
      | @empty between hbetween =>
        exact skipValueWithin_brace_close fuel (skipSpace_closing hbetween (by decide) rest)
      | @some between cs more x xs hbetween hx hmore =>
        obtain ⟨ds, rfl⟩ := hx.exists_cons
        have hskip : skipSpace (between ++ ('"' :: ds ++ more) ++ rest) = '"' :: (ds ++ (more ++ rest)) := by
          simp only [List.append_assoc, List.cons_append]
          exact skipSpace_append_cons hbetween (by decide)
        rw [List.cons_append, skipValueWithin_brace fuel hskip]
        cases hcons
        simp only [List.length_append] at hlength
        exact skipMembersWithin_behind hmore (fun k hk => ih k (Nat.lt_succ_of_lt hk)) hx
          (by omega) blank_nil rest

/-- **Values are passed over.** Whatever value is spelled, what is left is what stands behind it. -/
theorem Spells.skipValue {v : Value} {cs before rest : List Char} (h : Spells v cs)
    (hbefore : Blank before) (hrest : Ends rest) :
    skipValue (before ++ (cs ++ rest)) = .ok rest := by
  rw [Json.skipValue]
  refine passesWithin _ h ?_ hbefore hrest
  simp only [List.length_append]
  omega

end IdMint.Json
