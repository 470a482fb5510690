import IdMint.Json.Record
import IdMint.Proofs.Numerals

/-! # The grammar of JSON

Values, and the texts that spell them. White space may stand around every part, a character of a string
may be escaped or not, and the members of an object are in any order. The escapes of a string need not be
those of characters: where half of a surrogate pair stands alone the string is well-formed, but spells
no text. -/

namespace IdMint.Json

/-- A value. Of a number with a fraction or an exponent it does not matter which one it is, and of a string
that spells no text neither. -/
inductive Value
  | null
  | boolean (b : Bool)
  /-- An integer: whether a minus sign stands in front, and the number behind it. -/
  | integer (negative : Bool) (size : Nat)
  | fractional
  /-- A string, with the text that it spells, if it spells one. -/
  | text (s : Option String)
  | array (items : List Value)
  /-- An object: its members as they stand, each with the text that its key spells. -/
  | object (members : List (Option String × Value))

/-- Characters that may stand between the parts of a document. -/
def Blank (cs : List Char) : Prop := ∀ c ∈ cs, isSpace c = true

/-! ## Strings -/

/-- The code unit is the first half of a surrogate pair. -/
def IsFirstHalf (unit : Nat) : Prop := 0xD800 ≤ unit ∧ unit ≤ 0xDBFF

/-- The code unit is the second half of a surrogate pair. -/
def IsSecondHalf (unit : Nat) : Prop := 0xDC00 ≤ unit ∧ unit ≤ 0xDFFF

instance : DecidablePred IsFirstHalf := fun _ => inferInstanceAs (Decidable (_ ∧ _))

instance : DecidablePred IsSecondHalf := fun _ => inferInstanceAs (Decidable (_ ∧ _))

/-- In front stands the escape of the second half of a surrogate pair. -/
def BeginsSecondHalf (raw : List Char) : Prop :=
  ∃ a b c d low more, raw = '\\' :: 'u' :: a :: b :: c :: d :: more ∧ hex4? a b c d = some low
    ∧ IsSecondHalf low

/-- What may stand between quotes, and the characters that it spells, if all of it spells characters. -/
inductive SpellsChars : List Char → Option (List Char) → Prop
  | nil : SpellsChars [] (some [])
  /-- A character that stands for itself. -/
  | plain {c : Char} {raw : List Char} {content : Option (List Char)} (hquote : c ≠ '"')
      (hbackslash : c ≠ '\\') (hcontrol : 0x20 ≤ c.toNat) (h : SpellsChars raw content) :
      SpellsChars (c :: raw) (content.map (c :: ·))
  /-- A letter behind a backslash. -/
  | letter {l c : Char} {raw : List Char} {content : Option (List Char)}
      (hletter : plainEscape? l = some c) (h : SpellsChars raw content) :
      SpellsChars ('\\' :: l :: raw) (content.map (c :: ·))
  /-- A code unit by itself. -/
  | unit {a b c d : Char} {n : Nat} {raw : List Char} {content : Option (List Char)}
      (hunit : hex4? a b c d = some n) (hfirst : ¬ IsFirstHalf n) (hsecond : ¬ IsSecondHalf n)
      (h : SpellsChars raw content) :
      SpellsChars ('\\' :: 'u' :: a :: b :: c :: d :: raw) (content.map (Char.ofNat n :: ·))
  /-- A surrogate pair. -/
  | pair {a b c d a' b' c' d' : Char} {high low : Nat} {raw : List Char}
      {content : Option (List Char)} (hhigh : hex4? a b c d = some high) (hfirst : IsFirstHalf high)
      (hlow : hex4? a' b' c' d' = some low) (hsecond : IsSecondHalf low)
      (h : SpellsChars raw content) :
      SpellsChars
        ('\\' :: 'u' :: a :: b :: c :: d :: '\\' :: 'u' :: a' :: b' :: c' :: d' :: raw)
        (content.map (Char.ofNat ((high - 0xD800) * 1024 + (low - 0xDC00) + 0x10000) :: ·))
  /-- Half of a surrogate pair that stands alone: a second half with no first one in front of it, or a
  first half with no second one behind it. -/
  | alone {a b c d : Char} {half : Nat} {raw : List Char} {content : Option (List Char)}
      (hhalf : hex4? a b c d = some half)
      (halone : IsSecondHalf half ∨ IsFirstHalf half ∧ ¬ BeginsSecondHalf raw)
      (h : SpellsChars raw content) : SpellsChars ('\\' :: 'u' :: a :: b :: c :: d :: raw) none

/-- Characters none of which has to be escaped spell themselves. -/
theorem SpellsChars.self {cs : List Char} (h : ∀ c ∈ cs, c ≠ '"' ∧ c ≠ '\\' ∧ 0x20 ≤ c.toNat) :
    SpellsChars cs (some cs) := by
  induction cs with
  | nil => exact .nil
  | cons c cs ih =>
    obtain ⟨hquote, hbackslash, hcontrol⟩ := h c List.mem_cons_self
    exact .plain hquote hbackslash hcontrol (ih fun d hd => h d (List.mem_cons_of_mem c hd))

/-! ## Numbers -/

/-- The sign of a number as it is spelled. -/
def minus (negative : Bool) : List Char := if negative then ['-'] else []

/-- An exponent: its letter, an optional sign, and digits. -/
inductive IsExponent : List Char → Prop
  | mk {mark : Char} {sign ds : List Char} (hmark : isExponentMark mark = true)
      (hsign : sign = [] ∨ sign = ['+'] ∨ sign = ['-']) (hds : Decimal.Digits ds) :
      IsExponent (mark :: (sign ++ ds))

/-- What makes a number one that is no integer: a fraction, an exponent, or both. -/
inductive IsTail : List Char → Prop
  | fraction {ds : List Char} (hds : Decimal.Digits ds) : IsTail ('.' :: ds)
  | exponent {cs : List Char} (h : IsExponent cs) : IsTail cs
  | both {ds cs : List Char} (hds : Decimal.Digits ds) (h : IsExponent cs) : IsTail ('.' :: (ds ++ cs))

/-! ## Lists -/

section Lists

variable {β : Type} (closer : Char) (P : β → List Char → Prop)

/-- What stands behind a part of a list: further parts, each behind a comma, and the closing character. -/
inductive Behind : List β → List Char → Prop
  | last {after : List Char} (hafter : Blank after) : Behind [] (after ++ [closer])
  | more {after before cs tail : List Char} {x : β} {xs : List β} (hafter : Blank after)
      (hbefore : Blank before) (hx : P x cs) (h : Behind xs tail) :
      Behind (x :: xs) (after ++ ',' :: (before ++ (cs ++ tail)))

/-- What stands behind the opening character of a list. -/
inductive Listed : List β → List Char → Prop
  | empty {between : List Char} (h : Blank between) : Listed [] (between ++ [closer])
  | some {before cs tail : List Char} {x : β} {xs : List β} (hbefore : Blank before) (hx : P x cs)
      (h : Behind closer P xs tail) : Listed (x :: xs) (before ++ (cs ++ tail))

/-- A member of an object: its key, a colon, and its value. -/
inductive Member : Option String × β → List Char → Prop
  | mk {key : Option String} {x : β} {raw gap before cs : List Char}
      (hkey : SpellsChars raw (key.map String.toList)) (hgap : Blank gap) (hbefore : Blank before)
      (hx : P x cs) :
      Member (key, x) ('"' :: (raw ++ '"' :: (gap ++ ':' :: (before ++ cs))))

end Lists

/-! ## Values -/

/-- The characters spell the value, without white space around it. -/
inductive Spells : Value → List Char → Prop
  | null : Spells .null ['n', 'u', 'l', 'l']
  | yes : Spells (.boolean true) ['t', 'r', 'u', 'e']
  | no : Spells (.boolean false) ['f', 'a', 'l', 's', 'e']
  | integer (negative : Bool) (n : Nat) :
      Spells (.integer negative n) (minus negative ++ Nat.toDigits 10 n)
  | fractional (negative : Bool) (n : Nat) {tail : List Char} (h : IsTail tail) :
      Spells .fractional (minus negative ++ (Nat.toDigits 10 n ++ tail))
  | text {s : Option String} {raw : List Char} (h : SpellsChars raw (s.map String.toList)) :
      Spells (.text s) ('"' :: (raw ++ ['"']))
  | array {items : List Value} {cs : List Char} (h : Listed ']' Spells items cs) :
      Spells (.array items) ('[' :: cs)
  | object {members : List (Option String × Value)} {cs : List Char}
      (h : Listed '\x7d' (Member Spells) members cs) : Spells (.object members) ('\x7b' :: cs)

/-- The text is a document that consists of the value. -/
def Document (v : Value) (document : String) : Prop :=
  ∃ before cs after, Blank before ∧ Spells v cs ∧ Blank after
    ∧ document.toList = before ++ (cs ++ after)

end IdMint.Json
