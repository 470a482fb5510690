import IdMint.Text.Decimal

/-! # Texts brought to a size

A text that is too long for a size loses what it has in front, and one that is too short is filled up in
front. Sizes are counted in bytes, so a cut may fall inside a character, where there is no text to be
had. A numeral has one byte for each digit, so it can be brought to any size. -/

namespace IdMint

namespace Text

/-- The number of bytes that characters take. -/
def byteSize : List Char → Nat
  | [] => 0
  | c :: cs => c.utf8Size + byteSize cs

@[simp] theorem byteSize_nil : byteSize [] = 0 := rfl

@[simp] theorem byteSize_cons (c : Char) (cs : List Char) :
    byteSize (c :: cs) = c.utf8Size + byteSize cs := rfl

/-- No characters are without bytes. -/
theorem byteSize_eq_zero_iff {cs : List Char} : byteSize cs = 0 ↔ cs = [] := by
  cases cs with
  | nil => simp
  | cons c cs =>
    have hpos := c.utf8Size_pos
    simp only [byteSize_cons, reduceCtorEq, iff_false]
    omega

/-- The bytes of a text are those of its characters. -/
theorem byteSize_toList (text : String) : byteSize text.toList = text.utf8ByteSize := by
  suffices h : ∀ cs, byteSize cs = (String.ofList cs).utf8ByteSize by
    rw [h, String.ofList_toList]
  intro cs
  induction cs with
  | nil => rfl
  | cons c cs ih =>
    rw [byteSize_cons, ih, String.ofList_cons, String.utf8ByteSize_append,
      String.utf8ByteSize_singleton]

/-- Characters without so many bytes at their beginning. Nothing where they have fewer bytes, or where
the cut falls inside a character. -/
def dropBytes? : (count : Nat) → List Char → Option (List Char)
  | 0, cs => some cs
  | _ + 1, [] => none
  | n + 1, c :: cs => if c.utf8Size ≤ n + 1 then dropBytes? (n + 1 - c.utf8Size) cs else none

/-- What is left of characters stands behind a beginning of so many bytes. -/
theorem dropBytes?_eq_some_iff {count : Nat} {cs rest : List Char} :
    dropBytes? count cs = some rest ↔ ∃ front, cs = front ++ rest ∧ byteSize front = count := by
  fun_induction dropBytes? count cs with
  | case1 cs =>
    constructor
    · intro h
      exact ⟨[], Option.some.inj h, rfl⟩
    · rintro ⟨front, rfl, hsize⟩
      rw [byteSize_eq_zero_iff.mp hsize, List.nil_append]
  | case2 n =>
    -- nothing is left to drop, so only no bytes could be dropped
    refine iff_of_false nofun ?_
    rintro ⟨front, happend, hsize⟩
    rw [(List.append_eq_nil_iff.mp happend.symm).1] at hsize
    cases hsize
  | case3 n c cs hfits ih =>
    rw [ih]
    constructor
    · rintro ⟨front, rfl, hsize⟩
      refine ⟨c :: front, rfl, ?_⟩
      rw [byteSize_cons, hsize, Nat.add_sub_cancel' hfits]
    · rintro ⟨front, happend, hsize⟩
      rcases front with _ | ⟨d, front⟩
      · cases hsize
      · obtain ⟨rfl, rfl⟩ := List.cons.inj happend
        rw [byteSize_cons] at hsize
        exact ⟨front, rfl, Nat.eq_sub_of_add_eq' hsize⟩
  | case4 n c cs hlong =>
    -- the cut falls inside `c`, which every beginning but the empty one has as a whole
    refine iff_of_false nofun ?_
    rintro ⟨front, happend, hsize⟩
    rcases front with _ | ⟨d, front⟩
    · cases hsize
    · obtain ⟨rfl, -⟩ := List.cons.inj happend
      rw [byteSize_cons] at hsize
      omega

-- `ä` has two bytes: no text begins between them, and one begins behind them
example : dropBytes? 1 ['ä', 'b'] = none ∧ dropBytes? 2 ['ä', 'b'] = some ['b'] := by decide

/-- The last bytes of a text, as many as the size says. A text of fewer bytes is filled up in front until
it has so many characters. Nothing where the cut falls inside a character. -/
def fit? (fill : Char) (size : Nat) (cs : List Char) : Option (List Char) :=
  if size ≤ byteSize cs then dropBytes? (byteSize cs - size) cs
  else some (cs.leftpad size fill)

section Narrow

variable {cs : List Char} (hnarrow : ∀ c ∈ cs, c.utf8Size = 1)
include hnarrow

/-- Characters of one byte each take as many bytes as they are. -/
theorem byteSize_of_narrow : byteSize cs = cs.length := by
  induction cs with
  | nil => rfl
  | cons c cs ih =>
    rw [byteSize_cons, hnarrow c List.mem_cons_self, ih fun d hd => hnarrow d (List.mem_cons_of_mem c hd),
      List.length_cons, Nat.add_comm]

/-- Where each character has one byte, there is a text behind each of them. -/
theorem dropBytes?_of_narrow {count : Nat} (hle : count ≤ cs.length) :
    dropBytes? count cs = some (cs.drop count) := by
  refine dropBytes?_eq_some_iff.mpr ⟨cs.take count, (List.take_append_drop count cs).symm, ?_⟩
  rw [byteSize_of_narrow fun c hc => hnarrow c (List.mem_of_mem_take hc), List.length_take,
    Nat.min_eq_left hle]

/-- Characters of one byte each can be brought to any size. -/
theorem fit?_of_narrow (fill : Char) (size : Nat) :
    fit? fill size cs = some
      (if size ≤ cs.length then cs.drop (cs.length - size) else cs.leftpad size fill) := by
  rw [fit?, byteSize_of_narrow hnarrow]
  split
  · exact dropBytes?_of_narrow hnarrow (Nat.sub_le _ _)
  · rfl

end Narrow

end Text

namespace Decimal

/-- A digit takes one byte. -/
theorem utf8Size_of_isDigit {c : Char} (h : c.isDigit = true) : c.utf8Size = 1 := by
  have hascii : c.toNat ≤ 127 := Nat.le_trans (bounds_of_isDigit h).2 (by decide)
  exact Char.utf8Size_eq_one_iff.mpr (UInt32.le_iff_toNat_le.mpr hascii)

theorem utf8Size_of_mem_toDigits {n : Nat} : ∀ c ∈ Nat.toDigits 10 n, c.utf8Size = 1 :=
  fun _ hc => utf8Size_of_isDigit (Nat.isDigit_of_mem_toDigits (by decide) (by decide) hc)

/-- The digits of a number can be brought to any width. -/
theorem isSome_fit?_toDigits (width n : Nat) :
    (Text.fit? '0' width (Nat.toDigits 10 n)).isSome = true :=
  Option.isSome_of_eq_some (Text.fit?_of_narrow utf8Size_of_mem_toDigits '0' width)

/-- The numeral of `n` brought to a width: its rightmost digits, or all of them behind zeros. -/
def fitted (width n : Nat) : String :=
  String.ofList ((Text.fit? '0' width (Nat.toDigits 10 n)).get (isSome_fit?_toDigits width n))

end Decimal

end IdMint
