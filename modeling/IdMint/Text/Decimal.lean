/-! # Decimal numerals

A fixed-width numeral shows the rightmost digits of a number, with zeros on the left where the
number is shorter. A reader takes one optional sign and then digits only: no blanks, no separators,
any number of leading zeros. -/

namespace IdMint

-- Powers are those of the core library, also where a library of algebra offers its own.
attribute [default_instance (high + 1)] instPowNat
attribute [scoped instance (high)] instPowNat

namespace Decimal

/-- Puts the `width` rightmost decimal digits of `n` in front of `tail`. -/
def prepend : (width n : Nat) → (tail : List Char) → List Char
  | 0, _, tail => tail
  | w + 1, n, tail => prepend w (n / 10) (Nat.digitChar (n % 10) :: tail)

@[simp] theorem prepend_zero (n : Nat) (tail : List Char) : prepend 0 n tail = tail := rfl

@[simp] theorem prepend_succ (w n : Nat) (tail : List Char) :
    prepend (w + 1) n tail = prepend w (n / 10) (Nat.digitChar (n % 10) :: tail) := rfl

/-- The length of a fixed-width numeral is its width. -/
@[simp] theorem length_prepend (w n : Nat) (tail : List Char) :
    (prepend w n tail).length = w + tail.length := by
  induction w generalizing n tail with
  | zero => simp
  | succ w ih => simp [ih, Nat.add_assoc, Nat.add_comm 1]

/-- The numeral of `n` in exactly `width` digits: zeros on the left, or only the rightmost digits. -/
def fixed (width n : Nat) : String := String.ofList (prepend width n [])

/-- The numeral of `n` in at least `width` digits: zeros on the left where it is shorter. -/
def padded (width n : Nat) : String :=
  let digits := toString n
  if digits.length < width then fixed width n else digits

/-- The decimal digits are the characters from 48 to 57. -/
theorem bounds_of_isDigit {c : Char} (h : c.isDigit = true) : 48 ≤ c.toNat ∧ c.toNat ≤ 57 := by
  simp only [Char.isDigit, Bool.and_eq_true, decide_eq_true_eq] at h
  exact ⟨UInt32.le_iff_toNat_le.mp h.1, UInt32.le_iff_toNat_le.mp h.2⟩

/-- The number that one decimal digit stands for. -/
def digit? (c : Char) : Option Nat := if c.isDigit then some (c.toNat - '0'.toNat) else none

/-- The number that a nonempty run of digits denotes. -/
def natural? : List Char → Option Nat
  | [] => none
  | c :: cs => (c :: cs).foldlM (fun n d => (digit? d).map (10 * n + ·)) 0

@[simp] theorem natural?_nil : natural? [] = none := rfl

/-- Reads digits behind an optional plus sign. -/
def unsigned? : List Char → Option Nat
  | '+' :: cs => natural? cs
  | cs => natural? cs

/-- Reads digits behind an optional sign. -/
def signed? : List Char → Option Int
  | '-' :: cs => (natural? cs).map fun n => -(n : Int)
  | '+' :: cs => (natural? cs).map fun n => (n : Int)
  | cs => (natural? cs).map fun n => (n : Int)

/-- Reads an unsigned numeral that fits 64 bits. -/
def uint64? (text : String) : Option UInt64 := do
  let n ← unsigned? text.toList
  if n < UInt64.size then some (UInt64.ofNat n) else none

/-- Why a text is not read as an unsigned number. -/
inductive Fault
  /-- There is nothing to read. -/
  | empty
  /-- A character is no digit, or no digit is there. -/
  | invalidDigit
  /-- The number is too great. -/
  | overflow
  deriving DecidableEq, Inhabited, Repr

/-- The words for a fault. -/
def Fault.message : Fault → String
  | empty => "cannot parse integer from empty string"
  | invalidDigit => "invalid digit found in string"
  | overflow => "number too large to fit in target type"

/-- Reads digits behind the number `n`, up to the first character that is no digit or makes the number
too great. -/
def parseDigits (bound : Nat) : (n : Nat) → List Char → Except Fault Nat
  | n, [] => .ok n
  | n, c :: cs =>
    match digit? c with
    | none => .error .invalidDigit
    | some d => if 10 * n + d < bound then parseDigits bound (10 * n + d) cs else .error .overflow

/-- Reads an unsigned numeral that fits 64 bits, or tells what is the first thing wrong with it. -/
def parseUInt64 (text : String) : Except Fault UInt64 :=
  match text.toList with
  | [] => .error .empty
  | ['+'] => .error .invalidDigit
  | '+' :: cs | cs => (parseDigits UInt64.size 0 cs).map UInt64.ofNat

/-- The least and the greatest signed 64-bit number enclose `n`. -/
def FitsInt64 (n : Int) : Prop := -2 ^ 63 ≤ n ∧ n < 2 ^ 63

instance (n : Int) : Decidable (FitsInt64 n) := inferInstanceAs (Decidable (_ ∧ _))

/-- The signed 64-bit number of value `n`, if there is one. -/
def toInt64? (n : Int) : Option Int64 := if FitsInt64 n then some (Int64.ofInt n) else none

/-- Reads a signed numeral that fits 64 bits. -/
def int64? (text : String) : Option Int64 := signed? text.toList >>= toInt64?

end Decimal

end IdMint
