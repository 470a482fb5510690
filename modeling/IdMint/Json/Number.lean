import IdMint.Json.Text
import IdMint.Text.Decimal

/-! # JSON numbers

Reading the numbers of JSON. Only integers are told apart by their value; of a number with a point,
an exponent or too many digits it matters only whether it is well-formed and within the range of
double precision. Digits beyond 64 bits are dropped and counted, so a number is an integer of at most
64 bits times a power of ten. -/

namespace IdMint.Json

/-- A number as a reader tells it. -/
inductive Number
  /-- A natural number of at most 64 bits. -/
  | natural (n : Nat)
  /-- Any other number. -/
  | other
  deriving DecidableEq, Inhabited, Repr

/-! ## Range of double precision -/

/-- The nearest number with at most 53 significant bits; a tie goes to the even one. -/
def roundTo53 (n : Nat) : Nat :=
  let shift := n.log2 - 52
  if shift = 0 then n
  else
    let quotient := n >>> shift
    let rest := n % 2 ^ shift
    let half := 2 ^ (shift - 1)
    let up := half < rest ∨ (rest = half ∧ quotient % 2 = 1)
    (if up then quotient + 1 else quotient) <<< shift

/-- The least number that rounds to infinity in double precision. -/
def overflowBound : Nat := 2 ^ 1024 - 2 ^ 970

/-- Whether an integer times a power of ten is beyond the range of double precision when both factors
are rounded before they are multiplied. -/
def isBeyondRange (significand : Nat) (exponent : Int) : Bool :=
  if significand = 0 ∨ exponent < 0 then false
  else if 308 < exponent then true
  else overflowBound ≤ roundTo53 significand * roundTo53 (10 ^ exponent.toNat)

/-! ## Reading -/

/-- The digits at the front, and the characters behind them. -/
def digits (cs : List Char) : List Nat × List Char :=
  ((cs.takeWhile Char.isDigit).map fun c => c.toNat - 48, cs.dropWhile Char.isDigit)

/-- The number that digits denote. -/
def numberOf (ds : List Nat) : Nat := ds.foldl (fun n d => 10 * n + d) 0

/-- Appends digits to a number as long as it fits 64 bits: the number, how many digits it took, and
how many are left. -/
def appendDigits : (significand : Nat) → List Nat → Nat × Nat × Nat
  | significand, [] => (significand, 0, 0)
  | significand, d :: ds =>
    let longer := 10 * significand + d
    if longer < 2 ^ 64 then
      let (result, taken, left) := appendDigits longer ds
      (result, taken + 1, left)
    else (significand, 0, ds.length + 1)

/-- Ends the reading of a number that is no integer. -/
def endNumber (significand : Nat) (exponent : Int) (rest : List Char) :
    Except Fault (Number × List Char) :=
  if isBeyondRange significand exponent then .error .malformed else .ok (.other, rest)

/-- Whether the sign of an exponent is negative, and the characters behind the sign. -/
def exponentSign : List Char → Bool × List Char
  | '+' :: rest => (false, rest)
  | '-' :: rest => (true, rest)
  | rest => (false, rest)

/-- Reads an exponent behind its letter. -/
def readExponent (significand : Nat) (exponent : Int) (cs : List Char) :
    Except Fault (Number × List Char) :=
  let (negative, cs) := exponentSign cs
  match digits cs with
  | ([], []) => .error .truncated
  | ([], _ :: _) => .error .malformed
  | (ds, rest) =>
    let size : Int := numberOf ds
    if 2 ^ 31 ≤ size then
      if significand ≠ 0 ∧ !negative then .error .malformed else .ok (.other, rest)
    else endNumber significand (if negative then exponent - size else exponent + size) rest

/-- Whether a character begins an exponent. -/
def isExponentMark (c : Char) : Bool := c = 'e' || c = 'E'

/-- Reads the digits behind a decimal point, and an exponent if there is one. -/
def readFraction (significand : Nat) (exponent : Int) (cs : List Char) :
    Except Fault (Number × List Char) :=
  match digits cs with
  | ([], []) => .error .truncated
  | ([], _ :: _) => .error .malformed
  | (ds, rest) =>
    let (significand, taken, _) := appendDigits significand ds
    let exponent := exponent - taken
    match rest with
    | c :: more =>
      if isExponentMark c then readExponent significand exponent more
      else endNumber significand exponent rest
    | [] => endNumber significand exponent rest

/-- Reads what follows the digits of the integer part. -/
def readAfterInteger (negative : Bool) (ds : List Nat) (rest : List Char) :
    Except Fault (Number × List Char) :=
  let (significand, _, left) := appendDigits 0 ds
  let whole : Except Fault (Number × List Char) :=
    if 0 < left then endNumber significand left rest
    else .ok (if negative then .other else .natural significand, rest)
  match rest with
  | c :: more =>
    if c = '.' then readFraction significand left more
    else if isExponentMark c then readExponent significand left more
    else whole
  | [] => whole

/-- Reads a number whose sign, if it has one, has been read. A zero at the front stands alone. -/
def readUnsigned (negative : Bool) (cs : List Char) : Except Fault (Number × List Char) :=
  match digits cs with
  | ([], []) => .error .truncated
  | ([], _ :: _) => .error .malformed
  | (0 :: _ :: _, _) => .error .malformed
  | (ds, rest) => readAfterInteger negative ds rest

/-- Reads a number, which begins with a digit or a minus sign. -/
def readNumber : Reader Number
  | '-' :: rest => readUnsigned true rest
  | cs => readUnsigned false cs

/-! ## Passing over numbers -/

/-- Passes over one digit or more. -/
def skipDigits (cs : List Char) : Except Fault (List Char) :=
  match digits cs with
  | ([], _) => .error .malformed
  | (_, rest) => .ok rest

/-- Passes over an exponent, if there is one. -/
def skipExponent : List Char → Except Fault (List Char)
  | c :: rest => if isExponentMark c then skipDigits (exponentSign rest).2 else .ok (c :: rest)
  | [] => .ok []

/-- Passes over a fraction and an exponent, as far as they are there. -/
def skipAfterInteger : List Char → Except Fault (List Char)
  | '.' :: rest => do skipExponent (← skipDigits rest)
  | rest => skipExponent rest

/-- Passes over a number, which begins with a digit or a minus sign. Its size does not matter, and one
that ends too early counts as malformed. -/
def skipNumber (cs : List Char) : Except Fault (List Char) :=
  let unsigned := match cs with
    | '-' :: rest => rest
    | _ => cs
  match digits unsigned with
  | ([], _) => .error .malformed
  | (0 :: _ :: _, _) => .error .malformed
  | (_, rest) => skipAfterInteger rest

end IdMint.Json
