/-! # JSON strings

Reading and writing the strings of JSON. A reader takes the characters that are left and returns what
it read together with the characters behind it. What can go wrong is of three kinds: the text is no
JSON, it ends too early, or it is JSON of the wrong shape. -/

namespace IdMint.Json

/-- The kinds of failure of a JSON reader. -/
inductive Fault
  /-- The text is no JSON. -/
  | malformed
  /-- The text ends too early. -/
  | truncated
  /-- The text is JSON, but does not hold what was asked for. -/
  | mismatched
  deriving DecidableEq, Inhabited, Repr

/-- Reads a value from the front of the characters that are left. -/
abbrev Reader (α : Type) : Type := List Char → Except Fault (α × List Char)

/-- The characters that may stand between the parts of a document. -/
def isSpace (c : Char) : Bool := c = ' ' || c = '\n' || c = '\t' || c = '\r'

/-- The characters that are left behind the white space at the front. -/
def skipSpace (cs : List Char) : List Char := cs.dropWhile isSpace

@[simp] theorem skipSpace_nil : skipSpace [] = [] := rfl

/-! ## Reading -/

/-- The value of a hexadecimal digit. -/
def hexDigit? (c : Char) : Option Nat :=
  if c.isDigit then some (c.toNat - 48)
  else if 'a' ≤ c ∧ c ≤ 'f' then some (c.toNat - 87)
  else if 'A' ≤ c ∧ c ≤ 'F' then some (c.toNat - 55)
  else none

/-- The number that four hexadecimal digits denote. -/
def hex4? (a b c d : Char) : Option Nat := do
  return 4096 * (← hexDigit? a) + 256 * (← hexDigit? b) + 16 * (← hexDigit? c) + (← hexDigit? d)

/-- The bytes that characters take in UTF-8. -/
def byteLength (cs : List Char) : Nat := (String.ofList cs).utf8ByteSize

/-- What is wrong where four hexadecimal digits were expected: with fewer than four bytes left the
text ends too early. -/
def hexFault (cs : List Char) : Fault := if byteLength cs < 4 then .truncated else .malformed

/-- Reads the four hexadecimal digits of an escaped code unit. -/
def readHex : Reader Nat
  | a :: b :: c :: d :: rest =>
    match hex4? a b c d with
    | some n => .ok (n, rest)
    | none => .error (hexFault (a :: b :: c :: d :: rest))
  | cs => .error (hexFault cs)

/-- The characters behind a backslash and a letter that together stand for one character. -/
def plainEscape? (c : Char) : Option Char :=
  if c = '"' then some '"'
  else if c = '\\' then some '\\'
  else if c = '/' then some '/'
  else if c = 'b' then some '\x08'
  else if c = 'f' then some '\x0c'
  else if c = 'n' then some '\n'
  else if c = 'r' then some '\r'
  else if c = 't' then some '\t'
  else none

/-- Reads the second half of a surrogate pair behind a first half. -/
def readSecondHalf (high : Nat) : Reader Char
  | [] => .error .truncated
  | '\\' :: [] => .error .truncated
  | '\\' :: 'u' :: rest => do
    let (low, rest) ← readHex rest
    if low < 0xDC00 ∨ 0xDFFF < low then .error .malformed
    else .ok (Char.ofNat ((high - 0xD800) * 1024 + (low - 0xDC00) + 0x10000), rest)
  | _ => .error .malformed

/-- Reads what follows a backslash. -/
def readEscape : Reader Char
  | [] => .error .truncated
  | 'u' :: rest => do
    let (unit, rest) ← readHex rest
    if 0xDC00 ≤ unit ∧ unit ≤ 0xDFFF then .error .malformed
    else if 0xD800 ≤ unit ∧ unit ≤ 0xDBFF then readSecondHalf unit rest
    else .ok (Char.ofNat unit, rest)
  | c :: rest =>
    match plainEscape? c with
    | some e => .ok (e, rest)
    | none => .error .malformed

/-- Passes over what follows a backslash; surrogates need not be paired. -/
def skipEscape : List Char → Except Fault (List Char)
  | [] => .error .truncated
  | 'u' :: rest => do
    let (_, rest) ← readHex rest
    .ok rest
  | c :: rest => if (plainEscape? c).isSome then .ok rest else .error .malformed

/-- Reads the characters of a string up to its closing quote, with at most `fuel` characters. -/
def readCharsWithin : (fuel : Nat) → Reader (List Char)
  | 0, _ => .error .truncated
  | _ + 1, [] => .error .truncated
  | fuel + 1, c :: rest =>
    if c = '"' then .ok ([], rest)
    else if c = '\\' then do
      let (e, rest) ← readEscape rest
      let (content, rest) ← readCharsWithin fuel rest
      .ok (e :: content, rest)
    else if c.toNat < 0x20 then .error .malformed
    else do
      let (content, rest) ← readCharsWithin fuel rest
      .ok (c :: content, rest)

/-- Reads a string behind its opening quote. -/
def readString : Reader String := fun cs => do
  let (content, rest) ← readCharsWithin (cs.length + 1) cs
  .ok (String.ofList content, rest)

/-- Passes over a string behind its opening quote, with at most `fuel` characters. -/
def skipCharsWithin : (fuel : Nat) → List Char → Except Fault (List Char)
  | 0, _ => .error .truncated
  | _ + 1, [] => .error .truncated
  | fuel + 1, c :: rest =>
    if c = '"' then .ok rest
    else if c = '\\' then do skipCharsWithin fuel (← skipEscape rest)
    else if c.toNat < 0x20 then .error .malformed
    else skipCharsWithin fuel rest

/-- Passes over a string behind its opening quote. -/
def skipString (cs : List Char) : Except Fault (List Char) := skipCharsWithin (cs.length + 1) cs

/-! ## Writing -/

/-- A digit in base sixteen, in lower case. -/
def hexChar (n : Nat) : Char := Nat.digitChar (n % 16)

/-- The form of one character in a written string: quotes, backslashes and control characters are
escaped, and every other character stands for itself. -/
def writeChar (c : Char) : List Char :=
  if c = '"' then ['\\', '"']
  else if c = '\\' then ['\\', '\\']
  else if c = '\x08' then ['\\', 'b']
  else if c = '\x0c' then ['\\', 'f']
  else if c = '\n' then ['\\', 'n']
  else if c = '\r' then ['\\', 'r']
  else if c = '\t' then ['\\', 't']
  else if c.toNat < 0x20 then ['\\', 'u', '0', '0', hexChar (c.toNat / 16), hexChar c.toNat]
  else [c]

/-- A string as it is written. -/
def writeString (s : String) : List Char := '"' :: s.toList.flatMap writeChar ++ ['"']

end IdMint.Json
