import IdMint.Text.Printable

/-! # Quoted text

A text between double quotes, as error messages show it. The quote and the backslash stand behind a
backslash, the usual control characters have a letter, a printable character stands for itself, and
any other is given by its code point in braces. -/

namespace IdMint.Text

/-- The digits of a number in base sixteen, in lower case. -/
def hex (n : Nat) : String := String.ofList (Nat.toDigits 16 n)

/-- The form that one character takes inside a quoted text. -/
def escape (c : Char) : String :=
  if c = '"' then "\\\""
  else if c = '\\' then "\\\\"
  else if c = '\n' then "\\n"
  else if c = '\r' then "\\r"
  else if c = '\t' then "\\t"
  else if c = '\x00' then "\\0"
  else if isPrintable c then c.toString
  else "\\u\x7b" ++ hex c.toNat ++ "\x7d"

/-- A text between double quotes, each character in its escaped form. -/
def quote (text : String) : String :=
  "\"" ++ String.join (text.toList.map escape) ++ "\""

end IdMint.Text
