/-! # Plain text

Text in bold type, as terminals are told to show it, and what is left of a text that is written to
something other than a terminal: the control sequences are taken out of it, and with them every
control character except white space.

A filter reads such a text one character after the other. It stands somewhere with respect to the
control sequences, and it has either let the last character through or kept it back. White space
inside a control sequence interrupts it: the text passes from there up to the next control character,
and the sequence goes on behind that one. -/

namespace IdMint.Text

/-- A text in bold type. -/
def bold (text : String) : String := "\x1b[1m" ++ text ++ "\x1b[0m"

/-- Where a text stands with respect to control sequences. -/
inductive Passage
  /-- Outside of them. -/
  | outside
  /-- Behind an escape character. -/
  | escape
  /-- Among the intermediate characters of an escape sequence. -/
  | intermediate
  /-- Among the parameters of a control sequence. -/
  | parameters
  /-- At the beginning of a device control string. -/
  | device
  /-- Among the parameters of a device control string. -/
  | deviceParameters
  /-- Among the intermediate characters of a device control string. -/
  | deviceIntermediate
  /-- Inside a command for the operating system, which a bell ends. -/
  | command
  /-- Inside another string, which the string terminator ends. -/
  | string
  deriving DecidableEq, Inhabited, Repr

namespace Passage

/-- Whether white space passes. Inside strings it is lost. -/
def passesSpace : Passage → Bool
  | outside | escape | intermediate | parameters => true
  | device | deviceParameters | deviceIntermediate | command | string => false

/-- The passage behind a visible ASCII character. -/
def visible (c : Char) : Passage → Passage
  | outside => outside
  | escape =>
    if c ≤ '/' then intermediate
    else if c = '[' then parameters
    else if c = ']' then command
    else if c = 'P' then device
    else if c = 'X' ∨ c = '^' ∨ c = '_' then string
    else outside
  | intermediate => if c ≤ '/' then intermediate else outside
  | parameters => if c ≤ '?' then parameters else outside
  | device =>
    if c ≤ '/' then deviceIntermediate
    else if c ≤ '?' then deviceParameters
    else string
  | deviceParameters =>
    if c ≤ '/' then deviceIntermediate
    else if c ≤ ';' then deviceParameters
    else string
  | deviceIntermediate => if c ≤ '/' then deviceIntermediate else string
  | command => command
  | string => string

/-- The passage behind a control character that neither passes nor begins anything. -/
def control (c : Char) : Passage → Passage
  | command => if c = '\x07' then outside else command
  | passage => passage

/-- The passage behind a character outside ASCII. The string terminator is the byte 9C, and it ends a
string even as a part of a longer character. -/
def foreign (c : Char) : Passage → Passage
  | string => if (String.utf8EncodeChar c).contains 0x9C then outside else string
  | passage => passage

end Passage

/-- Whether a character is white space among the control characters. -/
def isSpacing (c : Char) : Bool := c = '\t' || c = '\n' || c = '\x0c' || c = '\r'

/-- A filter for control sequences at some point of a text. -/
structure Filter where
  /-- Where the text stands. -/
  passage : Passage
  /-- Whether the last character has passed. -/
  passes : Bool
  deriving DecidableEq, Inhabited, Repr

namespace Filter

/-- The filter at the beginning of a text. -/
def start : Filter := ⟨.outside, false⟩

/-- The filter behind one more character. An escape character begins a sequence anywhere; cancel and
substitute end one. As long as the text passes it does so up to the next control character, and a
character outside ASCII ends the sequence that was interrupted. -/
def next (f : Filter) (c : Char) : Filter :=
  if c = '\x1b' then ⟨.escape, false⟩
  else if c = '\x18' ∨ c = '\x1a' then ⟨.outside, false⟩
  else if isSpacing c then ⟨f.passage, f.passes || f.passage.passesSpace⟩
  else if c < ' ' ∨ c = '\x7f' then ⟨f.passage.control c, false⟩
  else if f.passes ∨ f.passage = .outside then ⟨if c < '\x7f' then f.passage else .outside, true⟩
  else if c < '\x7f' then ⟨f.passage.visible c, false⟩
  else ⟨f.passage.foreign c, false⟩

/-- The characters that pass. -/
def run : Filter → List Char → List Char
  | _, [] => []
  | f, c :: cs =>
    let g := f.next c
    if g.passes then c :: run g cs else run g cs

end Filter

/-- A text without control sequences. -/
def plain (text : String) : String := String.ofList (Filter.start.run text.toList)

end IdMint.Text
