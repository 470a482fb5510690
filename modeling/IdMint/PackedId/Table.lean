import IdMint.PackedId
import IdMint.Text.Quoted

/-! # Identifiers as tables

A picture of an identifier for people who look for a fault: the number in both notations, and a table
with one column for each field that shows its name and width, its value, and the value in hex. -/

namespace IdMint.PackedId

/-- A column of the table: the name of a field, its width in bits and its value. -/
structure Column where
  name : String
  bits : Nat
  value : UInt64

namespace Column

/-- The heading of a column. -/
def heading (c : Column) : String := c.name ++ " (" ++ toString c.bits ++ ")"

/-- The value in base ten. -/
def decimal (c : Column) : String := toString c.value

/-- The value in base sixteen. -/
def hexadecimal (c : Column) : String := "0x" ++ Text.hex c.value.toNat

/-- The width of a column: its longest text and one blank on either side. -/
def width (c : Column) : Nat :=
  max (max c.heading.length c.decimal.length) c.hexadecimal.length + 2

end Column

/-- The columns of an identifier, from the top bit down. -/
def columns (id : PackedId) : List Column :=
  [⟨"reserved", 1, 0⟩, ⟨"timestamp", 41, id.timestamp⟩, ⟨"datacenter", 5, id.datacenter⟩,
    ⟨"machine", 5, id.machine⟩, ⟨"sequence", 12, id.sequence⟩]

/-- A text made up of one character. -/
def repeated (n : Nat) (c : Char) : String := String.ofList (List.replicate n c)

/-- A text in the middle of a width; where the blanks are odd, one more stands on the right. -/
def centered (text : String) (width : Nat) : String :=
  let blanks := width - text.length
  repeated (blanks / 2) ' ' ++ text ++ repeated (blanks - blanks / 2) ' '

/-- A line between the rows of the table. -/
def rule (columns : List Column) : String :=
  "        +" ++ String.join (columns.map fun c => repeated c.width '-' ++ "+") ++ "\n"

/-- A row of the table. -/
def row (columns : List Column) (cell : Column → String) : String :=
  "        |" ++ String.join (columns.map fun c => centered (cell c) c.width ++ "|") ++ "\n"

/-- The picture of an identifier. -/
def table (id : PackedId) : String :=
  let cs := id.columns
  let hex16 := Text.hex id.raw.toNat
  "PackedId \x7b\n"
    ++ "    raw id     : 0x" ++ repeated (16 - hex16.length) '0' ++ hex16
      ++ " (" ++ id.text ++ ")\n"
    ++ "    padded     : " ++ id.paddedText ++ "\n"
    ++ "    layout     :\n"
    ++ rule cs ++ row cs Column.heading ++ rule cs
    ++ row cs Column.decimal ++ row cs Column.hexadecimal ++ rule cs ++ "\x7d"

end IdMint.PackedId
