/-! # Lines

The lines of a text, and texts set in behind a margin. -/

namespace IdMint.Text

/-- The lines of a text. A line end at the end of the text is followed by an empty line. -/
def lines (text : String) : List String := (text.toList.splitOn '\n').map String.ofList

/-- The lines of a text, each of them behind a margin. -/
def setIn (margin text : String) : List String := (lines text).map (margin ++ ·)

example : lines "" = [""] := rfl

end IdMint.Text
