import FilterQuery.Text.CodePoints

/-!
Blank characters (the property White_Space of Unicode) and trimming. Most blanks are not ASCII, so
the core test for whitespace would keep them.
-/

namespace FilterQuery.Text

def blankRanges : List CodeRange := [
  ⟨0x9, 0xD⟩, ⟨0x20, 0x20⟩, ⟨0x85, 0x85⟩, ⟨0xA0, 0xA0⟩, ⟨0x1680, 0x1680⟩, ⟨0x2000, 0x200A⟩,
  ⟨0x2028, 0x2029⟩, ⟨0x202F, 0x202F⟩, ⟨0x205F, 0x205F⟩, ⟨0x3000, 0x3000⟩]

def isBlank (char : Char) : Bool :=
  covered blankRanges char

def trimEnd (text : List Char) : List Char :=
  (text.reverse.dropWhile isBlank).reverse

/-- Blanks at both ends are dropped; blanks between other characters stay. -/
def trim (text : List Char) : List Char :=
  trimEnd (text.dropWhile isBlank)

def trimmed (text : String) : String :=
  String.ofList (trim text.toList)

end FilterQuery.Text
