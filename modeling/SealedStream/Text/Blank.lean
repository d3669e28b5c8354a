import SealedStream.Text.CodePoints

/-!
# Blank characters

The characters with the property `White_Space` of the Unicode standard.
-/

namespace SealedStream.Text

def blankPoints : CodePoints := [
  (0x09, 0x0d), (0x20, 0x20), (0x85, 0x85), (0xa0, 0xa0), (0x1680, 0x1680), (0x2000, 0x200a),
  (0x2028, 0x2029), (0x202f, 0x202f), (0x205f, 0x205f), (0x3000, 0x3000)]

def isBlank (c : Char) : Bool := blankPoints.has c

/-- Every blank of the ASCII range and more is blank. -/
theorem isBlank_of_isWhitespace {c : Char} (h : c.isWhitespace) : isBlank c := by
  simp only [Char.isWhitespace, Bool.or_eq_true, decide_eq_true_eq] at h
  rcases h with ((rfl | rfl) | rfl) | rfl <;> decide

def withoutBlanks (text : String) : String := String.ofList (text.toList.filter (!isBlank ·))

/-- A text without the blanks at its two ends. -/
def trimmed (text : String) : String :=
  String.ofList (((text.toList.dropWhile isBlank).reverse.dropWhile isBlank).reverse)

end SealedStream.Text
