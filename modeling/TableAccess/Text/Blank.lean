import TableAccess.Text.Interval

/-!
# Blank characters

The characters with the property `White_Space`, and the texts made of them alone.
-/

namespace TableAccess.Text

/-- The code points with the property `White_Space`. -/
def blankIntervals : List Interval :=
  [(0x9, 0xD), (0x20, 0x20), (0x85, 0x85), (0xA0, 0xA0), (0x1680, 0x1680), (0x2000, 0x200A),
    (0x2028, 0x2029), (0x202F, 0x202F), (0x205F, 0x205F), (0x3000, 0x3000)]

/-- A character with the property `White_Space`. -/
def isBlankChar (c : Char) : Bool := inIntervals blankIntervals c

/-- A text with nothing but white space in it; the empty text is one. -/
def isBlank (s : String) : Bool := s.toList.all isBlankChar

theorem isBlank_iff {s : String} : isBlank s = true ↔ ∀ c ∈ s.toList, isBlankChar c = true := by
  simp [isBlank]

end TableAccess.Text
