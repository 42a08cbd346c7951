import TestScout.Text.CharacterSets
set_option autoImplicit false

namespace TestScout.Text

/-- The code points with the `White_Space` property. -/
def blankRanges : Ranges :=
  [(0x09,0x0D), (0x20,0x20), (0x85,0x85), (0xA0,0xA0), (0x1680,0x1680), (0x2000,0x200A),
   (0x2028,0x2029), (0x202F,0x202F), (0x205F,0x205F), (0x3000,0x3000)]

def isBlank (c : Char) : Bool :=
  blankRanges.contains c

theorem isBlank_of_isWhitespace {c : Char} (h : c.isWhitespace) : isBlank c := by
  simp only [Char.isWhitespace,Bool.or_eq_true,decide_eq_true_eq] at h
  rcases h with ((rfl | rfl) | rfl) | rfl <;> decide

def trimStart (cs : List Char) : List Char :=
  cs.dropWhile isBlank

def trimEnd (cs : List Char) : List Char :=
  (trimStart cs.reverse).reverse

def trimChars (cs : List Char) : List Char :=
  trimEnd (trimStart cs)

/-- Nothing but blank characters; the empty text is blank. -/
def isBlankText (s : String) : Bool :=
  s.toList.all isBlank

end TestScout.Text
