import GraphFilter.Text.Ranges

/-!
# Blank characters and trimming

Unicode 17.0 property `White_Space`, and the two operations built on it:
removing blanks at both ends of a text and cutting a text at its first blank.
-/

namespace GraphFilter.Text

/-- The white-space code points from U+0080 up, as ascending closed ranges. -/
def blankRanges : List (Nat × Nat) :=
  [(0x85, 0x85), (0xA0, 0xA0), (0x1680, 0x1680), (0x2000, 0x200A), (0x2028, 0x2029),
   (0x202F, 0x202F), (0x205F, 0x205F), (0x3000, 0x3000)]

/-- Whether a character has the Unicode property `White_Space`. -/
def isBlank (c : Char) : Bool :=
  if c.toNat < 0x80 then c.toNat == 0x20 || (0x09 ≤ c.toNat && c.toNat ≤ 0x0D)
  else inRanges blankRanges c.toNat

/-- Remove blanks at the front. -/
def trimStart (s : List Char) : List Char :=
  s.dropWhile isBlank

/-- Remove blanks at the back. -/
def trimEnd (s : List Char) : List Char :=
  (s.reverse.dropWhile isBlank).reverse

/-- Remove blanks at both ends. -/
def trim (s : List Char) : List Char :=
  trimEnd (trimStart s)

/-- Cut a text in front of its first blank. -/
def splitWord (s : List Char) : List Char × List Char :=
  (s.takeWhile fun c => !isBlank c, s.dropWhile fun c => !isBlank c)

/-- Cutting loses nothing. -/
theorem splitWord_append (s : List Char) : (splitWord s).1 ++ (splitWord s).2 = s := by
  simp [splitWord]

end GraphFilter.Text
