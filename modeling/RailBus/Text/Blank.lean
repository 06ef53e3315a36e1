/-! # Blank characters

The characters of the Unicode property White_Space: tab, line feed, vertical tab, form feed,
carriage return, space, next line (U+0085), no-break space (U+00A0), ogham space mark (U+1680),
the spaces U+2000 to U+200A, line and paragraph separators (U+2028, U+2029), narrow no-break
space (U+202F), medium mathematical space (U+205F) and ideographic space (U+3000).

Text read from firmware files is trimmed of these on both ends (`trimBlank`), and loco names
on their end (`trimBlankEnd`). Every character core calls whitespace is blank
(`isBlank_of_isWhitespace`).
-/

namespace RailBus.Text

/-- **Whether a character is blank** in the sense of White_Space. -/
def isBlank (c : Char) : Bool :=
  let n := c.toNat
  (0x09 ≤ n && n ≤ 0x0d) || n == 0x20 || n == 0x85 || n == 0xa0 || n == 0x1680
    || (0x2000 ≤ n && n ≤ 0x200a) || n == 0x2028 || n == 0x2029 || n == 0x202f
    || n == 0x205f || n == 0x3000

/-- The characters without their blank tail. -/
def trimBlankEnd (chars : List Char) : List Char :=
  (chars.reverse.dropWhile isBlank).reverse

/-- The characters without blanks at either end. -/
def trimBlank (chars : List Char) : List Char :=
  trimBlankEnd (chars.dropWhile isBlank)

theorem isBlank_of_isWhitespace (c : Char) (white : c.isWhitespace = true) :
    isBlank c = true := by
  simp only [Char.isWhitespace, Bool.or_eq_true, decide_eq_true_eq] at white
  rcases white with ((rfl | rfl) | rfl) | rfl <;> decide

end RailBus.Text
