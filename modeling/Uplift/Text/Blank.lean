-- Blank characters are those with the Unicode White_Space property. Trimming
-- takes blanks, or blanks and then semicolons, off the ends of a text.
import Uplift.Text.Basic

namespace Uplift.Text

/-- White space, in the sense of Unicode. -/
def isBlank (c : Char) : Bool :=
  let n := c.toNat
  (9 ≤ n && n ≤ 13) || n == 0x20 || n == 0x85 || n == 0xa0 || n == 0x1680 ||
    (0x2000 ≤ n && n ≤ 0x200a) || n == 0x2028 || n == 0x2029 || n == 0x202f ||
    n == 0x205f || n == 0x3000

/-- Drop blanks at the front. -/
def trimStart (t : Text) : Text := t.dropWhile isBlank

/-- Drop characters at the end as long as they satisfy `p`. -/
def dropEndWhile (p : Char → Bool) (t : Text) : Text := (t.reverse.dropWhile p).reverse

/-- Drop blanks at the end. -/
def trimEnd (t : Text) : Text := dropEndWhile isBlank t

/-- Drop blanks at both ends. -/
def trim (t : Text) : Text := trimEnd (trimStart t)

/-- Nothing but blanks. -/
def isBlankText (t : Text) : Bool := t.all isBlank

/-- A trimmed expression without the semicolons that end it. -/
def trimTerminator (t : Text) : Text := trimEnd (dropEndWhile (· == ';') (trim t))

end Uplift.Text
