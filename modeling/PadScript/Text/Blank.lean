/-!
# Text and blanks

Text is a list of characters. A blank is a character with the Unicode property White_Space, and
trimming removes the blanks at the ends of a text.
-/

namespace PadScript

/-- Text, read character by character. -/
abbrev Text := List Char

namespace Text

/-- The characters with the Unicode property White_Space. -/
def isBlank (c : Char) : Bool :=
  let n := c.toNat
  (0x9 ≤ n && n ≤ 0xD) || n == 0x20 || n == 0x85 || n == 0xA0 || n == 0x1680 ||
    (0x2000 ≤ n && n ≤ 0x200A) || n == 0x2028 || n == 0x2029 || n == 0x202F || n == 0x205F ||
    n == 0x3000

/-- The text without its leading blanks. -/
def trimStart (s : Text) : Text := s.dropWhile isBlank

/-- The text without its trailing blanks. -/
def trimEnd (s : Text) : Text := (s.reverse.dropWhile isBlank).reverse

/-- The text without the blanks at either end. -/
def trim (s : Text) : Text := trimEnd (trimStart s)

/-- Whether two texts differ at most in the case of ASCII letters. -/
def sameLetters (s t : Text) : Bool := s.map Char.toLower == t.map Char.toLower

end Text

end PadScript
