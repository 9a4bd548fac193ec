import PadScript.Text.Numeral
import PadScript.Text.Unprintable

/-!
# Quoted text

The form in which a message shows a text whose ends or characters may be invisible.
-/

namespace PadScript.Text

/-- A character inside quotes: quotes and backslashes after a backslash, the common control
characters by letter, every other character without a glyph by its number. -/
def quoteChar (c : Char) : Text :=
  if c = '"' then ['\\', '"']
  else if c = '\\' then ['\\', '\\']
  else if c = '\x00' then ['\\', '0']
  else if c = '\t' then ['\\', 't']
  else if c = '\n' then ['\\', 'n']
  else if c = '\r' then ['\\', 'r']
  else if isUnprintable c then ['\\', 'u', '\x7b'] ++ ofNatHex c.toNat ++ ['\x7d']
  else [c]

/-- A text between double quotes. -/
def quoted (s : Text) : Text := '"' :: s.flatMap quoteChar ++ ['"']

end PadScript.Text
