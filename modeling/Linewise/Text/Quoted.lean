import Linewise.Text.Combining
import Linewise.Text.Unprintable

/-!
# Quoted text

A text is shown between double quotes in such a way that each of its characters can be told. Quotes and
backslashes are escaped, some controls have a short form, and every other character that would not be
seen, or would be drawn onto the one before it, is shown by its number.
-/

namespace Linewise.Text

/-- The number of a character between braces, as an escape. -/
def numberEscape (c : Char) : List Char :=
  ['\x5c', 'u', '\x7b'] ++ Nat.toDigits 16 c.toNat ++ ['\x7d']

/-- How a character is shown between quotes. -/
def quoteChar (c : Char) : List Char :=
  if c = '\x22' ∨ c = '\x5c' then ['\x5c', c]
  else if c = '\t' then ['\x5c', 't']
  else if c = '\r' then ['\x5c', 'r']
  else if c = '\n' then ['\x5c', 'n']
  else if c = '\x00' then ['\x5c', '0']
  else if unprintableTable.contains c.toNat || combiningTable.contains c.toNat then numberEscape c
  else [c]

/-- A text between quotes. -/
def quote (cs : List Char) : List Char := ['\x22'] ++ cs.flatMap quoteChar ++ ['\x22']

end Linewise.Text
