import MediaHarvest.Text.Hex
import MediaHarvest.Text.Printable

/-!
# Quoted text in messages

A text that a message cites stands in double quotes, with escapes for what would not show.
-/

namespace MediaHarvest.Text

/-- How a character stands in a cited text. -/
def citeChar (c : Char) : List Char :=
  if c = '"' then ['\\', '"']
  else if c = '\\' then ['\\', '\\']
  else if c = '\n' then ['\\', 'n']
  else if c = '\r' then ['\\', 'r']
  else if c = '\t' then ['\\', 't']
  else if c = Char.ofNat 0 then ['\\', '0']
  else if isPrintable c then [c]
  else "\\u\x7b".toList ++ Nat.toDigits 16 c.toNat ++ ['\x7d']

/-- A text in double quotes, as messages cite it. -/
def cite (text : String) : String :=
  String.ofList ('"' :: (text.toList.flatMap citeChar ++ ['"']))

end MediaHarvest.Text
