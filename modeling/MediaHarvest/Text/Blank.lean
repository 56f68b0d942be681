/-!
# Blank characters

The characters with the Unicode property `White_Space`, and trimming by them.
-/

namespace MediaHarvest.Text

/-- Unicode white space. -/
def isBlank (c : Char) : Bool :=
  let n := c.toNat
  (9 ≤ n && n ≤ 13) || n == 32 || n == 133 || n == 160 || n == 5760 ||
    (8192 ≤ n && n ≤ 8202) || n == 8232 || n == 8233 || n == 8239 || n == 8287 || n == 12288

/-- Drops the blank characters at the front. -/
def trimStart (chars : List Char) : List Char :=
  chars.dropWhile isBlank

/-- Drops the blank characters at the end. -/
def trimEnd (chars : List Char) : List Char :=
  (chars.reverse.dropWhile isBlank).reverse

/-- The text without the blank characters around it. -/
def trim (text : String) : String :=
  String.ofList (trimEnd (trimStart text.toList))

/-- The ASCII letters in upper case; all else stays. -/
def upper (text : String) : String :=
  text.map Char.toUpper

/-- The ASCII letters in lower case; all else stays. -/
def lower (text : String) : String :=
  text.map Char.toLower

end MediaHarvest.Text
