/-!
# Blank characters

A character is blank when it has the Unicode property `White_Space`. Names and expressions are
compared up to blanks at their ends, or up to all of their blanks.

## Main definitions

* `isBlank`: the property.
* `trimStart`, `trimEnd`, `trim`: drop the blanks at one end, or at both.
* `squeeze`: drop every blank.
-/

namespace ViewLint.Text

/-- The characters with the Unicode property `White_Space`. -/
def isBlank (c : Char) : Bool :=
  let n := c.toNat
  (9 ≤ n && n ≤ 13) || n == 0x20 || n == 0x85 || n == 0xA0 || n == 0x1680 ||
    (0x2000 ≤ n && n ≤ 0x200A) || n == 0x2028 || n == 0x2029 || n == 0x202F ||
    n == 0x205F || n == 0x3000

/-- The text without the blanks it starts with. -/
def trimStart (cs : List Char) : List Char :=
  cs.dropWhile isBlank

/-- The text without the blanks it ends with. -/
def trimEnd (cs : List Char) : List Char :=
  (cs.reverse.dropWhile isBlank).reverse

/-- The text without the blanks at either end. -/
def trim (cs : List Char) : List Char :=
  trimEnd (trimStart cs)

/-- The text without any blank. -/
def squeeze (s : String) : String :=
  String.ofList (s.toList.filter (!isBlank ·))

end ViewLint.Text
