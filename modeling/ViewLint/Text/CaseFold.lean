/-!
# Letters up to case

Two characters are the same letter up to case if their simple case foldings agree. Besides its
two ASCII forms, the letter `s` has the long `ſ` and the letter `k` has the Kelvin sign; no other
character folds to an ASCII letter.
-/

namespace ViewLint.Text

/-- The simple case folding of a character, as far as it is an ASCII character. Characters that
fold to anything else are left as they are. -/
def foldCase (c : Char) : Char :=
  if c = Char.ofNat 0x17F then 's' else if c = Char.ofNat 0x212A then 'k' else c.toLower

/-- The rest of a text after `word`, up to case; `word` is given in lower case. -/
def afterWord : List Char → List Char → Option (List Char)
  | [], text => some text
  | _ :: _, [] => none
  | w :: ws, c :: cs => if foldCase c = w then afterWord ws cs else none

/-- Whether a text is `word`, up to case; `word` is given in lower case. -/
def isWord (word text : List Char) : Bool :=
  afterWord word text == some []

end ViewLint.Text
