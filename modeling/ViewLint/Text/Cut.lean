/-!
# Cutting a text at a character

## Main definitions

* `cutLast`: the parts before and after the last occurrence of a character.
* `dropHeads`, `dropTails`: a text without the copies of another text that it starts or ends with.
-/

namespace ViewLint.Text

/-- The parts of a text before and after the last `c`, if it has one. -/
def cutLast (c : Char) : List Char → Option (List Char × List Char)
  | [] => none
  | d :: ds =>
    match cutLast c ds with
    | some (a, b) => some (d :: a, b)
    | none => if d = c then some ([], ds) else none

/-- The rest of `text` after `head`, if `text` starts with it. -/
def afterHead : List Char → List Char → Option (List Char)
  | [], text => some text
  | _ :: _, [] => none
  | h :: hs, t :: ts => if h = t then afterHead hs ts else none

theorem length_of_afterHead {head text rest : List Char} (h : afterHead head text = some rest) :
    text.length = head.length + rest.length := by
  fun_induction afterHead head text with
  | case1 text => simp_all
  | case2 => simp at h
  | case3 hs t ts ih => have := ih h; simp; omega
  | case4 => simp at h

/-- The rest of `text` after every leading copy of `head`. -/
def dropHeads (head text : List Char) : List Char :=
  if hne : head = [] then text
  else
    match h : afterHead head text with
    | some rest =>
      have : rest.length < text.length := by
        have := length_of_afterHead h
        have := List.length_pos_iff.mpr hne
        omega
      dropHeads head rest
    | none => text
termination_by text.length

/-- The text without the copies of `tail` it ends with. -/
def dropTails (tail text : List Char) : List Char :=
  (dropHeads tail.reverse text.reverse).reverse

/-- Whether `text` starts with `head`. -/
def startsWith (head text : List Char) : Bool :=
  (afterHead head text).isSome

/-- Whether `text` ends with `tail`. -/
def endsWith (tail text : List Char) : Bool :=
  startsWith tail.reverse text.reverse

end ViewLint.Text
