/-!
# Lists in pieces

## Main definitions

* `piecesOf`: a list cut into consecutive pieces.

## Main results

* `flatten_piecesOf`: the pieces, joined in order, are the list.
* `foldl_piecesOf`: going through the pieces one after the other is going through the list.
-/

namespace ViewLint

/-- A list cut into consecutive pieces of `size` elements; the last may be shorter. A size of
zero is taken as one. -/
def piecesOf {α : Type} (size : Nat) : List α → List (List α)
  | [] => []
  | x :: rest => (x :: rest.take (size - 1)) :: piecesOf size (rest.drop (size - 1))
termination_by xs => xs.length
decreasing_by
  simp only [List.length_drop, List.length_cons]
  omega

/-- The pieces, joined in order, are the list. -/
theorem flatten_piecesOf {α : Type} (size : Nat) (xs : List α) :
    (piecesOf size xs).flatten = xs := by
  fun_induction piecesOf size xs with
  | case1 => rfl
  | case2 x rest ih => rw [List.flatten_cons, ih, List.cons_append, List.take_append_drop]

/-- Going through the pieces one after the other is going through the list. -/
theorem foldl_piecesOf {α β : Type} (step : β → α → β) (start : β) (size : Nat) (xs : List α) :
    (piecesOf size xs).foldl (fun state piece => piece.foldl step state) start =
      xs.foldl step start := by
  rw [← List.foldl_flatten, flatten_piecesOf]

end ViewLint
