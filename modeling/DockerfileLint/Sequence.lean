/-!
# Blocks and pieces of a list

`occursIn needle hay` decides whether `needle` is a contiguous block of `hay`; it serves both the
words of a command and the characters of a word. A window of the width of `needle` is moved over
`hay`, and what it shows is compared with `needle` element by element (`search?`). A window without
a width cannot be moved, so `search?` could fail; it never does. `splitWhere p` cuts a list at the
elements that satisfy `p`.
-/

namespace DockerfileLint

variable {α : Type}

/-- What a window of the given width shows as it moves over a list from left to right. -/
def windows (width : Nat) : List α → List (List α)
  | [] => []
  | x :: xs =>
    let window := (x :: xs).take width
    if window.length = width then window :: windows width xs else []

/-- The windows over a list, and nothing for the width zero, with which none can be moved. -/
def windows? (width : Nat) (xs : List α) : Option (List (List α)) :=
  if width = 0 then none else some (windows width xs)

section Search

variable [DecidableEq α]

/-- Looks for `needle` in the list with a window of its width, and fails where that window cannot be
moved. The empty block is found without looking. -/
def search? (needle hay : List α) : Option Bool :=
  if needle.isEmpty then some true
  else (windows? needle.length hay).map fun shown =>
    shown.any fun window => (window.zip needle).all fun (x, y) => x == y

theorem isSome_search? (needle hay : List α) : (search? needle hay).isSome = true := by
  cases needle <;> rfl

/-- Whether `needle` occurs in the list as a contiguous block; the empty block occurs everywhere. -/
def occursIn (needle hay : List α) : Bool := (search? needle hay).get (isSome_search? needle hay)

end Search

/-- The pieces of a list between the elements that satisfy `p`, one more than there are such
elements. -/
def splitWhere (p : α → Bool) : List α → List (List α)
  | [] => [[]]
  | x :: xs =>
    if p x then [] :: splitWhere p xs
    else match splitWhere p xs with
      | [] => [[x]]
      | piece :: rest => (x :: piece) :: rest

theorem splitWhere_ne_nil (p : α → Bool) (xs : List α) : splitWhere p xs ≠ [] := by
  cases xs with
  | nil => simp [splitWhere]
  | cons x xs =>
    unfold splitWhere
    split
    · simp
    · split <;> simp

end DockerfileLint
