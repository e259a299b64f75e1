/-!
# Stretches of text

A text with separators is a list of stretches, one more than there are separators.
-/

set_option autoImplicit false

namespace KeyedRecord.Text

/-- The stretches between the characters that separate. -/
def stretches (separates : Char → Bool) : List Char → List (List Char)
  | [] => [[]]
  | c :: r =>
    if separates c then [] :: stretches separates r
    else match stretches separates r with
      | [] => [[c]]
      | a :: as => (c :: a) :: as

/-- Stretches with a separator between each two. -/
def joined (separator : Char) : List (List Char) → List Char
  | [] => []
  | [a] => a
  | a :: as => a ++ separator :: joined separator as

theorem stretches_ne_nil (separates : Char → Bool) (cs : List Char) :
    stretches separates cs ≠ [] := by
  cases cs with
  | nil => simp [stretches]
  | cons c r =>
    unfold stretches
    split
    · simp
    · split <;> simp

end KeyedRecord.Text
