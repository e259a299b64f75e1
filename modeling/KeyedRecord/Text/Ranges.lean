/-!
# Code point ranges

A character class of the Unicode standard is a list of closed ranges of code points, in ascending
order.  Membership is a linear search: the classes are asked about characters outside ASCII only,
which are rare in source text.
-/

set_option autoImplicit false

namespace KeyedRecord.Text

/-- Closed ranges of code points. -/
abbrev Ranges := Array (Nat × Nat)

/-- Some range holds the code point `n`. -/
def Ranges.holds (r : Ranges) (n : Nat) : Bool :=
  r.any fun (lo, hi) => decide (lo ≤ n) && decide (n ≤ hi)

end KeyedRecord.Text
