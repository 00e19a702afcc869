/-!
# Character ranges

A property of characters is given by a table of closed ranges of code points in increasing order.
-/

namespace PageScript.Text

abbrev Ranges := List (Nat × Nat)

def Ranges.has (ranges : Ranges) (code : Nat) : Bool :=
  ranges.any fun (first, last) ↦ first ≤ code && code ≤ last

end PageScript.Text
