/-!
Sets of code points given by their bounds.

A set is listed as the ascending code points at which membership changes: the
first is the first member, the second the first non-member after it, and so on.
-/

namespace HubKeeper.Text

/-- Whether `n` lies in the set with these bounds: an odd number of them has been
passed. -/
def within (bounds : List Nat) (n : Nat) : Bool :=
  bounds.countP (· ≤ n) % 2 == 1

end HubKeeper.Text
