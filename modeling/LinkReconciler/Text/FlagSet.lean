/-!
Sets of flags written as numbers: each flag has a weight, a power of two of its
own, and a set is the sum of the weights of its members.
-/

namespace LinkReconciler.FlagSet

def number : List (Nat × Bool) → Nat
  | [] => 0
  | (weight, isSet) :: rest => (if isSet then weight else 0) + number rest

/-- The flag of a weight within a number, the weight being a power of two. -/
def holds (number weight : Nat) : Bool :=
  number / weight % 2 = 1

end LinkReconciler.FlagSet
