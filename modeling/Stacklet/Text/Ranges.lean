/-!
Sets of characters given as inclusive intervals of code points in increasing
order, the form in which the Unicode properties of the neighbouring modules are
tabulated. A look-up walks the list and stops at the first interval that lies
wholly above the code point.
-/

namespace Stacklet

/-- Inclusive intervals of code points, in increasing order. -/
abbrev Ranges := List (Nat × Nat)

/-- Whether a code point lies in one of the intervals. The walk relies on their
order: it gives up at the first interval that starts above the code point. -/
def Ranges.contains : Ranges → Nat → Bool
  | [], _ => false
  | (lo, hi) :: rest, n =>
    if n < lo then false else if n ≤ hi then true else Ranges.contains rest n

end Stacklet
