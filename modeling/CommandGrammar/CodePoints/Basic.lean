/-!
# Sets of code points

A property of characters is a set of code points, written as the increasing list of the code
points at which membership changes: `[a, b, c, d]` is the set of all `n` with `a ≤ n < b` or
`c ≤ n < d`. A code point is in the set when an odd number of changes lie at or below it.
-/

namespace CommandGrammar

/-- The code points at which membership changes, in increasing order. -/
abbrev CodePoints.Boundaries := List Nat

namespace CodePoints

/-- Whether a code point is in the set; `inside` says whether the points before the first boundary
are. -/
def memberFrom (inside : Bool) : Boundaries → Nat → Bool
  | [], _ => inside
  | b :: bs, n => if n < b then inside else memberFrom (!inside) bs n

/-- Whether a code point is in the set. -/
def member (bounds : Boundaries) (n : Nat) : Bool := memberFrom false bounds n

/-- The ranges of a set, each with its first and last member. -/
def ranges : Boundaries → List (Nat × Nat)
  | a :: b :: rest => (a, b - 1) :: ranges rest
  | [a] => [(a, 0x10FFFF)]
  | [] => []

end CodePoints

end CommandGrammar
