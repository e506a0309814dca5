/-!
# Sets of characters

A class of characters is a list of the ranges of code points that belong to it.
-/

namespace ContextLog.Text

/-- A set of characters, by its ranges of code points, first and last included. -/
structure CharSet where
  ranges : List (Nat × Nat)

/-- Does the character belong to the set? -/
def CharSet.contains (s : CharSet) (c : Char) : Bool :=
  s.ranges.any fun r => r.1 ≤ c.toNat && c.toNat ≤ r.2

theorem CharSet.contains_iff (s : CharSet) (c : Char) :
    s.contains c = true ↔ ∃ r ∈ s.ranges, r.1 ≤ c.toNat ∧ c.toNat ≤ r.2 := by
  simp [contains]

end ContextLog.Text
