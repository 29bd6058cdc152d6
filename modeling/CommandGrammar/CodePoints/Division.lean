import CommandGrammar.CodePoints.Basic
import CommandGrammar.Text.Blank
import CommandGrammar.Text.Decimal

/-!
# Divisions of the code points

A property with several values divides the code points, in their order, into runs of one value. It
is written as the values with the lengths of their runs, where a run of one code point goes without
a length: `Cc32 Zs Po3`. The code points with some of the values are a set like that of any other
property.

* `member_boundaries`: the set of some values has just the code points with these values.
-/

namespace CommandGrammar

namespace CodePoints

/-- The values of the code points in their order, each with the length of its run. -/
abbrev Division := List (Text × Nat)

namespace Division

def ofWritten (rows : List String) : Division :=
  (rows.flatMap fun row => Text.words row.toList).map fun run =>
    (run.takeWhile Char.isAlpha, (Decimal.read? (run.dropWhile Char.isAlpha)).getD 1)

def value? : Division → Nat → Option Text
  | [], _ => none
  | (value, length) :: runs, n => if n < length then some value else value? runs (n - length)

/-- The code points from `start` on with some of the values; `inside` says whether those before
have one. -/
def boundariesFrom (keep : Text → Bool) (start : Nat) (inside : Bool) : Division → Boundaries
  | [] => if inside then [start] else []
  | (value, length) :: runs =>
    if keep value = inside then boundariesFrom keep (start + length) inside runs
    else start :: boundariesFrom keep (start + length) (!inside) runs

/-- The code points with some of the values. -/
def boundaries (keep : Text → Bool) (runs : Division) : Boundaries := boundariesFrom keep 0 false runs

/-- Nothing changes before the first run. -/
theorem memberFrom_of_lt {keep : Text → Bool} {runs : Division} {start n : Nat} {inside : Bool}
    (h : n < start) : memberFrom inside (boundariesFrom keep start inside runs) n = inside := by
  induction runs generalizing start with
  | nil => cases inside <;> simp [boundariesFrom, memberFrom, h]
  | cons run runs ih =>
    rw [boundariesFrom]
    split
    · exact ih (Nat.lt_of_lt_of_le h (Nat.le_add_right _ _))
    · rw [memberFrom, if_pos h]

theorem memberFrom_boundariesFrom {keep : Text → Bool} {runs : Division} {start n : Nat}
    {inside : Bool} (h : start ≤ n) :
    memberFrom inside (boundariesFrom keep start inside runs) n
      = (runs.value? (n - start)).any keep := by
  induction runs generalizing start inside with
  | nil => cases inside <;> simp [boundariesFrom, memberFrom, value?, Nat.not_lt.2 h]
  | cons run runs ih =>
    obtain ⟨value, length⟩ := run
    -- either way membership in the run is that of its value
    have hrun : memberFrom inside (boundariesFrom keep start inside ((value, length) :: runs)) n
        = memberFrom (keep value) (boundariesFrom keep (start + length) (keep value) runs) n := by
      rw [boundariesFrom]
      split
      · rename_i hsame
        rw [hsame]
      · rename_i hchange
        rw [memberFrom, if_neg (Nat.not_lt.2 h), Bool.eq_not.2 (Ne.symm hchange), Bool.not_not]
    rw [hrun, value?]
    split
    · exact memberFrom_of_lt (by omega)
    · rw [ih (by omega), Nat.sub_add_eq]

/-- The set of some values has just the code points with these values. -/
theorem member_boundaries (keep : Text → Bool) (runs : Division) (n : Nat) :
    member (runs.boundaries keep) n = (runs.value? n).any keep :=
  memberFrom_boundariesFrom (Nat.zero_le n)

/-- The names of values, each row with the values that its names stand for. -/
def named? (names : List (String × String)) (runs : Division) (name : Text) : Option Boundaries :=
  (names.find? fun row => (Text.words row.2.toList).contains name).map fun row =>
    runs.boundaries (Text.words row.1.toList).contains

end Division

end CodePoints

end CommandGrammar
