/-!
# Runs of code points

Properties of characters are given as runs of code points with both ends included.
-/

namespace WideColumn.Text

/-- The character lies in one of the runs. -/
def inRuns (runs : List (Nat × Nat)) (c : Char) : Bool :=
  runs.any fun run => run.1 ≤ c.toNat && c.toNat ≤ run.2

theorem inRuns_iff {runs : List (Nat × Nat)} {c : Char} :
    inRuns runs c = true ↔ ∃ run ∈ runs, run.1 ≤ c.toNat ∧ c.toNat ≤ run.2 := by
  simp [inRuns]

end WideColumn.Text
