import PlotGrammar.Table.Cell

/-!
# Groups of rows

Rows with equal keys form a group. Groups stand in the order in which their keys are first seen, and
the rows of a group keep the order they had.

* `Group.keys` gives the keys there are in that order, `Group.of` each of them with its rows.
-/

namespace PlotGrammar.Group

variable {κ ρ : Type} [DecidableEq κ]

/-- The keys of rows, each once, in the order in which they are first seen. -/
def keys (key : ρ → κ) (rows : List ρ) : List κ :=
  (rows.map key).eraseDups

/-- The rows of one key, in their order. -/
def rowsWith (key : ρ → κ) (rows : List ρ) (k : κ) : List ρ :=
  rows.filter fun r => decide (key r = k)

/-- The groups of rows, in the order in which their keys are first seen. -/
def of (key : ρ → κ) (rows : List ρ) : List (κ × List ρ) :=
  (keys key rows).map fun k => (k, rowsWith key rows k)

theorem mem_keys {key : ρ → κ} {rows : List ρ} {k : κ} :
    k ∈ keys key rows ↔ ∃ r ∈ rows, key r = k := by
  simp [keys, List.mem_eraseDups]

end PlotGrammar.Group
