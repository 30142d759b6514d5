import PlotGrammar.Number.Arithmetic

/-!
# Histograms

A sample is counted in consecutive bins. The edges of the bins either divide the range of the sample
into equally many parts, or lie on a grid of a given width that passes through a given anchor.

* `Histogram.evenly` gives `n + 1` equally spaced edges that end exactly where the range ends.
* `Histogram.onGrid` gives edges on the grid, from the last grid point not above the least value on,
  as many as it takes to reach the greatest value.
* `Histogram.count` counts. A bin holds its start and not its end; the last bin holds its end too.
-/

namespace PlotGrammar.Histogram

open Arithmetic

variable {α : Type} [Arithmetic α]

/-- How a range is divided into bins. -/
inductive Binning (α : Type) where
  | count (bins : Nat)
  | width (width : α) (anchor : Option α)

/-- One bin and how many values it holds. -/
structure Bin (α : Type) where
  start : α
  stop : α
  count : Nat

/-- The middle of a bin. -/
def Bin.middle (b : Bin α) : α :=
  (b.start + b.stop) / ofInt 2

/-- The share of a bin in the total, per unit of width. -/
def Bin.density (total : Nat) (b : Bin α) : α :=
  if total = 0 then zero else ofNat b.count / (ofNat total * (b.stop - b.start))

/-- The point after so many of `n` equal steps from `low` to `high`. -/
def point (low high : α) (n i : Nat) : α :=
  let step := (high - low) / ofNat n
  -- A range too narrow for its step is multiplied last, which keeps its digits.
  if isZero step then ofNat i / ofNat n * (high - low) + low else ofNat i * step + low

/-- Equally spaced points, `n` steps from `low` to exactly `high`. -/
def evenly (low high : α) (n : Nat) : List α :=
  (List.range n).map (point low high n) ++ [high]

/-- Where a grid starts below `low`, and how many steps of it reach `high`; at least one. -/
def gridSteps (low high width anchor : α) : Except Fault (α × Nat) := do
  let below ← floor ((low - anchor) / width)
  let start := anchor + ofInt below * width
  let needed ← ceil ((high - start) / width)
  pure (start, max 1 needed.toNat)

/-- So many steps of a grid, and one more if they end below `high`. -/
def gridFrom (start high width : α) (steps : Nat) : List α :=
  let edges := (List.range (steps + 1)).map fun i => start + width * ofNat i
  let last := start + width * ofNat steps
  if lt last high then edges ++ [last + width] else edges

/-- The edges on the grid of a width through an anchor that enclose a range. -/
def onGrid (low high width anchor : α) : Except Fault (List α) := do
  let (start, steps) ← gridSteps low high width anchor
  pure (gridFrom start high width steps)

/-- The edges for a range with `n` bins; a range of one point is widened by a half on both sides. -/
def divided (low high : α) (n : Nat) : List α :=
  if le high low && le low high then evenly (low - half (ofInt 1)) (high + half (ofInt 1)) n
  else evenly low high n

/-- The anchor of a grid, half its width if none is given. -/
def anchorOf (width : α) (anchor : Option α) : α :=
  anchor.getD (half width)

/-- The edges of the bins of a sample; an empty sample has one bin from zero to one. -/
def edges (binning : Binning α) : List α → Except Fault (List α)
  | [] => .ok [zero, ofInt 1]
  | v :: vs =>
    let low := least v vs
    let high := greatest v vs
    match binning with
    | .count n => .ok (divided low high n)
    | .width w a => onGrid low high w (anchorOf w a)

/-- How many steps the edges of a sample take on a grid. -/
def steps (binning : Binning α) : List α → Except Fault Nat
  | [] => .ok 1
  | v :: vs =>
    match binning with
    | .count n => .ok n
    | .width w a => do
      pure (← gridSteps (least v vs) (greatest v vs) w (anchorOf w a)).2

/-- Whether a bin holds a value. -/
def holds (isLast : Bool) (start stop v : α) : Bool :=
  le start v && (lt v stop || (isLast && le v stop))

/-- Counts a sample in the bins between consecutive edges. -/
def count (values : List α) : List α → List (Bin α)
  | [] => []
  | [_] => []
  | a :: b :: rest =>
    ⟨a, b, values.countP (holds rest.isEmpty a b)⟩ :: count values (b :: rest)

/-- How many values the bins hold together. -/
def total (bins : List (Bin α)) : Nat :=
  bins.foldr (fun b n => b.count + n) 0

/-- Whether no edge is above the next one. -/
def ascending : List α → Bool
  | [] => true
  | [_] => true
  | a :: b :: rest => !lt b a && ascending (b :: rest)

end PlotGrammar.Histogram
