import PlotGrammar.Number.Sum
import PlotGrammar.Stat.Histogram

/-!
# Density curves

A sample is smoothed by putting a kernel of some bandwidth over each value. The curve is read at
equally spaced points from the least to the greatest value.

* `Smooth.curve` gives at each point the density, the density times the number of values, and the
  density as a share of the highest one.
* `Smooth.ruleOfThumb` is the rule of thumb for the bandwidth of a sample: nine tenths of the
  smaller of its standard deviation and its quartile range over 1.34, shrinking with the size of the
  sample. Where that spread is not positive it falls back to the standard deviation, then to the
  magnitude of the first value, then to one. `Smooth.bandwidth` finds the deviation and the
  shrinkage.
-/

namespace PlotGrammar.Smooth

open Arithmetic

variable {α : Type} [Arithmetic α]

/-- One point of a density curve. -/
structure Point (α : Type) where
  position : α
  density : α
  /-- The density times the number of values. -/
  count : α
  /-- The density as a share of the highest one. -/
  scaled : α

/-- The density at one position: the weights of all values over their mass, which is the bandwidth
times their number. -/
def densityAt (kernel : α → α) (bandwidth mass : α) (values : List α) (x : α) : α :=
  Sum.total (values.map fun v => kernel ((x - v) / bandwidth)) / mass

/-- The highest of some densities; a density that is no number hides the others. -/
def peak (densities : List α) : α :=
  match densities with
  | [] => zero
  | d :: ds => ds.foldl (fun m y => if le y m || !le m m then m else y) d

/-- So many equally spaced points from `low` to `high`; a single one lies at `low`. -/
def grid (low high : α) : Nat → List α
  | 0 => []
  | 1 => [low]
  | n + 2 => Histogram.evenly low high (n + 1)

/-- The curve of a sample at so many points. -/
def curve (kernel : α → α) (bandwidth mass : α) (points : Nat) (v : α) (vs : List α) :
    List (Point α) :=
  let values := v :: vs
  let positions := grid (least v vs) (greatest v vs) points
  let densities := positions.map (densityAt kernel bandwidth mass values)
  let top := peak densities
  let scale := fun d => if lt zero top then d / top else d
  (positions.zip densities).map fun p => ⟨p.1, p.2, p.2 * ofNat values.length, scale p.2⟩

/-- The value a fraction of the way through a sorted sample, between neighbours in proportion. -/
def quantile (numerator denominator : Nat) (sorted : List α) : α :=
  let place : α := ofNat (sorted.length - 1) * (ofNat numerator / ofNat denominator)
  let below := match floor place with
    | .ok i => i.toNat
    | .error _ => 0
  let above := min (below + 1) (sorted.length - 1)
  let share := place - ofNat below
  let a := sorted.getD below zero
  let b := sorted.getD above zero
  let gap := b - a
  -- The nearer neighbour is taken as the start, so that both ends are met exactly.
  if le (half (ofInt 1)) share then b - gap * (ofInt 1 - share) else a + gap * share

/-- The standard deviation of a sample, one degree of freedom being spent on the mean. -/
def deviation (values : List Float) : Float :=
  if values.length ≤ 1 then 0
  else
    let mean := Sum.total values / Float.ofNat values.length
    let squares := values.map fun v => (v - mean) * (v - mean)
    (Sum.total squares / Float.ofNat (values.length - 1)).sqrt

/-- The values in ascending order; values that are no numbers, which are not even at most
themselves, come last. -/
def sorted (values : List α) : List α :=
  values.mergeSort fun x y => !le y y || le x y

/-- The quartile range of a sample; no number if the sample holds one that is none. -/
def quartileRange (values : List α) : α :=
  match values.find? fun v => !le v v with
  | some v => v
  | none => quantile 75 100 (sorted values) - quantile 25 100 (sorted values)

/-- The spread a bandwidth is measured by, from the deviation, the quartile range over 1.34 and the
first value of a sample. -/
def spread (deviation range first : α) : α :=
  let smaller := if lt range deviation then range else deviation
  if lt zero smaller then smaller
  else if !isZero deviation then deviation
  else
    let magnitude := if lt first zero then zero - first else first
    if !isZero magnitude then magnitude else ofInt 1

/-- The rule of thumb for the bandwidth of a sample of some deviation, and how much its size shrinks
it. -/
def ruleOfThumb (deviation shrinkage : α) : List α → α
  | [] => ofInt 1
  | v :: vs =>
    let range := quartileRange (v :: vs) / (ofInt 134 / ofInt 100)
    ofInt 9 / ofInt 10 * spread deviation range v * shrinkage

/-- The bandwidth of a sample of doubles, which shrinks with the fifth root of its size. -/
def bandwidth (values : List Float) : Float :=
  ruleOfThumb (deviation values) (Float.pow (Float.ofNat values.length) (-0.2)) values

end PlotGrammar.Smooth
