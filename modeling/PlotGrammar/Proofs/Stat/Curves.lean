import PlotGrammar.Stat.Smooth
import PlotGrammar.Proofs.Histogram.Exact
import PlotGrammar.Proofs.Number.Embedding
import PlotGrammar.Proofs.Stat.Faults

/-!
# Density curves without rounding

The curve of a sample and the rule of thumb for its bandwidth are made by one definition for all
numbers. On rationals nothing is rounded, and a curve has the shape it is meant to have.

* `Smooth.ruleOfThumb_pos` says that the rule of thumb finds a bandwidth above zero for every
  sample, whatever its quartile range is, as long as its deviation is not negative.
* `Smooth.map_block` says that a curve is computed alike in every arithmetic the rationals lie in,
  so that nothing on the way is divided by zero.
* `Smooth.wellFormed_block` says what a curve looks like (`Smooth.WellFormed`), and
  `Stat.curveBlock_eq_block` that the blocks of a table are such curves of doubles.
-/

namespace PlotGrammar

namespace Smooth

open Arithmetic Histogram

section Block

variable {α β : Type} [Arithmetic α]

/-- The bandwidth of a block, which is the one that is given or follows the rule of thumb, times a
factor. -/
def width (given : Option α) (factor deviation shrinkage : α) (values : List α) : α :=
  given.getD (ruleOfThumb deviation shrinkage values) * factor

/-- The curve of a sample whose mass is a bandwidth times the number of its values. -/
def block (kernel : α → α) (bandwidth : α) (points : ℕ) (v : α) (vs : List α) : List (Point α) :=
  curve kernel bandwidth (bandwidth * ofNat (vs.length + 1)) points v vs

/-- A density as a share of the highest one, unless there is none above zero. -/
def shareOf (top d : α) : α :=
  if lt zero top then d / top else d

/-- The point of a curve at a position, if its highest density is known. -/
def pointAt (kernel : α → α) (bandwidth mass : α) (values : List α) (top x : α) : Point α :=
  let d := densityAt kernel bandwidth mass values x
  ⟨x, d, d * ofNat values.length, shareOf top d⟩

/-- A point of a curve among other numbers. -/
def Point.map (f : α → β) (p : Point α) : Point β :=
  ⟨f p.position, f p.density, f p.count, f p.scaled⟩

/-- The points of a curve, each made from its position. -/
theorem curve_eq (kernel : α → α) (bandwidth mass : α) (points : ℕ) (v : α) (vs : List α) :
    curve kernel bandwidth mass points v vs =
      let positions := grid (least v vs) (greatest v vs) points
      let top := peak (positions.map (densityAt kernel bandwidth mass (v :: vs)))
      positions.map (pointAt kernel bandwidth mass (v :: vs) top) := by
  unfold curve
  dsimp only
  rw [← List.map_prod_left_eq_zip, List.map_map]
  rfl

end Block

/-! ### Positive bandwidths -/

theorem rat_not_isZero {x : ℚ} : (!isZero x) = true ↔ x ≠ 0 := by
  rw [Bool.not_eq_true', ← Bool.not_eq_true]
  exact not_congr rat_isZero

section Bandwidth

variable {deviation shrinkage factor : ℚ} {given : Option ℚ}

/-- One of the fallbacks is above zero, the last one in any case. -/
theorem spread_pos (h : 0 ≤ deviation) (range first : ℚ) : 0 < spread deviation range first := by
  -- the size of the first value, which is the last resort but one
  have hmagnitude : 0 ≤ if lt first zero then zero - first else first := by
    split
    · next hneg => exact sub_nonneg.2 (of_decide_eq_true hneg).le
    · next hpos => exact not_lt.1 fun hneg => hpos (decide_eq_true hneg)
  unfold spread
  dsimp only
  generalize (if lt range deviation then range else deviation) = smaller
  generalize (if lt first zero then zero - first else first) = magnitude at hmagnitude ⊢
  -- the first of them that is not zero, and one if all are
  split
  · next hsmaller => exact of_decide_eq_true hsmaller
  · split
    · next hdeviation => exact lt_of_le_of_ne h (rat_not_isZero.1 hdeviation).symm
    · split
      · next hfirst => exact lt_of_le_of_ne hmagnitude (rat_not_isZero.1 hfirst).symm
      · exact one_pos

theorem ruleOfThumb_pos (hdeviation : 0 ≤ deviation) (hshrinkage : 0 < shrinkage)
    (values : List ℚ) : 0 < ruleOfThumb deviation shrinkage values := by
  cases values with
  | nil => exact one_pos
  | cons v vs =>
    have htenths : (0 : ℚ) < ofInt 9 / ofInt 10 := div_pos (by decide) (by decide)
    exact mul_pos (mul_pos htenths (spread_pos hdeviation _ v)) hshrinkage

theorem width_pos (hgiven : ∀ b ∈ given, 0 < b) (hfactor : 0 < factor) (hdeviation : 0 ≤ deviation)
    (hshrinkage : 0 < shrinkage) (values : List ℚ) :
    0 < width given factor deviation shrinkage values := by
  refine mul_pos ?_ hfactor
  cases given with
  | none => exact ruleOfThumb_pos hdeviation hshrinkage values
  | some b => exact hgiven b rfl

end Bandwidth

/-! ### The shape of a curve -/

/-- What a curve of so many points looks like. -/
structure WellFormed (kernel : ℚ → ℚ) (bandwidth : ℚ) (values : List ℚ) (points : ℕ)
    (curve : List (Point ℚ)) : Prop where
  length : curve.length = points
  /-- It is read at equal steps from the least to the greatest value. -/
  positions : ∃ low high, IsLeast {v | v ∈ values} low ∧ IsGreatest {v | v ∈ values} high ∧
    DividesEvenly low high (points - 1) (curve.map Point.position)
  ascending : (curve.map Point.position).Pairwise (· ≤ ·)
  density : ∀ p ∈ curve, p.density =
    (values.map fun v => kernel ((p.position - v) / bandwidth)).sum / (bandwidth * values.length)
  nonneg : ∀ p ∈ curve, 0 ≤ p.density
  count : ∀ p ∈ curve, p.count = p.density * values.length
  scaled : ∀ p ∈ curve, 0 ≤ p.scaled ∧ p.scaled ≤ 1
  /-- A curve that is not flat has a point as high as can be. -/
  top : (∃ p ∈ curve, 0 < p.density) → ∃ p ∈ curve, p.scaled = 1
  flat : (∀ p ∈ curve, ¬ 0 < p.density) → ∀ p ∈ curve, p.scaled = 0

section Shape

variable {low high : ℚ} {n : ℕ}

theorem grid_eq_progression (low high : ℚ) (n : ℕ) :
    grid low high (n + 2) = progression low ((high - low) / (n + 1 : ℕ)) (n + 1) :=
  evenly_eq_progression n.succ_pos low high

/-- Steps that are not downwards do not descend. -/
theorem pairwise_le_progression {first step : ℚ} (hstep : 0 ≤ step) :
    (progression first step n).Pairwise (· ≤ ·) := by
  refine List.Pairwise.map _ (fun i j hij => ?_) List.pairwise_lt_range
  have hle : (i : ℚ) ≤ j := Nat.cast_le.2 (Nat.le_of_lt hij)
  exact add_le_add le_rfl (mul_le_mul_of_nonneg_left hle hstep)

theorem densityAt_eq (kernel : ℚ → ℚ) (bandwidth mass : ℚ) (values : List ℚ) (x : ℚ) :
    densityAt kernel bandwidth mass values x =
      (values.map fun v => kernel ((x - v) / bandwidth)).sum / mass := by
  unfold densityAt
  rw [Sum.total_eq_sum]

theorem densityAt_nonneg {kernel : ℚ → ℚ} (hkernel : ∀ u, 0 ≤ kernel u) {mass : ℚ}
    (hmass : 0 ≤ mass) (bandwidth : ℚ) (values : List ℚ) (x : ℚ) :
    0 ≤ densityAt kernel bandwidth mass values x := by
  rw [densityAt_eq]
  refine div_nonneg (List.sum_nonneg fun w hw => ?_) hmass
  obtain ⟨v, -, rfl⟩ := List.mem_map.1 hw
  exact hkernel _

/-- Among rationals nothing hides the highest density. -/
theorem isGreatest_peak {densities : List ℚ} (h : densities ≠ []) :
    IsGreatest {d | d ∈ densities} (peak densities) := by
  obtain ⟨d, ds, rfl⟩ := List.exists_cons_of_ne_nil h
  -- on numbers that are never undefined, the largest so far is kept as a maximum keeps it
  have hsame : (fun m y : ℚ => if le y m || !le m m then m else y) =
      fun m y => if lt m y then y else m := by
    funext m y
    change (if (decide (y ≤ m) || !decide (m ≤ m)) = true then m else y) =
      if decide (m < y) = true then y else m
    rcases le_or_gt y m with hle | hlt
    · rw [decide_eq_true hle, decide_eq_false (not_lt.2 hle)]
      rfl
    · rw [decide_eq_false (not_le.2 hlt), decide_eq_true hlt, decide_eq_true (le_refl m)]
      rfl
  have hpeak : peak (d :: ds) = greatest d ds := by
    unfold peak greatest
    rw [hsame]
  rw [hpeak]
  exact isGreatest_greatest d ds

section Share

variable {top : ℚ} {densities : List ℚ}

theorem shareOf_of_pos (h : 0 < top) (d : ℚ) : shareOf top d = d / top :=
  if_pos (decide_eq_true h)

theorem shareOf_of_not_pos (h : ¬ 0 < top) (d : ℚ) : shareOf top d = d :=
  if_neg fun htop => h (of_decide_eq_true htop)

theorem shareOf_peak_mem (hnonneg : ∀ d ∈ densities, 0 ≤ d) {d : ℚ} (hd : d ∈ densities) :
    0 ≤ shareOf (peak densities) d ∧ shareOf (peak densities) d ≤ 1 := by
  have hle : d ≤ peak densities := (isGreatest_peak (List.ne_nil_of_mem hd)).2 hd
  by_cases htop : 0 < peak densities
  · rw [shareOf_of_pos htop]
    exact ⟨div_nonneg (hnonneg d hd) htop.le, (div_le_one htop).2 hle⟩
  · have hzero : d = 0 := le_antisymm (hle.trans (not_lt.1 htop)) (hnonneg d hd)
    rw [shareOf_of_not_pos htop, hzero]
    exact ⟨le_rfl, zero_le_one⟩

/-- The highest density has the share of one, if it is above zero. -/
theorem shareOf_peak_self {d : ℚ} (hd : d ∈ densities) (hpos : 0 < d) :
    shareOf (peak densities) (peak densities) = 1 := by
  have htop : 0 < peak densities :=
    hpos.trans_le ((isGreatest_peak (List.ne_nil_of_mem hd)).2 hd)
  rw [shareOf_of_pos htop]
  exact div_self htop.ne'

theorem shareOf_peak_flat (hnonneg : ∀ d ∈ densities, 0 ≤ d) (hflat : ∀ d ∈ densities, ¬ 0 < d)
    {d : ℚ} (hd : d ∈ densities) : shareOf (peak densities) d = 0 := by
  have htop := hflat _ (isGreatest_peak (List.ne_nil_of_mem hd)).1
  rw [shareOf_of_not_pos htop]
  exact le_antisymm (not_lt.1 (hflat d hd)) (hnonneg d hd)

end Share

/-- **Curves of rationals have the shape of a density.** -/
theorem wellFormed_block {kernel : ℚ → ℚ} (hkernel : ∀ u, 0 ≤ kernel u) {bandwidth : ℚ}
    (hbandwidth : 0 < bandwidth) {points : ℕ} (hpoints : 2 ≤ points) (v : ℚ) (vs : List ℚ) :
    WellFormed kernel bandwidth (v :: vs) points (block kernel bandwidth points v vs) := by
  obtain ⟨n, rfl⟩ := Nat.exists_eq_add_of_le' hpoints
  have hlow := isLeast_least v vs
  have hhigh := isGreatest_greatest v vs
  -- the parts of a curve by name: where it is read, and what is read there
  let positions := grid (least v vs) (greatest v vs) (n + 2)
  let mass := bandwidth * ofNat (vs.length + 1)
  let density := densityAt kernel bandwidth mass (v :: vs)
  let densities := positions.map density
  let point := pointAt kernel bandwidth mass (v :: vs) (peak densities)
  have hprogression : positions = progression (least v vs)
      ((greatest v vs - least v vs) / (n + 1 : ℕ)) (n + 1) := grid_eq_progression ..
  have hblock : block kernel bandwidth (n + 2) v vs = positions.map point := curve_eq ..
  have hpositions : (positions.map point).map Point.position = positions := by
    rw [List.map_map]
    exact List.map_id _
  have hdensity : ∀ x, 0 ≤ density x := densityAt_nonneg hkernel
    (mul_nonneg hbandwidth.le (Nat.cast_nonneg (vs.length + 1))) bandwidth (v :: vs)
  -- a kernel that is not negative gives densities that are not
  have hnonneg : ∀ d ∈ densities, 0 ≤ d := List.forall_mem_map.2 fun x _ => hdensity x
  rw [hblock]
  constructor
  -- one field of the specification after the other, as the names above have them
  case length => rw [List.length_map, hprogression, length_progression]
  case positions =>
    refine ⟨_, _, hlow, hhigh, ?_⟩
    rw [hpositions, hprogression]
    exact dividesEvenly_progression n.succ_pos _ _
  case ascending =>
    rw [hpositions, hprogression]
    exact pairwise_le_progression
      (div_nonneg (sub_nonneg.2 (hlow.2 hhigh.1)) (Nat.cast_nonneg _))
  case density => exact List.forall_mem_map.2 fun x _ => densityAt_eq ..
  case nonneg => exact List.forall_mem_map.2 fun x _ => hdensity x
  case count => exact List.forall_mem_map.2 fun x _ => rfl
  case scaled =>
    exact List.forall_mem_map.2 fun x hx => shareOf_peak_mem hnonneg (List.mem_map_of_mem hx)
  case top =>
    rintro ⟨p, hp, hpos⟩
    obtain ⟨x, hx, rfl⟩ := List.mem_map.1 hp
    have hx : density x ∈ densities := List.mem_map_of_mem hx
    obtain ⟨y, hy, htop⟩ := List.mem_map.1 (isGreatest_peak (List.ne_nil_of_mem hx)).1
    -- the point of the greatest density reaches one
    refine ⟨point y, List.mem_map_of_mem hy, ?_⟩
    exact (congrArg (shareOf (peak densities)) htop).trans (shareOf_peak_self hx hpos)
  -- where no density is positive, no share is
  case flat =>
    intro hflat
    have hnone : ∀ d ∈ densities, ¬ 0 < d :=
      List.forall_mem_map.2 fun y hy => hflat (point y) (List.mem_map_of_mem hy)
    exact List.forall_mem_map.2 fun x hx =>
      shareOf_peak_flat hnonneg hnone (List.mem_map_of_mem hx)

end Shape

/-! ### Divisors -/

section Embedding

variable {β : Type} [Arithmetic β] {f : ℚ → β} (hf : Embeds f)

include hf

theorem map_point {n : ℕ} (hn : n ≠ 0) (low high : ℚ) (i : ℕ) :
    point (f low) (f high) n i = f (point low high n i) := by
  have hcount : (ofNat n : ℚ) ≠ 0 := Nat.cast_ne_zero.2 hn
  unfold point
  dsimp only
  rw [← hf.ofNat n, ← hf.ofNat i, ← hf.sub, ← hf.div hcount, ← hf.div hcount, hf.isZero,
    ← hf.mul, ← hf.mul, ← hf.add, ← hf.add, ← apply_ite f]

theorem map_evenly {n : ℕ} (hn : n ≠ 0) (low high : ℚ) :
    evenly (f low) (f high) n = (evenly low high n).map f := by
  unfold evenly
  rw [List.map_append, List.map_map, List.map_singleton]
  congr 1
  exact List.map_congr_left fun i _ => map_point hf hn low high i

theorem map_grid (low high : ℚ) (points : ℕ) :
    grid (f low) (f high) points = (grid low high points).map f := by
  match points with
  | 0 => rfl
  | 1 => rfl
  | n + 2 => exact map_evenly hf n.succ_ne_zero low high

theorem map_peak (densities : List ℚ) : peak (densities.map f) = f (peak densities) := by
  cases densities with
  | nil => exact hf.zero.symm
  | cons d ds =>
    refine List.foldl_map_hom fun m y => ?_
    rw [hf.le, hf.le, apply_ite f]

/-- A share is taken only of what is above zero. -/
theorem map_shareOf (top d : ℚ) : shareOf (f top) (f d) = f (shareOf top d) := by
  unfold shareOf
  rw [← hf.zero, hf.lt]
  split
  · next htop => exact (hf.div (of_decide_eq_true htop).ne').symm
  · rfl

section Kernel

variable {kernel : ℚ → ℚ} {kernel' : β → β} (hkernel : ∀ u, kernel' (f u) = f (kernel u))
  {bandwidth mass : ℚ} (hbandwidth : bandwidth ≠ 0)

include hkernel hbandwidth

theorem map_densityAt (hmass : mass ≠ 0) (values : List ℚ) (x : ℚ) :
    densityAt kernel' (f bandwidth) (f mass) (values.map f) (f x) =
      f (densityAt kernel bandwidth mass values x) := by
  have hweight : ∀ v, kernel' ((f x - f v) / f bandwidth) = f (kernel ((x - v) / bandwidth)) := by
    intro v
    rw [← hf.sub, ← hf.div hbandwidth, hkernel]
  unfold densityAt
  rw [hf.div hmass, ← Sum.total_map hf.zero hf.add, List.map_map, List.map_map]
  exact congrArg (Sum.total · / f mass) (List.map_congr_left fun v _ => hweight v)

theorem map_curve (hmass : mass ≠ 0) (points : ℕ) (v : ℚ) (vs : List ℚ) :
    curve kernel' (f bandwidth) (f mass) points (f v) (vs.map f) =
      (curve kernel bandwidth mass points v vs).map (Point.map f) := by
  have hdensity : ∀ x, densityAt kernel' (f bandwidth) (f mass) (f v :: vs.map f) (f x) =
      f (densityAt kernel bandwidth mass (v :: vs) x) :=
    map_densityAt hf hkernel hbandwidth hmass (v :: vs)
  have hpoint : ∀ top x, pointAt kernel' (f bandwidth) (f mass) (f v :: vs.map f) (f top) (f x) =
      (pointAt kernel bandwidth mass (v :: vs) top x).map f := by
    intro top x
    unfold pointAt Point.map
    dsimp only
    rw [hdensity, map_shareOf hf, hf.mul, hf.ofNat, List.length_cons, List.length_cons,
      List.length_map]
  let positions := grid (least v vs) (greatest v vs) points
  -- the highest density is found among the same positions
  have htop : peak ((positions.map f).map
      (densityAt kernel' (f bandwidth) (f mass) (f v :: vs.map f))) =
      f (peak (positions.map (densityAt kernel bandwidth mass (v :: vs)))) := by
    rw [← map_peak hf, List.map_map, List.map_map]
    exact congrArg peak (List.map_congr_left fun x _ => hdensity x)
  rw [curve_eq, curve_eq]
  dsimp only
  rw [hf.least, hf.greatest, map_grid hf, htop, List.map_map, List.map_map]
  exact List.map_congr_left fun x _ => hpoint _ x

/-- **Curves divide nothing by zero**: they are the same wherever the rationals lie. -/
theorem map_block (points : ℕ) (v : ℚ) (vs : List ℚ) :
    block kernel' (f bandwidth) points (f v) (vs.map f) =
      (block kernel bandwidth points v vs).map (Point.map f) := by
  have hmass : bandwidth * ofNat (vs.length + 1) ≠ 0 :=
    mul_ne_zero hbandwidth (Nat.cast_ne_zero.2 vs.length.succ_ne_zero)
  unfold block
  rw [List.length_map, ← hf.ofNat, ← hf.mul]
  exact map_curve hf hkernel hbandwidth hmass points v vs

end Kernel

theorem map_quantile (numerator : ℕ) {denominator : ℕ} (hdenominator : denominator ≠ 0)
    (sorted : List ℚ) : quantile numerator denominator (sorted.map f) =
      f (quantile numerator denominator sorted) := by
  have hcount : (ofNat denominator : ℚ) ≠ 0 := Nat.cast_ne_zero.2 hdenominator
  unfold quantile
  dsimp only
  simp only [List.length_map, ← hf.ofNat, ← hf.div hcount, ← hf.mul, hf.floor, ← hf.sub, ← hf.zero,
    List.getD_map, ← hf.ofInt, ← hf.half, hf.le, ← hf.add, ← apply_ite f]

theorem map_sorted (values : List ℚ) : sorted (values.map f) = (sorted values).map f := by
  unfold sorted
  refine (List.map_mergeSort fun x _ y _ => ?_).symm
  rw [hf.le, hf.le]

theorem map_quartileRange (values : List ℚ) :
    quartileRange (values.map f) = f (quartileRange values) := by
  have hsame : ((fun v => !le v v) ∘ f) = fun v => !le v v :=
    funext fun v => congrArg (!·) (hf.le v v)
  unfold quartileRange
  rw [List.find?_map, hsame]
  cases values.find? fun v => !le v v with
  | some v => rfl
  | none =>
    change quantile 75 100 (sorted (values.map f)) - quantile 25 100 (sorted (values.map f)) = _
    rw [map_sorted hf, map_quantile hf 75 (by decide), map_quantile hf 25 (by decide), hf.sub]

theorem map_spread (deviation range first : ℚ) :
    spread (f deviation) (f range) (f first) = f (spread deviation range first) := by
  unfold spread
  simp only [hf.lt, ← apply_ite f, ← hf.zero, hf.isZero, ← hf.sub, ← hf.ofInt]

theorem map_ruleOfThumb (deviation shrinkage : ℚ) (values : List ℚ) :
    ruleOfThumb (f deviation) (f shrinkage) (values.map f) =
      f (ruleOfThumb deviation shrinkage values) := by
  cases values with
  | nil => exact (hf.ofInt 1).symm
  | cons v vs =>
    have hrange : quartileRange (f v :: vs.map f) = f (quartileRange (v :: vs)) :=
      map_quartileRange hf (v :: vs)
    -- the divisors are the numbers `10`, `100` and `1.34`, of which none is zero
    have hten : (ofInt 10 : ℚ) ≠ 0 := by decide
    have hhundred : (ofInt 100 : ℚ) ≠ 0 := by decide
    have hquotient : (ofInt 134 / ofInt 100 : ℚ) ≠ 0 := div_ne_zero (by decide) hhundred
    unfold ruleOfThumb
    rw [List.map_cons]
    dsimp only
    rw [hrange, ← hf.ofInt, ← hf.ofInt, ← hf.ofInt, ← hf.ofInt, ← hf.div hten, ← hf.div hhundred,
      ← hf.div hquotient, map_spread hf, ← hf.mul, ← hf.mul]

theorem map_width (given : Option ℚ) (factor deviation shrinkage : ℚ) (values : List ℚ) :
    width (given.map f) (f factor) (f deviation) (f shrinkage) (values.map f) =
      f (width given factor deviation shrinkage values) := by
  unfold width
  rw [map_ruleOfThumb hf, Option.getD_map, hf.mul]

end Embedding

/-- **A sample of rationals has a density curve**: it is read at equal steps from the least to the
greatest value, no density is below zero, counts are densities times the number of values, and
shares lie between zero and one and reach one unless the curve is flat. The rule of thumb finds a
bandwidth above zero for any sample, and nothing is divided by zero: whatever an arithmetic answers
there, it finds the same bandwidth and the same curve. The curves of a table are this `block` of
this `width` on doubles (`Stat.curveBlock_eq_block`). -/
theorem curve_wellFormed {kernel : ℚ → ℚ} (hkernel : ∀ u, 0 ≤ kernel u) {given : Option ℚ}
    (hgiven : ∀ b ∈ given, 0 < b) {factor deviation shrinkage : ℚ} (hfactor : 0 < factor)
    (hdeviation : 0 ≤ deviation) (hshrinkage : 0 < shrinkage) {points : ℕ} (hpoints : 2 ≤ points)
    (v : ℚ) (vs : List ℚ) :
    let bandwidth := width given factor deviation shrinkage (v :: vs)
    WellFormed kernel bandwidth (v :: vs) points (block kernel bandwidth points v vs) ∧
      (∀ values, 0 < ruleOfThumb deviation shrinkage values) ∧ 0 < bandwidth ∧
      ∀ {β : Type} [Arithmetic β] {f : ℚ → β} {kernel' : β → β}, Embeds f →
        (∀ u, kernel' (f u) = f (kernel u)) →
        (∀ values, ruleOfThumb (f deviation) (f shrinkage) (values.map f) =
          f (ruleOfThumb deviation shrinkage values)) ∧
        block kernel' (width (given.map f) (f factor) (f deviation) (f shrinkage) ((v :: vs).map f))
          points (f v) (vs.map f) = (block kernel bandwidth points v vs).map (Point.map f) := by
  have hbandwidth : 0 < width given factor deviation shrinkage (v :: vs) :=
    width_pos hgiven hfactor hdeviation hshrinkage _
  refine ⟨wellFormed_block hkernel hbandwidth hpoints v vs,
    ruleOfThumb_pos hdeviation hshrinkage, hbandwidth, ?_⟩
  intro β _ f kernel' hf hkernel'
  refine ⟨map_ruleOfThumb hf deviation shrinkage, ?_⟩
  rw [map_width hf]
  exact map_block hf hkernel' hbandwidth.ne' points v vs

/-- A box over each of three values, two of them equal, with every division watched. -/
theorem curve_wellFormed_box :
    let kernel : ℚ → ℚ := fun u => if -1 ≤ u ∧ u ≤ 1 then 1 / 2 else 0
    let bandwidth : ℚ := width none 2 1 (1 / 2) [1, 1, 3]
    0 < bandwidth ∧ WellFormed kernel bandwidth [1, 1, 3] 5 (block kernel bandwidth 5 1 [1, 3]) ∧
      block (Checked.apply kernel)
          (width none (.of 2) (.of 1) (.of (1 / 2)) [Checked.of 1, .of 1, .of 3])
          5 (.of 1) [.of 1, .of 3] =
        (block kernel bandwidth 5 1 [1, 3]).map (Point.map Checked.of) := by
  intro kernel bandwidth
  have hkernel : ∀ u, 0 ≤ kernel u := by
    intro u
    change 0 ≤ if -1 ≤ u ∧ u ≤ 1 then (1 / 2 : ℚ) else 0
    split <;> norm_num
  have hgiven : ∀ b ∈ (none : Option ℚ), 0 < b := fun _ h => nomatch h
  have hfactor : (0 : ℚ) < 2 := by norm_num
  have hdeviation : (0 : ℚ) ≤ 1 := by norm_num
  have hshrinkage : (0 : ℚ) < 1 / 2 := by norm_num
  obtain ⟨hshape, -, hbandwidth, hdivisors⟩ :=
    curve_wellFormed hkernel hgiven hfactor hdeviation hshrinkage (by decide : 2 ≤ 5) 1 [1, 3]
  exact ⟨hbandwidth, hshape, (hdivisors Checked.embeds fun _ => rfl).2⟩

end Smooth

/-! ### Blocks of a table -/

/-- A double times a number is a double, if there is one near to the number. -/
theorem Number.float_mul? (x : Float) (n : Number) :
    (Number.float x).mul? n = n.toFloat?.map fun y => .float (x * y) := by
  have hdouble : ((Number.float x).toFloat?.bind fun x => n.toFloat?.bind fun y =>
      some (Number.float (x * y))) = n.toFloat?.map fun y => .float (x * y) :=
    Option.map_eq_bind.symm
  cases n with
  | int i => exact hdouble
  | float y => exact hdouble

namespace Stat

variable {settings : Settings} {given : Option Float} {factor : Float}

/-- A bandwidth that is not given as an exact integer is a double. -/
theorem bandwidth_eq_width (hgiven : settings.bandwidth = given.map .float)
    (hfactor : settings.adjust.toFloat? = some factor) (values : List Float) :
    bandwidth settings values = .ok (.float (Smooth.width given factor (Smooth.deviation values)
      (Float.pow (Float.ofNat values.length) (-0.2)) values)) := by
  have hbase : settings.bandwidth.getD (.float (Smooth.bandwidth values)) =
      .float (given.getD (Smooth.bandwidth values)) := by
    rw [hgiven, Option.getD_map]
  unfold bandwidth
  dsimp only
  rw [hbase, Number.float_mul?, hfactor]
  rfl

theorem massOf_float {x mass : Float} {values : ℕ} (h : massOf (.float x) values = .ok mass) :
    mass = x * Arithmetic.ofNat values := by
  unfold massOf at h
  rw [Number.float_mul?] at h
  cases hn : (Number.int values).toFloat? with
  | none =>
    rw [hn] at h
    exact nomatch h
  | some y =>
    have hy : y = Arithmetic.ofNat values := by
      change (if Binary64.isFinite (Float.ofInt values) then some (Float.ofInt values) else none) =
        some y at hn
      split at hn
      · cases hn
        rfl
      · exact nomatch hn
    rw [hn] at h
    cases h
    rw [hy]

/-- The block of a sample is its curve, computed on doubles, if its bandwidth is not given as an
exact integer. -/
theorem curveBlock_eq_block {weigh : Kernel} {defaults : Defaults} {key : List Cell} {v : Float}
    {vs : List Float} {rows : List CurveRow} (hgiven : settings.bandwidth = given.map .float)
    (hfactor : settings.adjust.toFloat? = some factor)
    (h : curveBlock (.each weigh) settings defaults ⟨key, v :: vs⟩ = .ok (some rows)) :
    ∃ points, pointCount settings defaults (vs.length + 1) = .ok points ∧
      rows = (Smooth.block weigh (Smooth.width given factor (Smooth.deviation (v :: vs))
        (Float.pow (Float.ofNat (vs.length + 1)) (-0.2)) (v :: vs)) points v vs).map
          fun p => ⟨key, p⟩ := by
  obtain ⟨base, hbase, hrest⟩ := bind_eq_ok.1 h
  obtain ⟨points, hpoints, hrest⟩ := bind_eq_ok.1 hrest
  obtain ⟨width, hwidth, hrest⟩ := bind_eq_ok.1 hrest
  obtain ⟨kernel, hkernel, hrest⟩ := bind_eq_ok.1 hrest
  obtain ⟨mass, hmass, hrest⟩ := bind_eq_ok.1 hrest
  -- the bandwidth is a double, so the mass is the product that `Smooth.block` takes
  rw [bandwidth_eq_width hgiven hfactor] at hbase
  cases hbase
  cases hwidth
  cases hkernel
  cases massOf_float hmass
  refine ⟨points, faulty_eq_ok.1 hpoints, ?_⟩
  by_cases hnone : points = 0
  · rw [if_pos hnone] at hrest
    exact nomatch hrest
  · rw [if_neg hnone] at hrest
    cases hrest
    rfl

end Stat

end PlotGrammar
