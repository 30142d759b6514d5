import PlotGrammar.Proofs.Histogram
import Mathlib

/-!
# Edges without rounding

The edges of bins are made of samples by one definition. On rationals nothing is rounded, and the
edges are what they are meant to be.

* `Histogram.progression` lists equal steps. The edges of equal parts are one
  (`Histogram.divided_eq_progression`), and so are the edges on a grid: no edge has to be added at
  their end (`Histogram.gridFrom_eq_progression`).
* `Histogram.exists_gridSteps` says where a grid starts and how many steps it takes. Another anchor
  on the same grid gives the same steps (`Histogram.gridSteps_shift`).
* `Histogram.total_count_between` says that a value between the outer edges is counted once. So the
  densities of a sample fill an area of one (`Histogram.sum_density`).
* `Histogram.edges_exact` puts these together.
-/

namespace PlotGrammar.Histogram

open Arithmetic

/-! ### Rational samples -/

section Rational

variable {x y : ℚ}

theorem rat_ofNat (n : ℕ) : (ofNat n : ℚ) = n :=
  rfl

theorem rat_isZero : isZero x = true ↔ x = 0 := by
  change (decide (x ≤ 0) && decide (0 ≤ x)) = true ↔ x = 0
  rw [Bool.and_eq_true, decide_eq_true_eq, decide_eq_true_eq]
  exact le_antisymm_iff.symm

theorem rat_ceil (x : ℚ) : ceil x = .ok ⌈x⌉ := by
  change Except.ok x.ceil = Except.ok ⌈x⌉
  rw [Rat.ceil_eq_neg_floor_neg]
  rfl

theorem rat_holds {isLast : Bool} {v : ℚ} :
    holds isLast x y v = true ↔ x ≤ v ∧ (v < y ∨ isLast = true ∧ v ≤ y) := by
  change (decide (x ≤ v) && (decide (v < y) || (isLast && decide (v ≤ y)))) = true ↔ _
  simp only [Bool.and_eq_true, Bool.or_eq_true, decide_eq_true_eq]

theorem isLeast_least (x : ℚ) (xs : List ℚ) : IsLeast {v | v ∈ x :: xs} (least x xs) :=
  foldl_best (fun a b => decide (a < b)) id (fun _ => True) (fun _ _ _ _ => decide_eq_true_iff) xs x
    fun _ _ => trivial

theorem isGreatest_greatest (x : ℚ) (xs : List ℚ) :
    IsGreatest {v | v ∈ x :: xs} (greatest x xs) := by
  obtain ⟨hmem, hge⟩ := foldl_best (fun a b => decide (b < a)) (fun a : ℚ => -a) (fun _ => True)
    (fun a b _ _ => decide_eq_true_iff.trans neg_lt_neg_iff.symm) xs x fun _ _ => trivial
  exact ⟨hmem, fun y hy => neg_le_neg_iff.1 (hge y hy)⟩

end Rational

/-! ### Equal steps -/

/-- So many equal steps from a number on. -/
def progression (first step : ℚ) (n : ℕ) : List ℚ :=
  (List.range (n + 1)).map fun i => first + step * (i : ℕ)

section Progression

variable {first step : ℚ} {n : ℕ}

theorem progression_succ (first step : ℚ) (n : ℕ) :
    progression first step (n + 1) = progression first step n ++ [first + step * (n + 1 : ℕ)] := by
  unfold progression
  rw [List.range_succ, List.map_append]
  rfl

theorem mem_progression {e : ℚ} : e ∈ progression first step n ↔ ∃ i ≤ n, first + step * i = e := by
  unfold progression
  simp only [List.mem_map, List.mem_range, Nat.lt_succ_iff]

theorem length_progression : (progression first step n).length = n + 1 := by
  unfold progression
  rw [List.length_map, List.length_range]

theorem head?_progression : (progression first step n).head? = some first := by
  unfold progression
  rw [List.range_succ_eq_map, List.map_cons, List.head?_cons, Nat.cast_zero, mul_zero, add_zero]

theorem getLast?_progression :
    (progression first step n).getLast? = some (first + step * n) := by
  unfold progression
  rw [List.range_succ, List.map_append]
  exact List.getLast?_concat

/-- Steps upwards ascend. -/
theorem pairwise_progression (hstep : 0 < step) :
    (progression first step n).Pairwise (· < ·) := by
  refine List.Pairwise.map _ (fun i j hij => ?_) List.pairwise_lt_range
  have hlt : (i : ℚ) < j := Nat.cast_lt.2 hij
  show first + step * i < first + step * j
  nlinarith

/-- Neighbours are a step apart. -/
theorem isChain_progression :
    (progression first step n).IsChain fun a b => b - a = step := by
  induction n with
  | zero => exact List.isChain_singleton _
  | succ n ih =>
    rw [progression_succ]
    refine List.IsChain.append ih (List.isChain_singleton _) fun a ha b hb => ?_
    rw [getLast?_progression, Option.mem_some_iff] at ha
    rw [List.head?_cons, Option.mem_some_iff] at hb
    subst ha hb
    push_cast
    ring

end Progression

/-! ### Equally many parts -/

/-- The ends of the bins of a range; a range of one point is widened. -/
def widened (low high : ℚ) : ℚ × ℚ :=
  if low = high then (low - 1 / 2, high + 1 / 2) else (low, high)

section Parts

variable {low high : ℚ} {n : ℕ}

theorem widened_spec (h : low ≤ high) :
    (widened low high).1 < (widened low high).2 ∧ (widened low high).1 ≤ low ∧
      high ≤ (widened low high).2 := by
  unfold widened
  split
  · next heq =>
    subst heq
    refine ⟨?_, ?_, ?_⟩ <;> dsimp only <;> linarith
  · next hne => exact ⟨lt_of_le_of_ne h hne, le_refl _, le_refl _⟩

/-- Among rationals a step is zero only where there is no range, so that it does not matter what is
multiplied last. -/
theorem point_eq (hn : 0 < n) (low high : ℚ) (i : ℕ) :
    point low high n i = low + (high - low) / n * i := by
  have hpos : (n : ℚ) ≠ 0 := Nat.cast_ne_zero.2 hn.ne'
  unfold point
  dsimp only
  rw [rat_ofNat, rat_ofNat]
  split
  · next hzero =>
    have hrange : high - low = 0 := (div_eq_zero_iff.1 (rat_isZero.1 hzero)).resolve_right hpos
    rw [hrange]
    ring
  · ring

theorem evenly_eq_progression (hn : 0 < n) (low high : ℚ) :
    evenly low high n = progression low ((high - low) / n) n := by
  have hpos : (n : ℚ) ≠ 0 := Nat.cast_ne_zero.2 hn.ne'
  have hlast : low + (high - low) / n * n = high := by
    rw [div_mul_cancel₀ _ hpos]
    ring
  unfold evenly progression
  rw [List.range_succ, List.map_append, List.map_singleton, hlast]
  congr 1
  exact List.map_congr_left fun i _ => point_eq hn low high i

theorem divided_eq_progression (hn : 0 < n) (h : low ≤ high) :
    divided low high n = progression (widened low high).1
      (((widened low high).2 - (widened low high).1) / n) n := by
  rw [← evenly_eq_progression hn]
  change (if (decide (high ≤ low) && decide (low ≤ high)) = true then
    evenly (low - 1 / 2) (high + 1 / 2) n else evenly low high n) = _
  unfold widened
  rw [decide_eq_true h, Bool.and_true]
  by_cases heq : low = high
  · rw [if_pos heq, if_pos (decide_eq_true heq.ge)]
  · rw [if_neg heq, if_neg fun hle => heq (le_antisymm h (of_decide_eq_true hle))]

end Parts

/-! ### Grids -/

section Grid

variable {low high width anchor start : ℚ} {n : ℕ}

/-- What there is to say about where a grid starts, and how many steps it takes. -/
structure Steps (low high width anchor start : ℚ) (n : ℕ) : Prop where
  positive : 0 < n
  aligned : ∃ k : ℤ, start = anchor + k * width
  below : start ≤ low
  near : low < start + width
  reaches : high ≤ start + width * n
  /-- The last step is needed, unless there is only one. -/
  needed : n = 1 ∨ start + width * n - width < high

/-- The last point of a grid that is not above a number. -/
def gridStart (low width anchor : ℚ) : ℚ :=
  anchor + ⌊(low - anchor) / width⌋ * width

theorem gridSteps_eq (low high width anchor : ℚ) :
    gridSteps low high width anchor = .ok (gridStart low width anchor,
      max 1 ⌈(high - gridStart low width anchor) / width⌉.toNat) := by
  change (ceil ((high - gridStart low width anchor) / width) >>= fun needed =>
    Except.ok (gridStart low width anchor, max 1 needed.toNat)) = _
  rw [rat_ceil]
  rfl

theorem exists_gridSteps (hwidth : 0 < width) (low high anchor : ℚ) :
    ∃ start n, gridSteps low high width anchor = .ok (start, n) ∧
      Steps low high width anchor start n := by
  let k := ⌊(low - anchor) / width⌋
  let start := anchor + k * width
  let c := ⌈(high - start) / width⌉
  have hk : (k : ℚ) * width ≤ low - anchor := (le_div_iff₀ hwidth).1 (Int.floor_le _)
  have hk' : low - anchor < (k + 1) * width := (div_lt_iff₀ hwidth).1 (Int.lt_floor_add_one _)
  have hc : high - start ≤ c * width := (div_le_iff₀ hwidth).1 (Int.le_ceil _)
  have hc' : (c - 1) * width < high - start := by
    have hceil : (c : ℚ) < (high - start) / width + 1 := Int.ceil_lt_add_one _
    exact (lt_div_iff₀ hwidth).1 (by linarith)
  refine ⟨start, max 1 c.toNat, gridSteps_eq low high width anchor, ?_⟩
  -- the number of steps is the ceiling, unless this is below one
  rcases le_or_gt c 0 with hnone | hsome
  · have hsteps : max 1 c.toNat = 1 := by omega
    have hreach : (c : ℚ) * width ≤ 0 :=
      mul_nonpos_of_nonpos_of_nonneg (by exact_mod_cast hnone) hwidth.le
    rw [hsteps]
    refine ⟨Nat.one_pos, ⟨k, rfl⟩, by linarith, by linarith, ?_, Or.inl rfl⟩
    rw [Nat.cast_one, mul_one]
    linarith
  · have hsteps : ((max 1 c.toNat : ℕ) : ℚ) = c := by
      have hnat : ((max 1 c.toNat : ℕ) : ℤ) = c := by omega
      exact_mod_cast congrArg (Int.cast : ℤ → ℚ) hnat
    refine ⟨by omega, ⟨k, rfl⟩, by linarith, by linarith, ?_, Or.inr ?_⟩
    · rw [hsteps]
      linarith
    · rw [hsteps]
      linarith

/-- An anchor stands for all points of its grid. -/
theorem gridSteps_shift (hwidth : 0 < width) (low high anchor : ℚ) (k : ℤ) :
    gridSteps low high width (anchor + k * width) = gridSteps low high width anchor := by
  have hquotient : (low - (anchor + k * width)) / width = (low - anchor) / width - k := by
    field_simp
    ring
  have hstart : gridStart low width (anchor + k * width) = gridStart low width anchor := by
    unfold gridStart
    rw [hquotient, Int.floor_sub_intCast]
    push_cast
    ring
  rw [gridSteps_eq, gridSteps_eq, hstart]

/-- Steps that reach the end need no further edge. -/
theorem gridFrom_eq_progression (h : high ≤ start + width * n) :
    gridFrom start high width n = progression start width n := by
  have hreached : ¬ (lt (start + width * (n : ℚ)) high = true) := by
    change ¬ (decide (start + width * (n : ℚ) < high) = true)
    rw [decide_eq_true_eq]
    exact not_lt.2 h
  exact if_neg hreached

end Grid

/-! ### Counts and densities -/

section Counts

variable {a b v : ℚ} {rest values : List ℚ} {bin : Bin ℚ} {bins : List (Bin ℚ)}

/-- A value between the outer edges is counted once, any other one is not counted. -/
theorem total_count_between (h : (a :: b :: rest).Pairwise (· < ·)) (values : List ℚ) :
    total (count values (a :: b :: rest)) =
      values.countP fun v => decide (a ≤ v ∧ v ≤ rest.getLastD b) := by
  -- induction on the edges after the first two, which hold the first bin
  induction rest generalizing a b with
  | nil =>
    change values.countP (holds true a b) + 0 = _
    refine List.countP_congr fun v _ => ?_
    rw [rat_holds, decide_eq_true_eq]
    refine and_congr_right fun _ => ⟨fun hv => ?_, fun hv => Or.inr ⟨rfl, hv⟩⟩
    rcases hv with hv | ⟨-, hv⟩
    · exact hv.le
    · exact hv
  | cons c rest ih =>
    have hab : a < b := List.rel_of_pairwise_cons h List.mem_cons_self
    have hlast : b ≤ rest.getLastD c :=
      (List.rel_of_pairwise_cons h.of_cons List.getLastD_mem_cons).le
    let later (v : ℚ) : Bool := decide (b ≤ v ∧ v ≤ rest.getLastD c)
    -- a value in the first bin is in none of the later ones
    have hdisjoint : values.countP (fun v => holds false a b v || later v) =
        values.countP (holds false a b) + values.countP later := by
      refine countP_or fun v _ hv => decide_eq_false fun hv' => ?_
      have hbelow : v < b := by simpa using (rat_holds.1 hv).2
      exact absurd hv'.1 (not_le.2 hbelow)
    change values.countP (holds false a b) + total (count values (b :: c :: rest)) = _
    rw [ih h.of_cons, ← hdisjoint, List.getLastD_cons]
    refine List.countP_congr fun v _ => ?_
    change (holds false a b v || decide (b ≤ v ∧ v ≤ rest.getLastD c)) = true ↔ _
    rw [Bool.or_eq_true, rat_holds, decide_eq_true_eq, decide_eq_true_eq]
    constructor
    · rintro (⟨hav, hvb | hnone⟩ | ⟨hbv, hvlast⟩)
      · exact ⟨hav, by linarith⟩
      · exact absurd hnone.1 Bool.false_ne_true
      · exact ⟨by linarith, hvlast⟩
    · rintro ⟨hav, hvlast⟩
      -- `b` parts the values of the first bin from the others
      rcases lt_or_ge v b with hvb | hbv
      · exact Or.inl ⟨hav, Or.inl hvb⟩
      · exact Or.inr ⟨hbv, hvlast⟩

/-- Between edges that ascend every bin has a width. -/
theorem lt_of_mem_count {edges : List ℚ} (h : edges.Pairwise (· < ·))
    (hbin : bin ∈ count values edges) : bin.start < bin.stop := by
  induction edges with
  | nil => exact absurd hbin List.not_mem_nil
  | cons a rest ih =>
    cases rest with
    | nil => exact absurd hbin List.not_mem_nil
    | cons b rest =>
      rcases List.mem_cons.1 hbin with rfl | hbin
      · exact List.rel_of_pairwise_cons h List.mem_cons_self
      · exact ih h.of_cons hbin

/-- The area of a bin is its share. -/
theorem density_mul_width {n : ℕ} (hn : n ≠ 0) (h : bin.start < bin.stop) :
    bin.density n * (bin.stop - bin.start) = bin.count / n := by
  have hpos : (n : ℚ) ≠ 0 := Nat.cast_ne_zero.2 hn
  have hwidth : bin.stop - bin.start ≠ 0 := (sub_pos.2 h).ne'
  have hdensity : bin.density n = (bin.count : ℚ) / (n * (bin.stop - bin.start)) := if_neg hn
  rw [hdensity]
  field_simp

/-- The shares of bins add up to that of all of them together. -/
theorem sum_shares (n : ℚ) (bins : List (Bin ℚ)) :
    (bins.map fun bin => (bin.count / n : ℚ)).sum = total bins / n := by
  induction bins with
  | nil =>
    change (0 : ℚ) = ((0 : ℕ) : ℚ) / n
    rw [Nat.cast_zero, zero_div]
  | cons bin bins ih =>
    change _ = ((bin.count + total bins : ℕ) : ℚ) / n
    rw [List.map_cons, List.sum_cons, ih, Nat.cast_add, add_div]

/-- **Densities fill an area of one**, if there is anything in the bins. -/
theorem sum_density (hbins : ∀ bin ∈ bins, bin.start < bin.stop) (hn : total bins ≠ 0) :
    (bins.map fun bin => bin.density (total bins) * (bin.stop - bin.start)).sum = 1 := by
  rw [List.map_congr_left fun bin hbin => density_mul_width hn (hbins bin hbin), sum_shares]
  exact div_self (Nat.cast_ne_zero.2 hn)

end Counts

/-! ### The edges of a sample -/

/-- A division that can be asked for: some bins, or bins of some width. -/
def Binning.Proper : Binning ℚ → Prop
  | .count n => 0 < n
  | .width w _ => 0 < w

/-- Edges that ascend, from the least value or below it to the greatest value or above it. -/
structure Encloses (low high : ℚ) (edges : List ℚ) : Prop where
  ascending : edges.Pairwise (· < ·)
  first : ∃ first, edges.head? = some first ∧ first ≤ low
  last : ∃ last, edges.getLast? = some last ∧ high ≤ last

/-- Edges on the grid of a width through an anchor, no more of them than a range needs. -/
structure FitsGrid (width anchor low high : ℚ) (edges : List ℚ) : Prop where
  gaps : edges.IsChain fun a b => b - a = width
  aligned : ∀ e ∈ edges, ∃ k : ℤ, e - anchor = k * width
  first : ∃ first, edges.head? = some first ∧ low < first + width
  last : edges.length = 2 ∨ ∃ last, edges.getLast? = some last ∧ last - width < high

/-- Edges that divide what lies between the first and the last one into equally many parts. -/
structure DividesEvenly (first last : ℚ) (n : ℕ) (edges : List ℚ) : Prop where
  length : edges.length = n + 1
  head : edges.head? = some first
  getLast : edges.getLast? = some last
  gaps : edges.IsChain fun a b => b - a = (last - first) / n

section Edges

variable {low high width anchor start : ℚ} {n : ℕ} {values : List ℚ}

/-- Steps upwards enclose what they reach. -/
theorem encloses_progression {step : ℚ} (hstep : 0 < step) (hfirst : start ≤ low)
    (hlast : high ≤ start + step * n) : Encloses low high (progression start step n) :=
  ⟨pairwise_progression hstep, ⟨_, head?_progression, hfirst⟩, ⟨_, getLast?_progression, hlast⟩⟩

theorem Steps.fitsGrid (h : Steps low high width anchor start n) :
    FitsGrid width anchor low high (progression start width n) where
  gaps := isChain_progression
  aligned e he := by
    obtain ⟨k, hk⟩ := h.aligned
    obtain ⟨i, -, rfl⟩ := mem_progression.1 he
    refine ⟨k + i, ?_⟩
    rw [hk]
    push_cast
    ring
  first := ⟨_, head?_progression, h.near⟩
  last := by
    rw [length_progression]
    refine h.needed.imp (fun hn => by rw [hn]) fun hneeded => ?_
    exact ⟨_, getLast?_progression, hneeded⟩

theorem dividesEvenly_progression (hn : 0 < n) (first last : ℚ) :
    DividesEvenly first last n (progression first ((last - first) / n) n) where
  length := length_progression
  head := head?_progression
  getLast := by
    have hpos : (n : ℚ) ≠ 0 := Nat.cast_ne_zero.2 hn.ne'
    rw [getLast?_progression, div_mul_cancel₀ _ hpos, add_sub_cancel]
  gaps := isChain_progression

/-- The densities of values that edges enclose fill an area of one. -/
theorem Encloses.sum_density {edges : List ℚ} (h : Encloses low high edges)
    (hlength : 2 ≤ edges.length) {group : List ℚ} (hgroup : group ≠ [])
    (hvalues : ∀ v ∈ group, low ≤ v ∧ v ≤ high) :
    ((count group edges).map fun bin =>
      bin.density (total (count group edges)) * (bin.stop - bin.start)).sum = 1 := by
  refine Histogram.sum_density (fun bin hbin => lt_of_mem_count h.ascending hbin) ?_
  obtain ⟨first, hfirst, hlow⟩ := h.first
  obtain ⟨last, hlast, hhigh⟩ := h.last
  match edges, hlength with
  | a :: b :: rest, _ =>
    cases hfirst
    have hend : rest.getLastD b = last := by
      rw [List.getLast?_cons_cons, List.getLast?_cons, ← List.getLastD_eq_getLast?] at hlast
      exact Option.some.inj hlast
    rw [total_count_between h.ascending, List.countP_eq_length.2 fun v hv => ?_]
    · exact fun hnone => hgroup (List.length_eq_zero_iff.1 hnone)
    · obtain ⟨hl, hh⟩ := hvalues v hv
      rw [hend]
      exact decide_eq_true ⟨hlow.trans hl, hh.trans hhigh⟩

/-- **The edges of a sample of rationals** ascend and enclose all values. Edges on a grid fit it,
whichever of its points is the anchor; edges of equal parts divide the range of the values, or what
is half a unit around it if there is only one. So the densities of any part of the sample fill an
area of one. -/
theorem edges_exact {how : Binning ℚ} (hhow : how.Proper)
    (hlow : IsLeast {v | v ∈ values} low) (hhigh : IsGreatest {v | v ∈ values} high) :
    ∃ es, edges how values = .ok es ∧ Encloses low high es ∧
      (∀ w a, how = .width w a → FitsGrid w (a.getD (w / 2)) low high es ∧
        ∀ k : ℤ, edges (.width w (some (a.getD (w / 2) + k * w))) values = .ok es) ∧
      (∀ n, how = .count n →
        if low = high then DividesEvenly (low - 1 / 2) (high + 1 / 2) n es
        else DividesEvenly low high n es) ∧
      ∀ group ≠ [], (∀ v ∈ group, v ∈ values) →
        ((count group es).map fun bin =>
          bin.density (total (count group es)) * (bin.stop - bin.start)).sum = 1 := by
  have hrange : low ≤ high := hhigh.2 hlow.1
  -- the area is that of any progression that encloses the values
  have harea : ∀ {first step : ℚ} {m : ℕ}, 0 < m → Encloses low high (progression first step m) →
      ∀ group ≠ [], (∀ v ∈ group, v ∈ values) → ((count group (progression first step m)).map
        fun bin => bin.density (total (count group (progression first step m))) *
          (bin.stop - bin.start)).sum = 1 := by
    intro first step m hm hencloses group hgroup hvalues
    have hlength : 2 ≤ (progression first step m).length := by
      rw [length_progression]
      omega
    exact hencloses.sum_density hlength hgroup fun v hv =>
      ⟨hlow.2 (hvalues v hv), hhigh.2 (hvalues v hv)⟩
  cases values with
  | nil => exact absurd hlow.1 List.not_mem_nil
  | cons v vs =>
    -- least and greatest are computed as the program does, and they are unique
    have hleast : least v vs = low := (isLeast_least v vs).unique hlow
    have hgreatest : greatest v vs = high := (isGreatest_greatest v vs).unique hhigh
    -- both ways of laying edges give a progression, which has the remaining properties
    cases how with
    | count n =>
      have hn : 0 < n := hhow
      obtain ⟨hwide, hfirst, hlast⟩ := widened_spec hrange
      have hedges : edges (.count n) (v :: vs) = .ok (progression (widened low high).1
          (((widened low high).2 - (widened low high).1) / n) n) := by
        change Except.ok (divided (least v vs) (greatest v vs) n) = _
        rw [hleast, hgreatest, divided_eq_progression hn hrange]
      have hend : (widened low high).1 + ((widened low high).2 - (widened low high).1) / n * n =
          (widened low high).2 := by
        rw [div_mul_cancel₀ _ (Nat.cast_ne_zero.2 hn.ne'), add_sub_cancel]
      have hencloses : Encloses low high (progression (widened low high).1
          (((widened low high).2 - (widened low high).1) / n) n) :=
        encloses_progression (div_pos (sub_pos.2 hwide) (Nat.cast_pos.2 hn)) hfirst
          (hlast.trans hend.ge)
      refine ⟨_, hedges, hencloses, fun w a h => (nomatch h), fun m hm => ?_, harea hn hencloses⟩
      -- a widened range is divided like the one it came from
      cases hm
      have hparts := dividesEvenly_progression hn (widened low high).1 (widened low high).2
      unfold widened at hparts ⊢
      split
      · next heq =>
        rw [if_pos heq] at hparts
        exact hparts
      · next hne =>
        rw [if_neg hne] at hparts
        exact hparts
    | width w a =>
      have hw : 0 < w := hhow
      obtain ⟨start, m, hsteps, h⟩ := exists_gridSteps hw low high (a.getD (w / 2))
      -- moving the anchor by whole steps changes nothing
      have hgrid : ∀ k : ℤ, onGrid low high w (a.getD (w / 2) + k * w) =
          .ok (progression start w m) := by
        intro k
        unfold onGrid
        rw [gridSteps_shift hw, hsteps]
        exact congrArg Except.ok (gridFrom_eq_progression h.reaches)
      have hencloses := encloses_progression hw h.below h.reaches
      refine ⟨_, ?_, hencloses, ?_, fun n hn => (nomatch hn), harea h.positive hencloses⟩
      · have hown := hgrid 0
        rw [Int.cast_zero, zero_mul, add_zero] at hown
        change onGrid (least v vs) (greatest v vs) w (a.getD (w / 2)) = _
        rw [hleast, hgreatest, hown]
      · rintro w' a' hsame
        cases hsame
        refine ⟨h.fitsGrid, fun k => ?_⟩
        change onGrid (least v vs) (greatest v vs) w (a.getD (w / 2) + k * w) = _
        rw [hleast, hgreatest, hgrid]

/-- Three values in bins of a width of one. -/
theorem edges_exact_ones : ∃ es, edges (.width (1 : ℚ) none) [1, 5 / 2, 4] = .ok es ∧
    Encloses 1 4 es ∧ FitsGrid 1 (1 / 2) 1 4 es := by
  have hlow : IsLeast {v | v ∈ [(1 : ℚ), 5 / 2, 4]} 1 := by
    refine ⟨List.mem_cons_self, fun v hv => ?_⟩
    rcases List.mem_cons.1 hv with rfl | hv
    · exact le_rfl
    · rcases List.mem_cons.1 hv with rfl | hv
      · norm_num
      · rw [List.mem_singleton.1 hv]
        norm_num
  have hhigh : IsGreatest {v | v ∈ [(1 : ℚ), 5 / 2, 4]} 4 := by
    refine ⟨by simp, fun v hv => ?_⟩
    rcases List.mem_cons.1 hv with rfl | hv
    · norm_num
    · rcases List.mem_cons.1 hv with rfl | hv
      · norm_num
      · rw [List.mem_singleton.1 hv]
  have hproper : (Binning.width (1 : ℚ) none).Proper := show (0 : ℚ) < 1 by norm_num
  obtain ⟨es, hes, hencloses, hgrid, -⟩ := edges_exact hproper hlow hhigh
  exact ⟨es, hes, hencloses, (hgrid 1 none rfl).1⟩

end Edges

end PlotGrammar.Histogram
