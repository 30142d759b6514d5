import PlotGrammar.Proofs.Stat.Numbering
import PlotGrammar.Proofs.Stat.Output
import PlotGrammar.Proofs.Stat.Reduction

/-!
# Bins and curves that cannot be computed

Parameters in range (`Stat.Ranged`) and defaults in range (`Stat.Defaults.InRange`) do not make sure
that there is something to compute.

* Bins cannot be laid where the steps of their grid cannot be counted, where there are too many of
  them, or where their edges descend. `Stat.Indivisible` lists these cases, and
  `Stat.faults_binEdges` says that laying bins is a fault in no other.
* A curve cannot be computed where the weights of all values at all points do not fit into memory,
  or where an integer bandwidth grows beyond the doubles when it is adjusted. `Stat.Overburdens`
  lists these cases, and `Stat.faults_curveBlock` says that a curve is a fault in no other.
-/

namespace PlotGrammar

/-! ### Numbers in range -/

/-- A number that is near to some double. -/
def Number.HasDouble (n : Number) : Prop :=
  n.toFloat?.isSome = true

/-- The product of two numbers is a double unless both are integers. -/
theorem Number.mul?_cases {m n : Number} (hm : m.HasDouble) (hn : n.HasDouble) :
    (∃ x, m.mul? n = some (.float x)) ∨
      ∃ i j, m = .int i ∧ n = .int j ∧ m.mul? n = some (.int (i * j)) := by
  obtain ⟨x, hx⟩ := Option.isSome_iff_exists.1 hm
  obtain ⟨y, hy⟩ := Option.isSome_iff_exists.1 hn
  have hdouble : (m.toFloat?.bind fun x => n.toFloat?.bind fun y => some (float (x * y))) =
      some (float (x * y)) := by
    rw [hx, hy]
    rfl
  cases m with
  | float a => exact Or.inl ⟨x * y, hdouble⟩
  | int i =>
    cases n with
    | float b => exact Or.inl ⟨x * y, hdouble⟩
    | int j => exact Or.inr ⟨i, j, rfl, rfl, rfl⟩

namespace StatConfig

/-- Comparing a number with the doubles finds one that is near to it. -/
theorem hasDouble_of_finite {v : Value} {n : Number} (h : finite v = .ok (some n)) :
    n.HasDouble := by
  unfold finite at h
  -- an integer is finite if it has a double, and a finite double has itself
  cases v with
  | int i =>
    dsimp only [Number.isFinite?] at h
    cases hi : Binary64.ofInt? i with
    | none =>
      rw [hi] at h
      exact nomatch h
    | some x =>
      rw [hi] at h
      cases h
      exact Option.isSome_iff_exists.2 ⟨x, hi⟩
  | float x =>
    dsimp only [Number.isFinite?] at h
    cases hx : Binary64.isFinite x with
    | true =>
      rw [hx] at h
      cases h
      rfl
    | false =>
      rw [hx] at h
      exact nomatch h
  | _ => exact nomatch h

theorem hasDouble_of_positive {v : Value} {n : Number} (h : positive v = .ok (some n)) :
    n.HasDouble := by
  obtain ⟨found, hfound, h⟩ := bind_eq_ok.1 h
  obtain ⟨rfl, -⟩ := Option.filter_eq_some_iff.1 (Except.ok.inj h)
  exact hasDouble_of_finite hfound

/-- A parameter that is given and can be read is what its reading gives. -/
theorem exists_read_of_optional {α : Type} {v : Value}
    {read : Value → Except Failure (Option α)} {refusal : Failure} {found : Option α} {a : α}
    (h : optional v read refusal = .ok found) (ha : found = some a) :
    ∃ w, read w = .ok (some a) := by
  subst ha
  rcases optional_eq_ok_iff.1 h with ⟨-, hnone⟩ | ⟨-, -, hread⟩
  · exact nomatch hnone
  · exact ⟨v, hread⟩

end StatConfig

namespace Stat

/-- Statistics fall back on at least one bin, and on at least two points. -/
structure Defaults.InRange (defaults : Defaults) : Prop where
  bins : ∃ n, wholeNumber defaults.bins = .ok n ∧ 1 ≤ n
  points : ∃ n, wholeNumber defaults.points = .ok n ∧ 2 ≤ n

/-- The numbers among the parameters have doubles, and a curve is read at two points at least. -/
structure Ranged (settings : Settings) : Prop where
  binWidth : ∀ n, settings.binWidth = some n → n.HasDouble
  boundary : ∀ n, settings.boundary = some n → n.HasDouble
  bandwidth : ∀ n, settings.bandwidth = some n → n.HasDouble
  adjust : settings.adjust.HasDouble
  points : ∀ n, settings.points = some n → 2 ≤ n

end Stat

theorem StatConfig.ReadAs.ranged {kit : Toolkit} {layer : Option Int} {stat : StatConfig}
    {settings : Settings} (h : ReadAs kit layer stat settings) : Stat.Ranged settings where
  binWidth n hn := by
    obtain ⟨w, hw⟩ := exists_read_of_optional h.binWidth hn
    exact hasDouble_of_positive hw
  boundary n hn := by
    obtain ⟨w, hw⟩ := exists_read_of_optional h.boundary hn
    exact hasDouble_of_finite hw
  bandwidth n hn := by
    obtain ⟨w, hw⟩ := exists_read_of_optional h.bandwidth hn
    exact hasDouble_of_positive hw
  adjust := hasDouble_of_positive h.adjust
  points n hn := by
    obtain ⟨w, hw⟩ := exists_read_of_optional h.points hn
    obtain ⟨-, htwo⟩ := Option.filter_eq_some_iff.1 (Except.ok.inj hw)
    exact of_decide_eq_true htwo

namespace Stat

/-- The greatest number of doubles that there is memory for. -/
def capacity : Nat :=
  100000000000

theorem allocatable_eq_ok {size n : Nat} :
    allocatable size = .ok n ↔ size ≤ capacity ∧ n = size := by
  unfold allocatable capacity
  split
  · exact ⟨fun h => (nomatch h), fun h => absurd h.1 (by omega)⟩
  · split
    · exact ⟨fun h => (nomatch h), fun h => absurd h.1 (by omega)⟩
    · rw [Int.toNat_natCast, Except.ok.injEq]
      exact ⟨fun h => ⟨by omega, h.symm⟩, fun h => h.2.symm⟩

/-! ### Bins -/

/-- Bins that cannot be laid over some values. -/
inductive Indivisible (how : Histogram.Binning Float) (values : List Float) : Prop
  /-- The steps of the grid cannot be counted: a quotient is not finite. -/
  | uncountable {f : Fault} (h : Histogram.steps how values = .error f)
  /-- There is no memory for as many edges. -/
  | crowded {n : Nat} (h : Histogram.steps how values = .ok n) (hn : capacity < n + 1)
  /-- Some edge is below the one before it. -/
  | descending {edges : List Float} (h : Histogram.edges how values = .ok edges)
      (hdescends : Histogram.ascending edges = false)

section Bins

variable {settings : Settings} {defaults : Defaults} {values : List Float}

theorem exists_toFloat {n : Number} (h : n.HasDouble) : ∃ x, toFloat n = .ok x := by
  obtain ⟨x, hx⟩ := Option.isSome_iff_exists.1 h
  unfold toFloat
  rw [hx]
  exact ⟨x, rfl⟩

theorem exists_binning (hs : Ranged settings) (hd : defaults.InRange) :
    ∃ how, binning settings defaults = .ok how := by
  unfold binning
  cases hw : settings.binWidth with
  | some w =>
    obtain ⟨x, hx⟩ := exists_toFloat (hs.binWidth w hw)
    dsimp only
    rw [hx]
    cases hb : settings.boundary with
    | none => exact ⟨_, rfl⟩
    | some b =>
      obtain ⟨y, hy⟩ := exists_toFloat (hs.boundary b hb)
      refine ⟨.width x (some y), ?_⟩
      change ((toFloat b).map some >>= fun boundary => _) = _
      rw [hy]
      rfl
  | none =>
    dsimp only
    unfold binCount
    cases settings.bins with
    | some n => exact ⟨_, rfl⟩
    | none =>
      obtain ⟨n, hn, hle⟩ := hd.bins
      dsimp only
      rw [hn]
      refine ⟨.count n.toNat, ?_⟩
      -- numbers of bins below -1 do not fit the request, and this one is at least 1
      change (faulty (if n < -1 then _ else _) >>= _) = _
      rw [if_neg (by omega)]
      rfl

/-- Where the steps of a division can be counted, its edges can be made. -/
theorem exists_edges {how : Histogram.Binning Float} {n : Nat}
    (h : Histogram.steps how values = .ok n) : ∃ edges, Histogram.edges how values = .ok edges := by
  cases values with
  | nil => exact ⟨_, rfl⟩
  | cons v vs =>
    cases how with
    | count n => exact ⟨_, rfl⟩
    | width w a =>
      obtain ⟨grid, hgrid, -⟩ := bind_eq_ok.1 h
      refine ⟨_, bind_eq_ok.2 ⟨grid, hgrid, rfl⟩⟩

theorem faults_faulty {α : Type} {x : Except Fault α} : Faults (faulty x) ↔ ∀ a, x ≠ .ok a :=
  faults_mapError

theorem faulty_eq_ok {α : Type} {x : Except Fault α} {a : α} : faulty x = .ok a ↔ x = .ok a :=
  mapError_eq_ok

/-- Values without a bin of their own are laid into one from zero to one. -/
theorem not_indivisible_nil : ¬ Indivisible (.count 1) [] := by
  rintro (h | ⟨h, hn⟩ | ⟨h, hdescends⟩)
  · exact nomatch h
  · cases h
    exact absurd hn (by decide)
  · cases h
    exact absurd hdescends (by decide +kernel)

theorem faults_binEdges (hs : Ranged settings) (hd : defaults.InRange) :
    Faults (binEdges settings defaults values) ↔
      values ≠ [] ∧ ∃ how, binning settings defaults = .ok how ∧ Indivisible how values := by
  unfold binEdges
  extract_lets -underBinder afterChoice
  -- once it is known how the values are divided, three things can go wrong in turn
  have hchoice : ∀ how, Faults (afterChoice how) ↔ Indivisible how values := by
    intro how
    dsimp -zeta only [afterChoice]
    rw [faults_bind, faults_faulty]
    constructor
    -- the fault is that of the count of the steps, of the memory, or of the order of the edges
    · rintro (h | ⟨n, hn, h⟩)
      · cases hsteps : Histogram.steps how values with
        | ok n => exact absurd hsteps (h n)
        | error f => exact .uncountable hsteps
      · have hn := faulty_eq_ok.1 hn
        rcases faults_bind.1 h with h | ⟨_, -, h⟩
        · refine .crowded hn (Nat.lt_of_not_le fun hle => ?_)
          exact faults_faulty.1 h _ (allocatable_eq_ok.2 ⟨hle, rfl⟩)
        · rcases faults_bind.1 h with h | ⟨edges, hedges, h⟩
          · obtain ⟨edges, hedges⟩ := exists_edges hn
            exact absurd hedges (faults_faulty.1 h edges)
          · refine .descending (faulty_eq_ok.1 hedges) ?_
            cases hascends : Histogram.ascending edges with
            | false => rfl
            | true =>
              rw [hascends] at h
              exact absurd h (not_faults_ok _)
    · rintro (hsteps | ⟨hn, hcrowded⟩ | ⟨hedges, hdescends⟩)
      · exact Or.inl fun n hn => nomatch hsteps.symm.trans hn
      · refine Or.inr ⟨_, faulty_eq_ok.2 hn, faults_bind.2 (Or.inl (faults_faulty.2 ?_))⟩
        intro m hm
        exact absurd (allocatable_eq_ok.1 hm).1 (Nat.not_le_of_lt hcrowded)
      · -- whatever is before the edges are looked at, a descending one is a fault
        cases hsteps : Histogram.steps how values with
        | error f => exact Or.inl fun n hn => nomatch hn
        | ok n =>
          refine Or.inr ⟨n, faulty_eq_ok.2 rfl, faults_bind.2 ?_⟩
          by_cases hroom : ∃ m, allocatable ((n : Int) + 1) = .ok m
          · obtain ⟨m, hm⟩ := hroom
            refine Or.inr ⟨m, faulty_eq_ok.2 hm, faults_bind.2 (Or.inr ?_)⟩
            refine ⟨_, faulty_eq_ok.2 hedges, ?_⟩
            rw [hdescends]
            exact faults_fault _
          · exact Or.inl (faults_faulty.2 fun m hm => hroom ⟨m, hm⟩)
  -- without values the bins are those between zero and one, which always work
  cases values with
  | nil =>
    refine ⟨fun h => absurd ((hchoice _).1 h) not_indivisible_nil, fun h => absurd rfl h.1⟩
  | cons v vs =>
    obtain ⟨how, hhow⟩ := exists_binning hs hd
    change Faults (binning settings defaults >>= afterChoice) ↔ _
    rw [hhow]
    refine (hchoice how).trans ⟨fun h => ⟨List.cons_ne_nil v vs, how, rfl, h⟩, ?_⟩
    rintro ⟨-, how', hsame, h⟩
    cases hsame
    exact h

end Bins

/-! ### Curves -/

section Curves

variable {settings : Settings} {defaults : Defaults}

/-- The number of points that is asked for. -/
def askedPoints (settings : Settings) (defaults : Defaults) : Except Fault Int :=
  match settings.points with
  | some n => .ok n
  | none => wholeNumber defaults.points

/-- A curve that cannot be computed for a sample of so many values. -/
inductive Overburdens (settings : Settings) (defaults : Defaults) (values : Nat) : Prop
  /-- There is no memory for the weights of all values at all points. -/
  | crowded {points : Int} (h : askedPoints settings defaults = .ok points)
      (hpoints : (capacity : Int) < points * values)
  /-- The bandwidth and its adjustment are integers. Their product, or what it comes to for all
  values, is beyond all doubles. -/
  | heavy {base factor : Int} (hbase : settings.bandwidth = some (.int base))
      (hfactor : settings.adjust = .int factor)
      (h : Binary64.ofInt? (base * factor) = none ∨
        Binary64.ofInt? (base * factor * values) = none)

theorem exists_askedPoints (hs : Ranged settings) (hd : defaults.InRange) :
    ∃ points, askedPoints settings defaults = .ok points ∧ 2 ≤ points := by
  unfold askedPoints
  cases hp : settings.points with
  | some n => exact ⟨n, rfl, by exact_mod_cast hs.points n hp⟩
  | none => exact hd.points

/-- The points are those that are asked for, if there is memory for the weights of all values. -/
theorem pointCount_eq_ok {points : Int} (hasked : askedPoints settings defaults = .ok points)
    (hpoints : 2 ≤ points) {values : Nat} (hvalues : 0 < values) {n : Nat} :
    pointCount settings defaults values = .ok n ↔
      points = n ∧ points * values ≤ (capacity : Int) := by
  obtain ⟨m, rfl⟩ := Int.eq_ofNat_of_zero_le (Int.le_trans (by decide) hpoints)
  -- the number of points that is asked for is tested for room, alone and with the values
  have hcount : pointCount settings defaults values =
      allocatable m >>= fun m => allocatable (m * values) >>= fun _ => pure m := by
    unfold askedPoints at hasked
    unfold pointCount
    cases hp : settings.points with
    | some m =>
      rw [hp] at hasked
      cases hasked
      rfl
    | none =>
      rw [hp] at hasked
      dsimp only at hasked ⊢
      rw [hasked]
      rfl
  rw [hcount]
  constructor
  · intro h
    obtain ⟨k, hk, hrest⟩ := bind_eq_ok.1 h
    obtain ⟨_, hproduct, hn⟩ := bind_eq_ok.1 hrest
    obtain ⟨-, hsame⟩ := allocatable_eq_ok.1 hk
    cases hn
    rw [hsame, ← Int.natCast_mul] at hproduct
    rw [← Int.natCast_mul, hsame]
    exact ⟨rfl, Int.ofNat_le.2 (allocatable_eq_ok.1 hproduct).1⟩
  · rintro ⟨hsame, hle⟩
    obtain rfl := Int.ofNat.inj hsame
    rw [← Int.natCast_mul] at hle
    have hproduct := Int.ofNat_le.1 hle
    -- there are values, so that the points alone are no more
    have hm : m ≤ capacity := Nat.le_trans (Nat.le_mul_of_pos_right m hvalues) hproduct
    refine bind_eq_ok.2 ⟨m, allocatable_eq_ok.2 ⟨hm, rfl⟩, bind_eq_ok.2 ⟨m * values, ?_, rfl⟩⟩
    rw [← Int.natCast_mul]
    exact allocatable_eq_ok.2 ⟨hproduct, rfl⟩

/-- A bandwidth that is no integer stays a double when it is adjusted. -/
theorem bandwidth_cases (hs : Ranged settings) (values : List Float) :
    (∃ x, bandwidth settings values = .ok (.float x)) ∨
      ∃ base factor, settings.bandwidth = some (.int base) ∧ settings.adjust = .int factor ∧
        bandwidth settings values = .ok (.int (base * factor)) := by
  unfold bandwidth
  -- the product of a double with anything that has one is a double again, or a fault
  cases hb : settings.bandwidth with
  | none =>
    have hauto : (Number.float (Smooth.bandwidth values)).HasDouble := rfl
    rcases Number.mul?_cases hauto hs.adjust with ⟨x, hx⟩ | ⟨i, j, hi, -, -⟩
    · dsimp only [Option.getD_none]
      rw [hx]
      exact Or.inl ⟨x, rfl⟩
    · exact nomatch hi
  | some base =>
    -- only two integers keep their product exact
    rcases Number.mul?_cases (hs.bandwidth base hb) hs.adjust with ⟨x, hx⟩ | ⟨i, j, rfl, hj, hx⟩
    · dsimp only [Option.getD_some]
      rw [hx]
      exact Or.inl ⟨x, rfl⟩
    · dsimp only [Option.getD_some]
      rw [hx]
      exact Or.inr ⟨i, j, rfl, hj, rfl⟩

theorem faults_toFloat {n : Number} : Faults (toFloat n) ↔ n.toFloat? = none := by
  unfold toFloat
  cases n.toFloat? with
  | none => exact ⟨fun _ => rfl, fun _ => faults_fault _⟩
  | some x => exact ⟨fun h => absurd h (not_faults_ok x), fun h => (nomatch h)⟩

theorem faults_massOf_int {base : Int} {values : Nat} :
    Faults (massOf (.int base) values) ↔ Binary64.ofInt? (base * values) = none :=
  faults_toFloat

/-- What a double comes to for as many values as there is memory for is a double. -/
theorem exists_massOf_float {values : Nat} (h : values ≤ capacity) (x : Float) :
    ∃ mass, massOf (.float x) values = .ok mass := by
  have hfloat : (Number.float x).HasDouble := rfl
  have hcount : (Number.int values).HasDouble :=
    Binary64.isSome_ofInt? (by unfold capacity at h; omega)
  rcases Number.mul?_cases hfloat hcount with ⟨y, hy⟩ | ⟨_, _, h, -⟩
  · unfold massOf
    rw [hy]
    exact ⟨y, rfl⟩
  · exact nomatch h

/-- A sample that is no burden has its curve. -/
theorem exists_curveBlock {weigh : Kernel} {s : Sample} (hs : Ranged settings)
    (hd : defaults.InRange) (hvalues : s.values ≠ [])
    (h : ¬ Overburdens settings defaults s.values.length) :
    ∃ rows, curveBlock (.each weigh) settings defaults s = .ok (some rows) := by
  obtain ⟨key, values⟩ := s
  obtain ⟨v, vs, rfl⟩ := List.exists_cons_of_ne_nil hvalues
  dsimp only at h
  rw [List.length_cons] at h
  obtain ⟨points, hasked, htwo⟩ := exists_askedPoints hs hd
  have hroom : points * (vs.length + 1 : Nat) ≤ (capacity : Int) :=
    Int.not_lt.1 fun hcrowded => h (.crowded hasked hcrowded)
  obtain ⟨n, rfl⟩ := Int.eq_ofNat_of_zero_le (Int.le_trans (by decide) htwo)
  -- once the width and the mass have been computed there is nothing that can break off
  have hn : pointCount settings defaults (vs.length + 1) = .ok n :=
    (pointCount_eq_ok hasked htwo (Nat.succ_pos _)).2 ⟨rfl, hroom⟩
  have htail : ∀ base x mass, bandwidth settings (v :: vs) = .ok base → toFloat base = .ok x →
      massOf base (vs.length + 1) = .ok mass →
      ∃ rows, curveBlock (.each weigh) settings defaults ⟨key, v :: vs⟩ = .ok (some rows) := by
    intro base x mass hbase hx hmass
    refine ⟨(Smooth.curve weigh x mass n v vs).map fun p => ⟨key, p⟩, ?_⟩
    refine bind_eq_ok.2 ⟨base, hbase, bind_eq_ok.2 ⟨n, faulty_eq_ok.2 hn, ?_⟩⟩
    refine bind_eq_ok.2 ⟨x, hx, bind_eq_ok.2 ⟨weigh, rfl, bind_eq_ok.2 ⟨mass, hmass, ?_⟩⟩⟩
    rw [if_neg (by omega)]
    rfl
  rcases bandwidth_cases hs (v :: vs) with ⟨x, hx⟩ | ⟨base, factor, hb, hf, hx⟩
  · -- a width that is a double always has a mass, as there is room for the values
    have hcount : vs.length + 1 ≤ capacity := by
      rw [← Int.natCast_mul] at hroom
      exact Nat.le_trans (Nat.le_mul_of_pos_left _ (by omega)) (Int.ofNat_le.1 hroom)
    obtain ⟨mass, hmass⟩ := exists_massOf_float hcount x
    exact htail _ x mass hx rfl hmass
  · -- a width that is an exact integer has one, because the curve is not too heavy
    obtain ⟨y, hy⟩ : ∃ y, toFloat (.int (base * factor)) = .ok y :=
      exists_toFloat (Option.isSome_iff_ne_none.2 fun hnone => h (.heavy hb hf (Or.inl hnone)))
    obtain ⟨mass, hmass⟩ : ∃ mass, massOf (.int (base * factor)) (vs.length + 1) = .ok mass :=
      exists_toFloat (Option.isSome_iff_ne_none.2 fun hnone => h (.heavy hb hf (Or.inr hnone)))
    exact htail _ y mass hx hy hmass

/-- The computation of an overburdening curve is a fault. -/
theorem Overburdens.faults {weigh : Kernel} {key : List Cell} {v : Float} {vs : List Float}
    (hs : Ranged settings) (hd : defaults.InRange)
    (h : Overburdens settings defaults (vs.length + 1)) :
    Faults (curveBlock (.each weigh) settings defaults ⟨key, v :: vs⟩) := by
  -- too many points are a fault whatever width was chosen before
  have hcount : ∀ base, bandwidth settings (v :: vs) = .ok base →
      (∀ n, pointCount settings defaults (vs.length + 1) ≠ .ok n) →
      Faults (curveBlock (.each weigh) settings defaults ⟨key, v :: vs⟩) := fun base hbase h =>
    faults_bind.2 (Or.inr ⟨base, hbase, faults_bind.2 (Or.inl (faults_faulty.2 h))⟩)
  cases h with
  | @crowded points hasked hcrowded =>
    have hfull : ∀ n, pointCount settings defaults (vs.length + 1) ≠ .ok n := by
      obtain ⟨asked, hsame, htwo⟩ := exists_askedPoints hs hd
      cases hsame.symm.trans hasked
      exact fun n hn => absurd ((pointCount_eq_ok hasked htwo (Nat.succ_pos _)).1 hn).2
        (Int.not_le.2 hcrowded)
    rcases bandwidth_cases hs (v :: vs) with ⟨x, hx⟩ | ⟨_, _, -, -, hx⟩
    · exact hcount _ hx hfull
    · exact hcount _ hx hfull
  | @heavy base factor hb hf hnone =>
    have hbase : bandwidth settings (v :: vs) = .ok (.int (base * factor)) := by
      unfold bandwidth
      rw [hb, hf]
      rfl
    -- the points are counted between the width and its double, and may already be too many
    by_cases hn : ∃ n, pointCount settings defaults (vs.length + 1) = .ok n
    · obtain ⟨n, hn⟩ := hn
      refine faults_bind.2 (Or.inr ⟨_, hbase, ?_⟩)
      refine faults_bind.2 (Or.inr ⟨n, faulty_eq_ok.2 hn, faults_bind.2 ?_⟩)
      cases hwidth : (Number.int (base * factor)).toFloat? with
      | none => exact Or.inl (faults_toFloat.2 hwidth)
      | some y =>
        obtain ⟨x, hx⟩ := exists_toFloat (Option.isSome_iff_exists.2 ⟨y, hwidth⟩)
        have hmass := hnone.resolve_left fun h => nomatch h.symm.trans hwidth
        refine Or.inr ⟨x, hx, faults_bind.2 (Or.inr ⟨weigh, rfl, ?_⟩)⟩
        exact faults_bind.2 (Or.inl (faults_massOf_int.2 hmass))
    · exact hcount _ hbase fun n h => hn ⟨n, h⟩

/-- A curve of some values ends with a fault exactly if it overburdens. -/
theorem faults_curveBlock {weigh : Kernel} {s : Sample} (hs : Ranged settings)
    (hd : defaults.InRange) (hvalues : s.values ≠ []) :
    Faults (curveBlock (.each weigh) settings defaults s) ↔
      Overburdens settings defaults s.values.length := by
  constructor
  · intro h
    by_cases hburden : Overburdens settings defaults s.values.length
    · exact hburden
    · obtain ⟨rows, hrows⟩ := exists_curveBlock hs hd hvalues hburden
      rw [hrows] at h
      exact absurd h (not_faults_ok _)
  · intro h
    obtain ⟨key, values⟩ := s
    obtain ⟨v, vs, rfl⟩ := List.exists_cons_of_ne_nil hvalues
    exact h.faults hs hd

end Curves

end Stat

end PlotGrammar
