import PlotGrammar.Proofs.Histogram
import PlotGrammar.Proofs.Stat.Faults
import PlotGrammar.Proofs.Stat.Samples
import PlotGrammar.Proofs.Table.Groups

/-!
# Bins keep rows

Bins are counted group by group, but all groups share their edges, which are computed from the whole
column. Whether a row is lost is therefore decided by the edges alone.

* `Stat.Tally` is what there is to count: a column, what divides its rows, and edges. Each group has
  its rows (`Tally.rows`) and its bins (`Tally.bins`), and `Tally.total_bins` says that its counts
  add up to the number of its rows between the first and the last edge.
* `Tally.Enclosed` says that every finite value is between them. It is the same to say that no group
  loses a row (`Tally.keeps_groups_iff`), and that the counts and the values that are reported as
  dropped make up all rows (`Tally.keeps_rows_iff`).
* `Stat.exists_tally` finds the tally of a run, whose columns stand in the result, and
  `Stat.bins_keep_enclosed_rows` puts these together.

Edges that divide the range of the values enclose them unless the range is wider than any finite
number. Edges on a grid need not do so: the first one is rounded, and may end up above the least
value (`Stat.grid_loses_least`).
-/

namespace PlotGrammar

/-- How many values an event reports as dropped. -/
def Event.dropped : Event → Nat
  | valuesDropped _ n _ => n
  | _ => 0

/-- An integer is near to a finite double, if to any. -/
theorem Binary64.isFinite_of_ofInt? {i : Int} {x : Float} (h : ofInt? i = some x) :
    isFinite x = true := by
  unfold ofInt? at h
  dsimp only at h
  split at h
  · next hfinite =>
    cases h
    exact hfinite
  · cases h

/-- The double nearest to an amount that is finite is finite. -/
theorem Cell.isFinite_of_toFloat? {c : Cell} {x : Float} (hc : c.isFinite = true)
    (h : c.toFloat? = some x) : Binary64.isFinite x = true := by
  cases c with
  | bool b => exact Binary64.isFinite_of_ofInt? h
  | int i => exact Binary64.isFinite_of_ofInt? h
  | float y =>
    cases h
    exact hc
  | _ => exact absurd hc Bool.false_ne_true

/-- A number that is found to be finite has a finite double. -/
theorem StatConfig.isFinite_of_finite {v : Value} {n : Number} {x : Float}
    (h : finite v = .ok (some n)) (hx : n.toFloat? = some x) : Binary64.isFinite x = true := by
  unfold finite at h
  -- an integer that is read has a double, and a double is read only if it is finite
  cases n with
  | int i => exact Binary64.isFinite_of_ofInt? hx
  | float y =>
    cases hx
    dsimp only [Number.isFinite?] at h
    cases v with
    | int i =>
      dsimp only at h
      split at h <;> cases h
    | float z =>
      dsimp only at h
      split at h
      · next hfinite =>
        cases h
        exact Option.some.inj hfinite
      · cases h
      · cases h
    | _ => cases h

namespace Table

/-- A column that a rule computes is found under the name of the rule. -/
theorem column?_of_ofRows {ρ : Type} {rules : List (Rule ρ)} {rows : List ρ} {computedBy : String}
    {t : Table} (h : ofRows rules rows computedBy = .ok t) {rule : Rule ρ} (hrule : rule ∈ rules) :
    t.column? rule.name = some (rule.field rows).column := by
  have hmem : rule.field rows ∈ t.fields := by
    rw [(fields_of_ofRows h).1]
    exact List.mem_map_of_mem hrule
  obtain ⟨f, hf⟩ := Option.isSome_iff_exists.1 (List.find?_isSome
    (p := fun f : Field => f.label == .text rule.name) |>.2 ⟨_, hmem, beq_self_eq_true _⟩)
  have hfound := List.find?_some hf
  have hsame : f.name = (rule.field rows).name := congrArg Label.name (eq_of_beq hfound)
  -- names do not repeat
  have heq := List.inj_on_of_nodup_map t.distinct (List.mem_of_find?_eq_some hf) hmem hsame
  unfold column?
  rw [hf, heq]
  rfl

end Table

namespace Stat

open Binary64

/-! ### Tallies -/

/-- The value of a row in a column, if it is finite. -/
def rowValue (column : Column) (i : Nat) : Option Float :=
  column.finiteFloats.getD i none

/-- What there is to count: the column whose values are counted, the columns that divide the rows
into groups, and the edges of the bins. -/
structure Tally where
  height : Nat
  column : Column
  keys : List Column
  edges : List Float

namespace Tally

/-- The rows with a finite value. -/
def finiteRows (t : Tally) : List Nat :=
  (List.range t.height).filter fun i => (rowValue t.column i).isSome

/-- The rows of a group with a finite value. -/
def rows (t : Tally) (key : List CellKey) : List Nat :=
  Group.rowsWith (rowKey t.keys) t.finiteRows key

/-- The groups: one for each key of rows with a finite value, or one of all rows if nothing divides
them. -/
def groups (t : Tally) : List (List CellKey) :=
  Group.columnKeys t.keys t.finiteRows

/-- The bins of a group. -/
def bins (t : Tally) (key : List CellKey) : List (Histogram.Bin Float) :=
  Histogram.count ((t.rows key).filterMap (rowValue t.column)) t.edges

/-- The finite values of all rows. -/
def values (t : Tally) : List Float :=
  t.column.finiteFloats.filterMap id

/-- Every finite value lies between the first and the last edge. -/
def Enclosed (t : Tally) : Prop :=
  ∀ v ∈ t.values, Histogram.within t.edges v = true

/-- The finite values are finitely far from each other. -/
def Narrow (t : Tally) : Prop :=
  ∀ v vs, t.values = v :: vs →
    isFinite (Arithmetic.greatest v vs - Arithmetic.least v vs) = true

end Tally

section Observations

variable {height : Nat} {column : Column} {keys : List Column}

/-- A row as it is observed, if its value is finite. -/
def observed? (column : Column) (keys : List Column) (i : Nat) : Option Observation :=
  (rowValue column i).map fun v => ⟨keys.map fun k => k.cells.getD i .missing, v⟩

theorem map_rowValue (h : column.cells.length = height) :
    (List.range height).map (rowValue column) = column.finiteFloats :=
  map_getD_range ((Column.length_finiteFloats column).trans h) none

theorem observations_eq (h : column.cells.length = height) :
    observations height column keys = (List.range height).filterMap (observed? column keys) := by
  unfold observations Table.rowsOf
  rw [← map_rowValue h, List.zip_map', List.filterMap_map]
  refine List.filterMap_congr fun i _ => ?_
  rw [Function.comp_apply, List.map_map]
  rfl

theorem observed?_eq_some (keys : List Column) {i : Nat} {v : Float}
    (h : rowValue column i = some v) :
    ∃ r, observed? column keys i = some r ∧ keyOf r.key = rowKey keys i ∧ r.value = v := by
  refine ⟨⟨keys.map fun k => k.cells.getD i .missing, v⟩, ?_, ?_, rfl⟩
  · unfold observed?
    rw [h]
    rfl
  · exact List.map_map

theorem map_key_observed (is : List Nat) :
    (is.filterMap (observed? column keys)).map (fun r => keyOf r.key) =
      (is.filter fun i => (rowValue column i).isSome).map (rowKey keys) := by
  induction is with
  | nil => rfl
  | cons i is ih =>
    cases hv : rowValue column i with
    | none =>
      have hnone : observed? column keys i = none := by
        unfold observed?
        rw [hv]
        rfl
      rw [List.filterMap_cons_none hnone, List.filter_cons_of_neg (by rw [hv]; decide), ih]
    | some v =>
      obtain ⟨r, hr, hkey, -⟩ := observed?_eq_some keys hv
      rw [List.filterMap_cons_some hr, List.filter_cons_of_pos (by rw [hv]; rfl), List.map_cons,
        List.map_cons, hkey, ih]

theorem map_value_observed (key : List CellKey) (is : List Nat) :
    (Group.rowsWith (fun r : Observation => keyOf r.key) (is.filterMap (observed? column keys))
        key).map Observation.value =
      (Group.rowsWith (rowKey keys) (is.filter fun i => (rowValue column i).isSome)
        key).filterMap (rowValue column) := by
  unfold Group.rowsWith
  -- induction on the rows, of which those without a value are left out on both sides
  induction is with
  | nil => rfl
  | cons i is ih =>
    cases hv : rowValue column i with
    | none =>
      have hnone : observed? column keys i = none := by
        unfold observed?
        rw [hv]
        rfl
      rw [List.filterMap_cons_none hnone, List.filter_cons_of_neg (by rw [hv]; decide), ih]
    | some v =>
      obtain ⟨r, hr, hkey, hvalue⟩ := observed?_eq_some keys hv
      rw [List.filterMap_cons_some hr,
        List.filter_cons_of_pos (p := fun i => (rowValue column i).isSome) (by rw [hv]; rfl)]
      dsimp only at ih ⊢
      -- an observation is in the group exactly if its row is
      by_cases hsame : rowKey keys i = key
      · have hmem : decide (keyOf r.key = key) = true := decide_eq_true (hkey.trans hsame)
        have hmem' : decide (rowKey keys i = key) = true := decide_eq_true hsame
        rw [List.filter_cons_of_pos (p := fun r : Observation => decide (keyOf r.key = key)) hmem,
          List.filter_cons_of_pos (p := fun i => decide (rowKey keys i = key)) hmem',
          List.map_cons, List.filterMap_cons_some hv, hvalue, ih]
      · have hnotin : ¬ decide (keyOf r.key = key) = true := by
          rw [hkey]
          simpa using hsame
        rw [List.filter_cons_of_neg (p := fun r : Observation => decide (keyOf r.key = key)) hnotin,
          List.filter_cons_of_neg (p := fun i => decide (rowKey keys i = key))
            (by simpa using hsame), ih]

/-- The samples of groups hold the values of their rows. -/
theorem map_values_samples (rows : List Observation) :
    (samples true rows).map Sample.values =
      (Group.keys (fun r : Observation => keyOf r.key) rows).map fun k =>
        (Group.rowsWith (fun r : Observation => keyOf r.key) rows k).map Observation.value := by
  unfold samples Group.of
  rw [if_pos rfl, List.filterMap_map, List.map_filterMap]
  refine (List.filterMap_congr fun k hk => ?_).trans (congrFun List.filterMap_eq_map _)
  -- a group has a first row
  have hgroup : (k, Group.rowsWith (fun r : Observation => keyOf r.key) rows k) ∈
      Group.of (fun r : Observation => keyOf r.key) rows := List.mem_map_of_mem hk
  obtain ⟨⟨r, hr⟩, -⟩ := Group.exists_head?_of_mem hgroup
  dsimp only [Function.comp_apply] at hr ⊢
  rw [hr]
  rfl

end Observations

/-! ### Finite values and widths -/

/-- The values that are read from a column are finite. -/
theorem isFinite_of_rowValue {column : Column} {i : Nat} {v : Float}
    (h : rowValue column i = some v) : isFinite v = true := by
  have hmem : some v ∈ column.finiteFloats := by
    unfold rowValue at h
    rw [List.getD_eq_getElem?_getD] at h
    cases hi : column.finiteFloats[i]? with
    | none =>
      rw [hi] at h
      cases h
    | some w =>
      rw [hi, Option.getD_some] at h
      rw [← h]
      exact List.mem_of_getElem? hi
  obtain ⟨c, -, hc⟩ := List.mem_map.1 hmem
  split at hc
  · next hfinite => exact Cell.isFinite_of_toFloat? hfinite hc
  · cases hc

section Edges

variable {settings : Settings} {defaults : Defaults} {values edges : List Float}

/-- What edges are laid by: values without a bin of their own have one from zero to one. -/
def Divides (settings : Settings) (defaults : Defaults) (values : List Float)
    (how : Histogram.Binning Float) : Prop :=
  (values = [] ∧ how = .count 1) ∨ (values ≠ [] ∧ binning settings defaults = .ok how)

/-- The edges that are laid are few enough to be counted in doubles, and do not descend. -/
theorem binEdges_eq_ok (h : binEdges settings defaults values = .ok edges) :
    ∃ how n, Divides settings defaults values how ∧ Histogram.steps how values = .ok n ∧
      n < 2 ^ 53 ∧ Histogram.edges how values = .ok edges ∧ Histogram.ascending edges = true := by
  unfold binEdges at h
  extract_lets -underBinder afterChoice at h
  obtain ⟨how, hdivides, h⟩ : ∃ how, Divides settings defaults values how ∧
      afterChoice how = .ok edges := by
    -- no values, no choice: the edges then do not depend on the parameters
    cases values with
    | nil => exact ⟨_, Or.inl ⟨rfl, rfl⟩, h⟩
    | cons v vs =>
      obtain ⟨how, hhow, h⟩ := bind_eq_ok.1 h
      exact ⟨how, Or.inr ⟨List.cons_ne_nil v vs, hhow⟩, h⟩
  dsimp -zeta only [afterChoice] at h
  obtain ⟨n, hsteps, h⟩ := bind_eq_ok.1 h
  obtain ⟨size, hsize, h⟩ := bind_eq_ok.1 h
  obtain ⟨found, hedges, h⟩ := bind_eq_ok.1 h
  have hfits := allocatable_eq_ok.1 (faulty_eq_ok.1 hsize)
  -- so many edges fit a memory, so their number is far from `2 ^ 53`
  have hn : n < 2 ^ 53 := by
    have hcapacity : capacity < 2 ^ 53 := by decide
    omega
  dsimp only at h
  split at h
  · next hascend =>
    cases h
    exact ⟨how, n, hdivides, faulty_eq_ok.1 hsteps, hn, faulty_eq_ok.1 hedges, hascend⟩
  · cases h

/-- The width of a grid is a finite number. -/
theorem isFinite_of_divides {kit : Toolkit} {stat : StatConfig} {layer : Option Int}
    {how : Histogram.Binning Float} (hs : stat.settings kit layer = .ok settings)
    (h : Divides settings defaults values how) {w : Float} {a : Option Float}
    (hhow : how = .width w a) : isFinite w = true := by
  rcases h with ⟨-, h⟩ | ⟨-, h⟩
  · cases h.symm.trans hhow
  · subst hhow
    unfold binning at h
    split at h
    -- a width is read from the parameters, which have to be positive and so finite
    · next n hn =>
      obtain ⟨x, hx, h⟩ := bind_eq_ok.1 h
      obtain ⟨boundary, -, h⟩ := bind_eq_ok.1 h
      cases h
      obtain ⟨v, hv⟩ :=
        StatConfig.exists_read_of_optional (StatConfig.readAs_of_settings hs).binWidth hn
      obtain ⟨found, hfound, hfilter⟩ := bind_eq_ok.1 hv
      obtain ⟨rfl, -⟩ := Option.filter_eq_some_iff.1 (Except.ok.inj hfilter)
      refine StatConfig.isFinite_of_finite hfound ?_
      unfold toFloat at hx
      split at hx
      · next y hy =>
        cases hx
        exact hy
      · cases hx
    -- bins by number have no width
    · obtain ⟨n, -, h⟩ := bind_eq_ok.1 h
      cases h

/-- The edges that are laid have a bin for what is between the first and the last one. -/
theorem sound_of_binEdges {kit : Toolkit} {stat : StatConfig} {layer : Option Int}
    (hs : stat.settings kit layer = .ok settings) (hvalues : ∀ v ∈ values, isFinite v = true)
    (h : binEdges settings defaults values = .ok edges) : Histogram.Sound edges := by
  obtain ⟨how, n, hdivides, hsteps, hn, hedges, hascend⟩ := binEdges_eq_ok h
  exact Histogram.sound_edges (fun w a hhow => isFinite_of_divides hs hdivides hhow) hvalues hsteps
    hn hedges hascend

end Edges

/-! ### The counts of a tally -/

namespace Tally

variable {t : Tally}

/-- Whether the value of a row lies between the first and the last edge. -/
def holds (t : Tally) (i : Nat) : Bool :=
  (rowValue t.column i).any (Histogram.within t.edges)

theorem mem_finiteRows {i : Nat} :
    i ∈ t.finiteRows ↔ i < t.height ∧ (rowValue t.column i).isSome = true := by
  unfold finiteRows
  rw [List.mem_filter, List.mem_range]

/-- The finite values are those of the rows that have one. -/
theorem mem_values (hlength : t.column.cells.length = t.height) {v : Float} :
    v ∈ t.values ↔ ∃ i ∈ t.finiteRows, rowValue t.column i = some v := by
  unfold values
  rw [← map_rowValue hlength, List.filterMap_map, List.mem_filterMap]
  constructor
  · rintro ⟨i, hi, hv⟩
    have hv : rowValue t.column i = some v := hv
    exact ⟨i, mem_finiteRows.2 ⟨List.mem_range.1 hi, by rw [hv]; rfl⟩, hv⟩
  · rintro ⟨i, hi, hv⟩
    exact ⟨i, List.mem_range.2 (mem_finiteRows.1 hi).1, hv⟩

theorem isFinite_of_mem_values (hlength : t.column.cells.length = t.height) {v : Float}
    (h : v ∈ t.values) : isFinite v = true := by
  obtain ⟨i, -, hv⟩ := (mem_values hlength).1 h
  exact isFinite_of_rowValue hv

/-- All values are enclosed exactly if the rows that have one are between the outer edges. -/
theorem enclosed_iff (hlength : t.column.cells.length = t.height) :
    t.Enclosed ↔ ∀ i ∈ t.finiteRows, t.holds i = true := by
  unfold Enclosed holds
  constructor
  · intro h i hi
    obtain ⟨v, hv⟩ := Option.isSome_iff_exists.1 (mem_finiteRows.1 hi).2
    rw [hv]
    exact h v ((mem_values hlength).2 ⟨i, hi, hv⟩)
  · intro h v hv
    obtain ⟨i, hi, hv⟩ := (mem_values hlength).1 hv
    have hheld := h i hi
    rw [hv] at hheld
    exact hheld

/-- **The counts of a group** add up to the number of its rows between the outer edges. -/
theorem total_bins (hsound : Histogram.Sound t.edges) (key : List CellKey) :
    Histogram.total (t.bins key) = (t.rows key).countP t.holds := by
  unfold bins
  rw [hsound.total_count fun v hv => ?_, List.countP_filterMap]
  · refine List.countP_congr fun i _ => ?_
    unfold holds
    cases rowValue t.column i <;> rfl
  · obtain ⟨i, -, hv⟩ := List.mem_filterMap.1 hv
    exact isFinite_of_rowValue hv

/-- The groups keep all their rows exactly if every value is enclosed. -/
theorem keeps_groups_iff (hlength : t.column.cells.length = t.height)
    (hsound : Histogram.Sound t.edges) :
    (∀ key ∈ t.groups, Histogram.total (t.bins key) = (t.rows key).length) ↔ t.Enclosed := by
  rw [enclosed_iff hlength]
  constructor
  · intro h i hi
    obtain ⟨key, ⟨hkey, hmem⟩, -⟩ := Group.existsUnique_columnKeys hi
    have hall := (total_bins hsound key).symm.trans (h key hkey)
    exact List.countP_eq_length.1 hall i hmem
  · intro h key _
    rw [total_bins hsound]
    exact List.countP_eq_length.2 fun i hi => h i (List.mem_filter.1 hi).1

/-- The counts of all groups add up to the number of rows between the outer edges. -/
theorem sum_total (hsound : Histogram.Sound t.edges) :
    (t.groups.map fun key => Histogram.total (t.bins key)).sum = t.finiteRows.countP t.holds := by
  rw [List.map_congr_left fun key _ => total_bins hsound key]
  exact Group.sum_columnKeys t.holds

/-- Rows have a finite value, or are reported as dropped. -/
theorem length_finiteRows (hlength : t.column.cells.length = t.height) :
    t.finiteRows.length + t.column.finiteFloats.countP Option.isNone = t.height := by
  have hrows : t.column.finiteFloats.length = t.height := by
    rw [Column.length_finiteFloats, hlength]
  have hsplit := List.length_eq_countP_add_countP Option.isSome (l := t.column.finiteFloats)
  have hsome : t.finiteRows.length = t.column.finiteFloats.countP Option.isSome := by
    unfold finiteRows
    rw [← List.countP_eq_length_filter, ← map_rowValue hlength, List.countP_map]
    rfl
  have hnone : t.column.finiteFloats.countP Option.isNone =
      t.column.finiteFloats.countP fun v => decide ¬ v.isSome = true := by
    refine List.countP_congr fun v _ => ?_
    cases v with
    | none => decide
    | some x =>
      exact ⟨fun h => absurd h Bool.false_ne_true, fun h => absurd rfl (of_decide_eq_true h)⟩
  omega

/-- The counts and the dropped values together make up all rows exactly if every value is
enclosed. -/
theorem keeps_rows_iff (hlength : t.column.cells.length = t.height)
    (hsound : Histogram.Sound t.edges) :
    (t.groups.map fun key => Histogram.total (t.bins key)).sum +
        t.column.finiteFloats.countP Option.isNone = t.height ↔ t.Enclosed := by
  rw [sum_total hsound, enclosed_iff hlength, ← List.countP_eq_length]
  have hlength := length_finiteRows hlength
  omega

/-- **Bins that divide the range** enclose all values exactly if these are finitely far from each
other. -/
theorem enclosed_iff_narrow {settings : Settings} {defaults : Defaults}
    (hlength : t.column.cells.length = t.height)
    (h : binEdges settings defaults t.values = .ok t.edges) (hwidth : settings.binWidth = none)
    {n : Nat} (hn : binCount settings defaults = .ok n) (hpos : 0 < n) :
    t.Enclosed ↔ t.Narrow := by
  obtain ⟨how, m, hdivides, hsteps, hm, hedges, -⟩ := binEdges_eq_ok h
  cases hvalues : t.values with
  | nil =>
    unfold Enclosed Narrow
    rw [hvalues]
    exact ⟨fun _ v vs h => absurd h (List.cons_ne_nil v vs).symm,
      fun _ v hv => absurd hv List.not_mem_nil⟩
  | cons v vs =>
    -- without a width the bins are divided by number
    have hcount : how = .count n := by
      rcases hdivides with ⟨hnil, -⟩ | ⟨-, hhow⟩
      · exact absurd (hvalues.symm.trans hnil) (List.cons_ne_nil v vs)
      · unfold binning at hhow
        rw [hwidth] at hhow
        dsimp only at hhow
        rw [hn] at hhow
        cases hhow
        rfl
    subst hcount
    rw [hvalues] at hsteps hedges
    cases hsteps
    have hwithin := Histogram.within_edges_of_count
      (fun x hx => isFinite_of_mem_values hlength (hvalues ▸ hx)) hpos hm hedges
    unfold Enclosed Narrow
    rw [hvalues]
    -- one value is enclosed exactly if all are
    constructor
    · intro henclosed w ws hw
      cases hw
      rw [← hwithin v List.mem_cons_self]
      exact henclosed v List.mem_cons_self
    · intro hnarrow x hx
      rw [hwithin x hx]
      exact hnarrow v vs rfl

/-- A column of doubles computed for all bins, group by group. -/
def doubles (t : Tally) (amount : Histogram.Bin Float → Float) : Column :=
  ⟨.float, t.groups.flatMap fun key => (t.bins key).map fun b => .ofFloat (amount b)⟩

/-- What a run of bins counts, and where the counts stand in its result. -/
structure Of (t : Tally) (settings : Settings) (defaults : Defaults) (table : Table)
    (mapping : Mapping) (geometry : Value) (layer : Option Int) (name : String) (result : Table) :
    Prop where
  height : t.height = table.height
  /-- The bins run along an axis to which the column is bound. -/
  bound : ∃ along, axis .bin settings.axis table mapping geometry layer = .ok along ∧
    mapping.column? along.channel = some name
  column : table.series name = .ok t.column
  keys : ∃ names, groupColumns table mapping name = .ok names ∧ allSeries table names = .ok t.keys
  edges : binEdges settings defaults t.values = .ok t.edges
  starts : result.column? (startName name) = some (t.doubles Histogram.Bin.start)
  stops : result.column? (stopName name) = some (t.doubles Histogram.Bin.stop)
  counts : result.column? countName = some (t.doubles fun b => Float.ofNat b.count)

end Tally

/-! ### Runs -/

section Runs

variable {settings : Settings} {defaults : Defaults} {table result : Table} {mapping : Mapping}
  {geometry : Value} {layer : Option Int}

/-- The values of the samples of a table are those of the groups of its tally. -/
theorem values_of_samples (t : Tally) (hlength : t.column.cells.length = t.height) :
    (samples (!t.keys.isEmpty) (observations t.height t.column t.keys)).map Sample.values =
      t.groups.map fun key => (t.rows key).filterMap (rowValue t.column) := by
  cases hkeys : t.keys.isEmpty with
  | true =>
    -- one sample of all rows
    have hall : t.rows [] = t.finiteRows := Group.rowsWith_of_isEmpty hkeys
    have hvalues : t.finiteRows.filterMap (rowValue t.column) =
        t.column.finiteFloats.filterMap id := by
      unfold Tally.finiteRows
      rw [← map_rowValue hlength, List.filterMap_map, List.filterMap_filter]
      refine List.filterMap_congr fun i _ => ?_
      rw [Function.comp_apply]
      cases rowValue t.column i <;> rfl
    unfold Tally.groups
    rw [Group.columnKeys_of_isEmpty hkeys, List.map_singleton, hall, hvalues,
      ← map_value_observations hlength]
    rfl
  | false =>
    unfold Tally.groups
    rw [Group.columnKeys_of_not_isEmpty hkeys]
    change (samples true _).map Sample.values = _
    rw [map_values_samples, observations_eq hlength]
    have hgroups : Group.keys (fun r : Observation => keyOf r.key)
        ((List.range t.height).filterMap (observed? t.column t.keys)) =
          Group.keys (rowKey t.keys) t.finiteRows := by
      unfold Group.keys
      rw [map_key_observed]
      rfl
    rw [hgroups]
    exact List.map_congr_left fun key _ => map_value_observed key _

/-- A computed column stands in the table that is assembled. -/
theorem column?_of_assemble {ρ : Type} {stat : StatKind} {keys : List String}
    {division : Division} {computed : List (Table.Rule ρ)} {key : ρ → List Cell}
    {blocks : List (List ρ)} (h : assemble stat keys division computed key blocks = .ok result)
    {rule : Table.Rule ρ} (hrule : rule ∈ computed) :
    result.column? rule.name = some (rule.field blocks.flatten).column := by
  unfold assemble at h
  split at h
  · cases h
  · exact Table.column?_of_ofRows h (List.mem_append_right _ hrule)

/-- The cells of a column computed for bins. -/
theorem map_flatten_binBlock (t : Tally) {samples : List Sample}
    (h : samples.map Sample.values = t.groups.map fun key =>
      (t.rows key).filterMap (rowValue t.column)) (amount : Histogram.Bin Float → Float) :
    (samples.map (binBlock t.edges)).flatten.map (fun r => Cell.ofFloat (amount r.bin)) =
      (t.doubles amount).cells := by
  have hblock : ∀ s : Sample, (binBlock t.edges s).map (fun r => Cell.ofFloat (amount r.bin)) =
      (Histogram.count s.values t.edges).map fun b => Cell.ofFloat (amount b) :=
    fun s => List.map_map
  unfold Tally.doubles Tally.bins
  rw [List.map_flatten, List.map_map, List.flatMap_def]
  congr 1
  calc samples.map (List.map (fun r => Cell.ofFloat (amount r.bin)) ∘ binBlock t.edges)
      = (samples.map Sample.values).map fun vs =>
          (Histogram.count vs t.edges).map fun b => Cell.ofFloat (amount b) := by
        rw [List.map_map]
        exact List.map_congr_left fun s _ => hblock s
    _ = _ := by
        rw [h, List.map_map]
        rfl

/-- What is reported as dropped when an input is read are the values that are not finite. -/
theorem sum_dropped_of_input {stat : StatKind} {along : Axis} {found : Input}
    (h : (input stat table mapping along layer).outcome = .ok found) :
    ((input stat table mapping along layer).events.map Event.dropped).sum =
      found.column.finiteFloats.countP Option.isNone := by
  unfold input at h ⊢
  obtain ⟨name, hname, h⟩ := Logged.bind_eq_ok.1 h
  obtain ⟨keys, hkeys, h⟩ := Logged.bind_eq_ok.1 h
  obtain ⟨column, hcolumn, h⟩ := Logged.bind_eq_ok.1 h
  rw [Logged.events_bind_ok hname, Logged.events_bind_ok hkeys, Logged.events_bind_ok hcolumn]
  dsimp only at h ⊢
  split at h
  · next hnone =>
    cases h
    rw [if_pos hnone, hnone]
    rfl
  · next hsome =>
    cases h
    rw [if_neg hsome]
    exact Nat.add_zero _

/-- What a run of bins counts, and what it reports as dropped. -/
theorem exists_tally
    (h : (bin settings defaults table mapping geometry layer).outcome = .ok result) :
    ∃ name t, Tally.Of t settings defaults table mapping geometry layer name result ∧
      ((bin settings defaults table mapping geometry layer).events.map Event.dropped).sum =
        t.column.finiteFloats.countP Option.isNone := by
  unfold bin at h ⊢
  split at h
  · cases h
  next hfresh =>
  rw [if_neg hfresh]
  -- the run has a result, so each of its steps has
  obtain ⟨along, halong, h⟩ := Logged.bind_eq_ok.1 h
  obtain ⟨found, hfound, h⟩ := Logged.bind_eq_ok.1 h
  obtain ⟨edges, hedges, h⟩ := Logged.bind_eq_ok.1 h
  obtain ⟨division, hdivision, h⟩ := Logged.bind_eq_ok.1 h
  obtain ⟨hname, hcolumn, hkeys⟩ := input_eq_ok hfound
  obtain ⟨columns, hcolumns, hsamples, -⟩ := divide_eq_ok hdivision
  rw [← isEmpty_of_mapM hcolumns] at hsamples
  have hlength := Table.length_of_series hcolumn
  let t : Tally := ⟨table.height, found.column, columns, edges⟩
  have hvalues := values_of_samples t hlength
  -- the three columns hold the bins of the groups, amount by amount
  have hcells : ∀ name amount, floatRule name (fun r : BinRow => amount r.bin) ∈
      binRules found.name → result.column? name = some (t.doubles amount) := by
    intro name amount hrule
    have hcells := map_flatten_binBlock t (hsamples ▸ hvalues) amount
    refine (column?_of_assemble h hrule).trans ?_
    exact congrArg (fun cells => some (Column.mk .float cells)) hcells
  have hbound := name_of_input (isSome_of_axis halong) hfound
  refine ⟨found.name, t, ⟨rfl, ⟨along, halong, hbound⟩, hcolumn, ⟨found.keys, hkeys, hcolumns⟩,
    hedges, ?_, ?_, ?_⟩, ?_⟩
  · exact hcells _ _ (by simp [binRules])
  · exact hcells _ _ (by simp [binRules])
  · exact hcells _ _ (by simp [binRules])
  -- only the look for the input records rows that are dropped
  · rw [Logged.events_bind_ok halong, Logged.events_bind_ok hfound, Logged.events_bind_ok hedges,
      Logged.events_bind_ok hdivision, ← sum_dropped_of_input hfound]
    change (([] ++ (_ ++ ([] ++ ([] ++ []))) : List Event).map Event.dropped).sum = _
    rw [List.nil_append, List.nil_append, List.nil_append, List.append_nil]

/-- **Bins keep exactly the rows between their outer edges.** The counts of a group add up to the
number of its rows whose value lies between the first and the last edge. So bins lose no row with a
finite value, in any group or altogether, exactly if the edges enclose all values; and edges that
divide the range of the values enclose them exactly if this range is finite. -/
theorem bins_keep_enclosed_rows {kit : Toolkit} {stat : StatConfig} (hkind : stat.kind = .bin)
    (h : (run kit stat defaults table mapping geometry layer).outcome = .ok result) :
    ∃ settings name t, stat.settings kit layer = .ok settings ∧
      Tally.Of t settings defaults table mapping geometry layer name result ∧
      (∀ key, Histogram.total (t.bins key) = (t.rows key).countP t.holds) ∧
      ((∀ key ∈ t.groups, Histogram.total (t.bins key) = (t.rows key).length) ↔ t.Enclosed) ∧
      ((t.groups.map fun key => Histogram.total (t.bins key)).sum +
          ((run kit stat defaults table mapping geometry layer).events.map Event.dropped).sum =
        table.height ↔ t.Enclosed) ∧
      (settings.binWidth = none → ∀ n, binCount settings defaults = .ok n → 0 < n →
        (t.Enclosed ↔ t.Narrow)) := by
  unfold run at h ⊢
  obtain ⟨settings, hsettings, h⟩ := Logged.bind_eq_ok.1 h
  rw [Logged.events_bind_ok hsettings]
  change (runWith kit stat settings defaults table mapping geometry layer).outcome = _ at h
  have hrun : runWith kit stat settings defaults table mapping geometry layer =
      bin settings defaults table mapping geometry layer := by
    unfold runWith
    rw [hkind]
  rw [hrun] at h ⊢
  obtain ⟨name, t, hof, hdropped⟩ := exists_tally h
  have hlength : t.column.cells.length = t.height :=
    hof.height ▸ Table.length_of_series hof.column
  -- edges that the statistic lays are sound, since all of its values are finite
  have hsound : Histogram.Sound t.edges :=
    sound_of_binEdges hsettings (fun v hv => Tally.isFinite_of_mem_values hlength hv) hof.edges
  refine ⟨settings, name, t, hsettings, hof, Tally.total_bins hsound,
    Tally.keeps_groups_iff hlength hsound, ?_, fun hwidth n hn hpos =>
      Tally.enclosed_iff_narrow hlength hof.edges hwidth hn hpos⟩
  change (_ + (([] ++ _ : List Event).map Event.dropped).sum = _) ↔ _
  rw [List.nil_append, hdropped, ← hof.height]
  exact Tally.keeps_rows_iff hlength hsound

end Runs

/-- Amounts of two groups, one of them missing. -/
def sampledFields : List Field :=
  [⟨.text "m", .continuous, ⟨.nullableInt, [.int 1, .int 2, .missing, .int 5]⟩⟩,
    ⟨.text "s", .discrete, ⟨.text, [.text "b", .text "a", .text "a", .text "b"]⟩⟩]

/-- A table of four rows. -/
def sampledTable : Table where
  fields := sampledFields
  height := 4
  computedBy := none
  uniform := by decide
  distinct := by decide

/-- The amounts along the horizontal axis, in their groups. -/
def sampledMapping : Mapping :=
  (Mapping.empty.set .x (.column "m")).set .group (.column "s")

/-- Two bins. -/
def sampledStat : StatConfig :=
  { kind := .bin, bins := .int 2 }

/-- The amounts in two bins. -/
def sampledRun : Logged Table :=
  run .standard sampledStat {} sampledTable sampledMapping .null none

/-- Two bins of the amounts keep every row that has one; the other row is reported. -/
theorem bins_keep_sampled_rows :
    ∃ result, sampledRun.outcome = .ok result ∧
      ∃ settings name t, Tally.Of t settings {} sampledTable sampledMapping .null none name result ∧
        (∀ key ∈ t.groups, Histogram.total (t.bins key) = (t.rows key).length) ∧
        (t.groups.map fun key => Histogram.total (t.bins key)).sum +
          (sampledRun.events.map Event.dropped).sum = 4 := by
  have hok : sampledRun.outcome.toBool = true := by decide +kernel
  cases h : sampledRun.outcome with
  | error e =>
    rw [h] at hok
    exact absurd hok Bool.false_ne_true
  | ok result =>
    obtain ⟨settings, name, t, hsettings, hof, -, hgroups, hrows, hnarrow⟩ :=
      bins_keep_enclosed_rows rfl h
    -- the settings are computed: no width, and two bins
    have hread : (sampledStat.settings .standard none).toOption.map
        (fun s => (s.binWidth.isNone, s.bins)) = some (true, some 2) := by decide +kernel
    rw [hsettings] at hread
    have hread := Prod.mk.inj (Option.some.inj hread)
    have hbins : binCount settings {} = .ok 2 := by
      unfold binCount
      rw [hread.2]
    -- the amounts are those of the only column that is bound to an axis
    have hname : name = "m" := by
      obtain ⟨along, -, hbound⟩ := hof.bound
      cases along with
      | x => exact (Option.some.inj hbound).symm
      | y => cases hbound
    have hcolumn := hof.column
    subst hname
    have hvalues : t.values = [1, 2, 5] := by
      unfold Tally.values
      rw [← Except.ok.inj hcolumn]
      rfl
    have henclosed : t.Enclosed := by
      refine (hnarrow (Option.isNone_iff_eq_none.1 hread.1) 2 hbins (by decide)).2 ?_
      intro v vs hvs
      cases hvalues.symm.trans hvs
      decide +kernel
    exact ⟨result, rfl, settings, "m", t, hof, hgroups.2 henclosed, hrows.2 henclosed⟩

/-- Two amounts. -/
def gridTable : Table where
  fields := [⟨.text "m", .continuous, ⟨.int, [.int 7, .int 8]⟩⟩]
  height := 2
  computedBy := none
  uniform := by decide
  distinct := by decide

/-- Bins of a width of 0.4. -/
def gridStat : StatConfig :=
  { kind := .bin, binWidth := .float 0.4 }

/-- The amounts in such bins. -/
def gridRun : Logged Table :=
  run .standard gridStat {} gridTable (Mapping.empty.set .x (.column "m")) .null none

/-- Bins of a width of 0.4 count one amount of two, and report none as dropped: in doubles, the
point of the grid that should be 7 is above it. -/
theorem grid_loses_least :
    ∃ result, gridRun.outcome = .ok result ∧
      (result.column? (startName "m")).bind (fun c => c.cells.head?.map fun start =>
        Cell.less (.int 7) start) = some true ∧
      (result.column? countName).map (fun c => c.cells.map Cell.key) =
        some [.whole 0, .whole 0, .whole 1] ∧
      gridRun.events = [] ∧
      (gridTable.column? "m").map (fun c => c.finiteFloats.countP Option.isSome) = some 2 := by
  -- the run is small and closed, so that what it gives can be evaluated
  have hstarts : (gridRun.outcome.toOption.bind fun result => result.column? (startName "m")).bind
      (fun c => c.cells.head?.map fun start => Cell.less (.int 7) start) = some true := by
    decide +kernel
  have hcounts : (gridRun.outcome.toOption.bind fun result => result.column? countName).map
      (fun c => c.cells.map Cell.key) = some [.whole 0, .whole 0, .whole 1] := by
    decide +kernel
  have hevents : gridRun.events.isEmpty = true := by decide +kernel
  cases h : gridRun.outcome with
  | error e =>
    rw [h] at hcounts
    cases hcounts
  | ok result =>
    rw [h] at hstarts hcounts
    exact ⟨result, rfl, hstarts, hcounts, List.isEmpty_iff.1 hevents, by decide +kernel⟩

end Stat

end PlotGrammar
