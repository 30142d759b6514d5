import PlotGrammar.Proofs.Stat.Concatenation
import PlotGrammar.Proofs.Stat.Regrouping

/-!
# Summaries that repeat themselves

Means, sums, medians and extremes are computed from the numbers of a group. Computed once more from
their own results, each of them by itself, they are the same numbers. So a summary by one of them
repeats itself: a second run with the same mapping gives the same table (`Stat.summary_repeats`).
There are two exceptions.

* Rows of a summary have different keys, but not if a key column of objects turns integers into
  doubles: then two keys can become one, and their rows become one row.
* A sum can be missing, and a column of objects can hold timestamps. What is missing is summed to
  zero (`Stat.missing_sum_not_repeated`), and timestamps have no sum. All other columns of sums are
  kept (`Stat.Grouping.IsResult.keeps_sum_iff`).
-/

namespace PlotGrammar

namespace Table

/-- No two rows have equal cells in all of these columns. -/
def Apart (t : Table) (names : List String) : Prop :=
  ∀ i < t.height, ∀ j < t.height,
    (∀ n ∈ names, ((t.cellsOf n).getD i .missing).key = ((t.cellsOf n).getD j .missing).key) → i = j

end Table

namespace Stat

/-! ### The standard reductions -/

/-- There are no timestamps in the column, and nothing is missing. -/
def Summable (column : Column) : Prop :=
  (∀ unit, column.type ≠ .time unit) ∧ ∀ c ∈ column.cells, c.isMissing = false

namespace Grouping

variable {column : Column}

theorem IsResult.fixes_mean (h : IsResult Aggregate.mean column) : Fixes Aggregate.mean column := by
  obtain ⟨type, results, hresults, rfl⟩ := h
  exact Stat.fixes_mean hresults

theorem IsResult.fixes_median (h : IsResult Aggregate.median column) :
    Fixes Aggregate.median column := by
  obtain ⟨type, results, hresults, rfl⟩ := h
  exact Stat.fixes_median hresults

theorem IsResult.fixes_champion {wins : Cell → Cell → Except Fault Bool}
    (h : IsResult (Aggregate.champion wins) column) : Fixes (Aggregate.champion wins) column := by
  obtain ⟨type, results, hresults, rfl⟩ := h
  exact Stat.fixes_champion hresults

theorem IsResult.admits {reduce : Aggregator} (h : IsResult reduce column) :
    ∃ source, Admits source column.cells column.type := by
  obtain ⟨type, results, -, rfl⟩ := h
  exact ⟨type, admits_ofResults type _⟩

/-- The cells of a column of sums, unless they are missing or timestamps, have sums of their own. -/
theorem IsResult.exists_sum (h : IsResult Aggregate.sum column) (hsummable : Summable column) :
    ∀ c ∈ column.cells, ∃ r, Aggregate.sum ⟨column.type, [c]⟩ = .ok r ∧ r.key = c.key ∧
      (column.type = .bool → r.isInt = true) ∧ (column.type ≠ .bool → r = c) := by
  obtain ⟨type, results, hresults, rfl⟩ := h
  intro c hc
  have hm := hsummable.2 c hc
  exact exists_sum_single (stores_of_sum hresults c hc hm) hm hsummable.1

/-- Sums are fixed, unless truth values become integers. -/
theorem IsResult.fixes_sum (h : IsResult Aggregate.sum column) (hsummable : Summable column)
    (hbool : column.type ≠ .bool) : Fixes Aggregate.sum column := by
  intro c hc
  obtain ⟨r, hr, -, -, hsame⟩ := h.exists_sum hsummable c hc
  rw [hr, hsame hbool]

/-- What results are compared by where they are stored. -/
theorem map_key_reducedColumn (type : ColumnType) (results : List Cell) :
    (reducedColumn type results).cells.map Cell.key =
      results.map fun r => (Column.storeCell (Column.ofResults type results).type r).key := by
  have hcells : (reducedColumn type results).cells =
      results.map (Column.storeCell (Column.ofResults type results).type) :=
    (map_storeCell _ results).symm
  rw [hcells, List.map_map]
  rfl

/-- However it is stored, zero is zero. -/
theorem key_storeCell_zero (type : ColumnType) {c : Cell} (h : c = .int 0 ∨ c = .float 0) :
    (Column.storeCell type c).key = .whole 0 := by
  rcases h with rfl | rfl
  · cases type with
    | float => decide +kernel
    | _ => rfl
  · have hstored : Column.storeCell type (.float 0) = .float 0 := by cases type <;> rfl
    rw [hstored]
    decide +kernel

theorem key_of_isMissing {c : Cell} (h : c.isMissing = true) : c.key = .missing := by
  cases c with
  | missing => rfl
  | float x => exact if_pos h
  | _ => cases h

/-- **A column of sums is kept** exactly if nothing is missing in it and it holds no timestamps. -/
theorem IsResult.keeps_sum_iff (h : IsResult Aggregate.sum column) :
    Keeps Aggregate.sum column ↔ Summable column := by
  constructor
  · rintro ⟨results, hresults, hkeys⟩
    rw [map_key_reducedColumn] at hkeys
    have hsteps := exists_mapM_map_iff.1 ⟨results, hresults, hkeys⟩
    have htime : ∀ unit, column.type ≠ .time unit := by
      intro unit htype
      obtain ⟨source, hadmits⟩ := h.admits
      rw [htype] at hadmits hsteps
      -- timestamps are there, and they have no sum
      obtain ⟨c, hc, -⟩ := hadmits.2.1
      obtain ⟨r, hr, -⟩ := hsteps c hc
      cases hr
    refine ⟨htime, fun c hc => ?_⟩
    -- what is missing is summed to zero, which is not equal to it
    by_contra hm
    rw [Bool.not_eq_false] at hm
    obtain ⟨r, hr, hkey⟩ := hsteps c hc
    have hzero : r = .int 0 ∨ r = .float 0 :=
      (sum_missing hm htime).imp (fun h => Except.ok.inj (hr.symm.trans h))
        fun h => Except.ok.inj (hr.symm.trans h)
    rw [key_storeCell_zero _ hzero, key_of_isMissing hm] at hkey
    cases hkey
  · intro hsummable
    by_cases hbool : column.type = .bool
    · -- truth values are stored as integers then, which are equal to them
      have hsums := h.exists_sum hsummable
      obtain ⟨results, hresults, hkeys⟩ := exists_mapM_map_iff.2 fun c hc =>
        (hsums c hc).imp fun r hr => ⟨hr.1, hr.2.1⟩
      have hints : ∀ r ∈ results, r.isInt = true := by
        intro r hr
        obtain ⟨c, hc, hr⟩ := exists_of_mem_mapM hresults hr
        obtain ⟨r', hr', -, hint, -⟩ := hsums c hc
        cases hr.symm.trans hr'
        exact hint hbool
      exact ⟨results, hresults, by rw [cells_reducedColumn_int _ hints, hkeys]⟩
    · exact h.keeps (h.fixes_sum hsummable hbool)

/-! ### Rows of a summary -/

variable {g : Grouping}

/-- Rows have different keys if they differ in the columns of the keys. -/
theorem apart_iff {t : Table} (hkeys : allSeries t g.names = .ok g.keys)
    (hheight : g.height = t.height) : g.Apart ↔ t.Apart g.names := by
  -- what holds of the cells of the keys is said of columns on one side and of names on the other
  have hcells : ∀ P : List Cell → Prop,
      (∀ column ∈ g.keys, P column.cells) ↔ ∀ n ∈ g.names, P (t.cellsOf n) := by
    intro P
    have hcellsOf : ∀ n column, t.series n = .ok column → t.cellsOf n = column.cells := by
      intro n column hcolumn
      unfold Table.cellsOf
      rw [Table.series_eq_ok.1 hcolumn]
      rfl
    constructor
    · intro h n hn
      obtain ⟨column, hcolumn, hseries⟩ := mapM_ok_of_mem hkeys hn
      rw [hcellsOf n column hseries]
      exact h column hcolumn
    · intro h column hcolumn
      obtain ⟨n, hn, hseries⟩ := exists_of_mem_mapM hkeys hcolumn
      rw [← hcellsOf n column hseries]
      exact h n hn
  -- both sides then speak of the same rows, place by place
  unfold Apart Table.Apart
  rw [List.nodup_map_iff_inj_on List.nodup_range, hheight]
  simp only [List.mem_range]
  refine forall_congr' fun i => forall_congr' fun hi => forall_congr' fun j =>
    forall_congr' fun hj => imp_congr_left ?_
  unfold rowKey
  rw [List.map_inj_left]
  exact hcells fun cells => (cells.getD i .missing).key = (cells.getD j .missing).key

end Grouping

/-! ### Runs -/

section Runs

variable {stat : StatConfig} {settings : Settings} {defaults : Defaults} {table result : Table}
  {mapping : Mapping} {geometry : Value} {layer : Option Int} {g : Grouping} {name : String}

/-- A reduction is looked up by the characters of its name. -/
theorem reduce_eq (hname : stat.aggregator.characters? = some name) {reduce : Aggregator}
    (hknown : Toolkit.standard.aggregator? (.text name) = some reduce)
    (h : g.Of .standard stat settings table mapping geometry layer) : g.reduce = reduce := by
  have hsome : stat.aggregator.characters?.isSome = true := hname ▸ rfl
  have hsame : Toolkit.standard.aggregator? stat.aggregator =
      Toolkit.standard.aggregator? (.text name) := by
    unfold Toolkit.aggregator? Value.entry?
    refine congrArg (Option.map _) (congrArg (List.find? · _) (funext fun e => ?_))
    rw [Value.same_of_characters hname]
    exact (Value.same_of_characters rfl).symm
  have hreduce := h.reduce
  unfold StatConfig.reduction Toolkit.reduction? at hreduce
  rw [StatConfig.function?_eq_none hsome, hsame, hknown] at hreduce
  dsimp only [Option.map_none] at hreduce
  rw [if_pos (StatConfig.isKey_of_characters hsome)] at hreduce
  exact (Except.ok.inj hreduce).symm

section Standard

variable (hname : stat.aggregator.characters? = some name)
  (hmem : name ∈ ["mean", "sum", "median", "min", "max"])
  (hof : g.Of .standard stat settings table mapping geometry layer) {column : Column}
  (h : Grouping.IsResult g.reduce column)

include hname hmem hof h

/-- Means, medians and extremes are fixed. -/
theorem fixes_of_ne_sum (hother : name ≠ "sum") : Fixes g.reduce column := by
  simp only [List.mem_cons, List.not_mem_nil, or_false] at hmem
  rcases hmem with rfl | rfl | rfl | rfl | rfl
  · have hreduce := reduce_eq hname rfl hof
    rw [hreduce] at h ⊢
    exact h.fixes_mean
  · exact absurd rfl hother
  · have hreduce := reduce_eq hname rfl hof
    rw [hreduce] at h ⊢
    exact h.fixes_median
  all_goals
    have hreduce := reduce_eq hname rfl hof
    rw [hreduce] at h ⊢
    exact h.fixes_champion

/-- Whether a column is kept depends on its cells for sums only. -/
theorem keeps_iff_of_standard : Keeps g.reduce column ↔ (name = "sum" → Summable column) := by
  by_cases hsum : name = "sum"
  · have hreduce := reduce_eq (hsum ▸ hname) rfl hof
    rw [hreduce] at h ⊢
    rw [h.keeps_sum_iff, forall_prop_of_true hsum]
  · exact ⟨fun _ hsum' => absurd hsum' hsum,
      fun _ => h.keeps (fixes_of_ne_sum hname hmem hof h hsum)⟩

theorem fixes_of_standard (hsums : name = "sum" → Summable column ∧ column.type ≠ .bool) :
    Fixes g.reduce column := by
  by_cases hsum : name = "sum"
  · have hreduce := reduce_eq (hsum ▸ hname) rfl hof
    rw [hreduce] at h ⊢
    exact h.fixes_sum (hsums hsum).1 (hsums hsum).2
  · exact fixes_of_ne_sum hname hmem hof h hsum

end Standard

/-- **Summaries of means, sums, medians and extremes repeat themselves.** A second run over the
result succeeds with the same table exactly if no two rows of the result have equal keys and, for
sums, the columns that are summed hold no timestamps and miss nothing. It gives the very result
then, if no sums are truth values. Two rows have equal keys only if a key column of objects turns
integers into doubles. -/
theorem summary_repeats (hkind : stat.kind = .summary)
    (hname : stat.aggregator.characters? = some name)
    (hmem : name ∈ ["mean", "sum", "median", "min", "max"])
    (h : (run .standard stat defaults table mapping geometry layer).outcome = .ok result) :
    ∃ settings g columns, stat.settings .standard layer = .ok settings ∧
      Grouping.Of g .standard stat settings table mapping geometry layer ∧
      allSeries result g.reducedNames = .ok columns ∧
      ((∃ again, (run .standard stat defaults result mapping geometry layer).outcome = .ok again ∧
          result.Same again) ↔
        result.Apart g.names ∧ (name = "sum" → ∀ column ∈ columns, Summable column)) ∧
      (result.Apart g.names →
        (name = "sum" → ∀ column ∈ columns, Summable column ∧ column.type ≠ .bool) →
          (run .standard stat defaults result mapping geometry layer).outcome = .ok result) ∧
      ((∀ column ∈ g.keys, g.KeepsKeys column) → result.Apart g.names) := by
  obtain ⟨settings, hsettings, h⟩ := (run_summary_eq_ok_iff hkind).1 h
  obtain ⟨g, hof, hkeyed, results, hresults, hrows⟩ := summary_eq_ok_iff.1 h
  obtain ⟨columns, hstores⟩ :=
    (hresults.summarizes hrows).exists_stores (length_of_mapM hof.reduced)
  -- the five names are none of them `count`, so the second run asks for continuous columns again
  have hcounting : stat.aggregator.same (.text "count") = false := by
    rw [Value.same_of_characters rfl, hname]
    refine beq_eq_false_iff_ne.2 fun hcount => ?_
    cases hcount
    exact absurd hmem (by decide)
  have hagain := hof.again hstores hcounting
  -- only `sum` has a condition: a lone cell is its own mean, median, minimum and maximum
  have hkeeps : ∀ column ∈ columns, (Keeps g.reduce column ↔ (name = "sum" → Summable column)) :=
    fun column hcolumn => keeps_iff_of_standard hname hmem hof (hstores.results column hcolumn)
  have hapart : (g.again columns).Apart ↔ result.Apart g.names :=
    Grouping.apart_iff hagain.keys hagain.height
  refine ⟨settings, g, columns, hsettings, hof, hagain.reduced, ?_, fun hrows' hsums => ?_,
    fun hkept => hapart.1 (Grouping.apart_of_keepsKeys hkept)⟩
  -- the second run reads the same settings, so it is the summary alone that can differ
  · have hrun : ∀ again,
        (run .standard stat defaults result mapping geometry layer).outcome = .ok again ↔
          summary .standard stat settings result mapping geometry layer = .ok again := by
      intro again
      rw [run_summary_eq_ok_iff hkind]
      constructor
      · rintro ⟨settings', hsettings', h⟩
        cases hsettings.symm.trans hsettings'
        exact h
      · exact fun h => ⟨settings, hsettings, h⟩
    simp only [hrun]
    rw [Grouping.exists_same_iff hof hcounting hstores hkeyed, hapart]
    refine and_congr_right fun _ => ?_
    constructor
    · intro hall hsum column hcolumn
      exact (hkeeps column hcolumn).1 (hall column hcolumn) hsum
    · intro hall column hcolumn
      exact (hkeeps column hcolumn).2 fun hsum => hall hsum column hcolumn
  -- with keys apart every group is one row, which reduces to itself
  · refine (run_summary_eq_ok_iff hkind).2 ⟨settings, hsettings, ?_⟩
    refine Grouping.summary_of_fixes hof hcounting hstores hkeyed
      (Table.ofRows_eq_ok_iff.1 hrows).2.2.2 (hapart.2 hrows') fun column hcolumn => ?_
    exact fixes_of_standard hname hmem hof (hstores.results column hcolumn) fun hsum =>
      hsums hsum column hcolumn

end Runs

/-- The mean amount of a day. -/
def meanRun (table : Table) : Logged Table :=
  run .standard { kind := .summary, aggregator := .text "mean" } {} table ledgerMapping .null none

/-- The mean amounts of the days are their own means, the missing day among them. -/
theorem means_repeat :
    ∃ result, (meanRun ledger).outcome = .ok result ∧ (meanRun result).outcome = .ok result := by
  have hok : (meanRun ledger).outcome.toBool = true := by decide +kernel
  cases h : (meanRun ledger).outcome with
  | error e =>
    rw [h] at hok
    exact absurd hok Bool.false_ne_true
  | ok result =>
    obtain ⟨settings, g, columns, -, hof, -, -, hagain, hapart⟩ :=
      summary_repeats rfl (rfl : (Value.text "mean").characters? = some "mean") (by decide) h
    refine ⟨result, rfl, hagain (hapart fun column hcolumn hobject => ?_) fun hsum => ?_⟩
    · -- the days are texts
      obtain ⟨n, -, hseries⟩ := exists_of_mem_mapM hof.keys hcolumn
      have htypes : ∀ f ∈ ledger.fields, f.column.type ≠ .object := by decide
      obtain ⟨f, hf, rfl⟩ := Option.map_eq_some_iff.1 (Table.series_eq_ok.1 hseries)
      exact absurd hobject (htypes f (List.mem_of_find?_eq_some hf))
    · exact absurd hsum (by decide)

/-- Amounts without bound, one of them owed, and a common one. -/
def debtFields : List Field :=
  [⟨.text "d", .discrete, ⟨.text, [.text "mon", .text "mon", .text "tue"]⟩⟩,
    ⟨.text "v", .continuous,
      ⟨.float, [.float Binary64.infinity, .float (-Binary64.infinity), .float 2]⟩⟩]

/-- A table of three amounts. -/
def debts : Table where
  fields := debtFields
  height := 3
  computedBy := none
  uniform := by decide
  distinct := by decide

/-- The sum of the amounts of a day. -/
def sumRun (table : Table) : Logged Table :=
  run .standard { kind := .summary, aggregator := .text "sum" } {} table ledgerMapping .null none

/-- The result of a run over the result of a run. -/
def twice (run : Table → Logged Table) (table : Table) : Option Table :=
  (run table).outcome.toOption.bind fun result => (run result).outcome.toOption

/-- An infinite amount and an infinite debt have no sum, and what is missing is summed to zero. -/
theorem missing_sum_not_repeated :
    ∃ result, (sumRun debts).outcome = .ok result ∧
      ¬ ∃ again, (sumRun result).outcome = .ok again ∧ result.Same again := by
  -- the two runs are computed, and then compared as they stand
  have hfirst : (sumRun debts).outcome.toOption.map (fun t => t.fields.map Field.content) =
      some [(.text "d", .discrete, [.text "mon", .text "tue"]),
        (.text "v", .continuous, [.missing, .whole 2])] := by
    decide +kernel
  have hsecond : (twice sumRun debts).map (fun t => t.fields.map Field.content) =
      some [(.text "d", .discrete, [.text "mon", .text "tue"]),
        (.text "v", .continuous, [.whole 0, .whole 2])] := by
    decide +kernel
  unfold twice at hsecond
  cases h : (sumRun debts).outcome with
  | error e =>
    rw [h] at hfirst
    cases hfirst
  | ok result =>
    rw [h] at hfirst hsecond
    -- any second result is the one computed, whose first cell is no longer missing
    refine ⟨result, rfl, ?_⟩
    rintro ⟨again, hagain, hsame⟩
    change (sumRun result).outcome.toOption.map _ = _ at hsecond
    rw [hagain] at hsecond
    have hcontents :=
      (Option.some.inj hsecond).symm.trans (hsame.fields.trans (Option.some.inj hfirst))
    exact absurd hcontents (by decide)

/-- Two integers that have one nearest double, among objects, and a missing key. -/
def neighbours : Table where
  fields := [⟨.text "d", .discrete,
      ⟨.object, [.int 9007199254740992, .int 9007199254740993, .missing]⟩⟩,
    ⟨.text "v", .continuous, ⟨.int, [.int 1, .int 2, .int 3]⟩⟩]
  height := 3
  computedBy := none
  uniform := by decide
  distinct := by decide

-- Keys that are stored as doubles can become equal, so that there are fewer groups the second time.
example : (meanRun neighbours).outcome.toOption.map Table.height = some 3 ∧
    (twice meanRun neighbours).map Table.height = some 2 := by
  decide +kernel

end Stat

end PlotGrammar
