import PlotGrammar.Proofs.Stat.Sampling

/-!
# Stacked bins

Columns that divide the rows of a table divide its bins: every group has all bins, in the same
places, and counts its own rows in them. Put on top of each other the bins of the groups are as high
as those of all rows together.

* `Histogram.map_shape_count` and `Histogram.sum_count`: where bins lie is a matter of their edges,
  and parts of a sample are counted as the whole is, whatever the edges.
* `Mapping.ungrouped` is a mapping that divides nothing, `Tally.whole` a tally of all rows.
* `Tally.Fills` says of a result that it has a block of rows for each group, one for each bin.
* `Stat.stacked_bins_add_up` puts these together. It compares two runs; that the second one has a
  result as soon as the first one has is part of it.
-/

namespace PlotGrammar

/-! ### Bins of parts -/

namespace Histogram

variable {α : Type} [Arithmetic α]

/-- Where a bin lies: where it starts, where it ends, and its middle. -/
def Bin.shape (b : Bin α) : α × α × α :=
  (b.start, b.stop, b.middle)

theorem map_shape_count (values others edges : List α) :
    (count values edges).map Bin.shape = (count others edges).map Bin.shape := by
  induction edges with
  | nil => rfl
  | cons a rest ih =>
    cases rest with
    | nil => rfl
    | cons b rest =>
      unfold count
      rw [List.map_cons, List.map_cons, ih]
      rfl

/-- A bin ends where the next one starts. -/
theorem isChain_count (values edges : List α) :
    (count values edges).IsChain fun b c => b.stop = c.start := by
  induction edges with
  | nil => exact List.isChain_nil
  | cons a rest ih =>
    cases rest with
    | nil => exact List.isChain_nil
    | cons b rest =>
      cases rest with
      | nil => exact List.isChain_singleton _
      | cons c rest => exact List.IsChain.cons_cons rfl ih

/-- **Counts of parts add up** in every bin, if the parts make up the whole. -/
theorem sum_count {ι : Type} {parts : List ι} {part : ι → List α} {whole : List α}
    (h : ∀ p : α → Bool, (parts.map fun i => (part i).countP p).sum = whole.countP p)
    (edges : List α) (j : Nat) :
    (parts.map fun i => ((count (part i) edges).map Bin.count).getD j 0).sum =
      ((count whole edges).map Bin.count).getD j 0 := by
  have hnone : (parts.map fun _ => 0).sum = 0 := List.sum_map_zero
  induction edges generalizing j with
  | nil => exact hnone
  | cons a rest ih =>
    cases rest with
    | nil => exact hnone
    | cons b rest =>
      cases j with
      | zero => exact h (holds rest.isEmpty a b)
      | succ j => exact ih j

end Histogram

/-! ### Mappings that divide nothing -/

namespace Mapping

/-- The mapping without the columns that are bound to channels that are no positions. -/
def ungrouped (m : Mapping) : Mapping :=
  m.filter fun c b => c.isPositional || b.column?.isNone

theorem column?_ungrouped (m : Mapping) (c : Channel) :
    m.ungrouped.column? c = if c.isPositional then m.column? c else none := by
  unfold ungrouped filter column?
  dsimp only
  cases hb : m.binding c with
  | none => split <;> rfl
  | some b =>
    rw [Option.filter_some]
    cases c.isPositional with
    | true => rfl
    | false =>
      cases hcolumn : b.column? with
      | none =>
        rw [Option.isNone_none, Bool.or_true, if_pos rfl, Option.bind_some, hcolumn]
        rfl
      | some name =>
        rw [Option.isNone_some, Bool.or_false]
        rfl

/-- What is left are positions. -/
theorem isPositional_of_mem_ungrouped {m : Mapping} {e : Channel × String}
    (h : e ∈ m.ungrouped.columns) : e.1.isPositional = true := by
  have hcolumn := mem_columns.1 h
  rw [column?_ungrouped] at hcolumn
  split at hcolumn
  · next hpositional => exact hpositional
  · cases hcolumn

end Mapping

namespace Stat

variable {settings : Settings} {defaults : Defaults} {table result : Table} {mapping : Mapping}
  {geometry : Value} {layer : Option Int}

theorem groupColumns_ungrouped (table : Table) (mapping : Mapping) (other : String) :
    groupColumns table mapping.ungrouped other = .ok [] := by
  unfold groupColumns
  refine foldlM_eq_self fun e he => ?_
  rw [Mapping.isPositional_of_mem_ungrouped he]
  rfl

theorem sameAxes_ungrouped (table : Table) (mapping : Mapping) :
    SameAxes table table mapping mapping.ungrouped where
  columns a := by
    rw [Mapping.column?_ungrouped]
    cases a <;> rfl
  kinds _ _ _ := rfl

/-! ### Tallies and what they fill -/

namespace Tally

/-- The tally of all rows. -/
def whole (t : Tally) : Tally :=
  { t with keys := [] }

/-- What is divided before it is counted. -/
def sampling (t : Tally) : Sampling :=
  ⟨List.range t.height, t.column, t.keys⟩

/-- The first row of a group. -/
def start (t : Tally) (key : List CellKey) : Nat :=
  (t.rows key).headD 0

/-- The cells of a group column on the bins of all groups: that of the first row of each group, on
all of its bins. -/
def repeated (t : Tally) (column : Column) : List Cell :=
  t.groups.flatMap fun key =>
    List.replicate (t.bins key).length (column.cells.getD (t.start key) .missing)

/-- The column of the densities of all bins, group by group. -/
def densities (t : Tally) : Column :=
  ⟨.float, t.groups.flatMap fun key =>
    (t.bins key).map fun b => .ofFloat (b.density (Histogram.total (t.bins key)))⟩

/-- A table has a block of rows for each group, one for each bin: the group columns, and beside them
the bins with their counts and densities. -/
structure Fills (t : Tally) (table : Table) (names : List String) (name : String)
    (result : Table) : Prop where
  height : result.height = (t.groups.map fun key => (t.bins key).length).sum
  kinds : ∃ kinds, names.mapM table.kind = .ok kinds ∧
    result.kinds = names.zip kinds ++
      (computedNames .bin name).map fun computed => (computed, .continuous)
  keys : ∀ (i : Nat) k column, names[i]? = some k → t.keys[i]? = some column →
    result.column? k = some (storedKeys .ofAmounts column (t.repeated column))
  middles : result.column? name = some (t.doubles Histogram.Bin.middle)
  starts : result.column? (startName name) = some (t.doubles Histogram.Bin.start)
  stops : result.column? (stopName name) = some (t.doubles Histogram.Bin.stop)
  counts : result.column? countName = some (t.doubles fun b => Float.ofNat b.count)
  densities : result.column? densityName = some t.densities

/-- **A run of bins fills a table**, block by block. -/
theorem fills_of_assemble {found : Input} {edges : List Float} {division : Division}
    (hcolumn : table.series found.name = .ok found.column)
    (hdivision : found.divide table = .ok division)
    (h : assemble .bin found.keys division (binRules found.name) BinRow.key
      (division.samples.map (binBlock edges)) = .ok result) :
    (⟨table.height, found.column, division.columns, edges⟩ : Tally).Fills table found.keys
      found.name result := by
  let t : Tally := ⟨table.height, found.column, division.columns, edges⟩
  -- a group of the tally is a sample, and a sample is a block of rows
  have hsamples : division.samples = t.groups.map t.sampling.sample :=
    samples_of_division hcolumn hdivision
  have hrows : (division.samples.map (binBlock edges)).flatten =
      division.samples.flatMap (binBlock edges) := (List.flatMap_def).symm
  have hlength : ∀ s, (binBlock edges s).length = (Histogram.count s.values edges).length :=
    fun s => List.length_map _
  have hkey : ∀ s ∈ division.samples, ∀ r ∈ binBlock edges s, r.key = s.key := by
    intro s _ r hr
    obtain ⟨b, -, rfl⟩ := List.mem_map.1 hr
    rfl
  obtain ⟨hcolumns, hkinds, -, -⟩ := divide_eq_ok_iff.1 hdivision
  -- a column computed for bins, group by group
  have hcells : ∀ (value : BinRow → Float) name, floatRule name value ∈ binRules found.name →
      result.column? name = some ⟨.float, t.groups.flatMap fun key =>
        (binBlock edges (t.sampling.sample key)).map fun r => Cell.ofFloat (value r)⟩ := by
    intro value name hrule
    refine (column?_of_assemble h hrule).trans
      (congrArg (fun cells => some (Column.mk .float cells)) ?_)
    change (division.samples.map (binBlock edges)).flatten.map (fun r => Cell.ofFloat (value r)) = _
    rw [hrows, hsamples, List.flatMap_map, List.map_flatMap]
  have hdoubles : ∀ (amount : Histogram.Bin Float → Float) name,
      floatRule name (fun r : BinRow => amount r.bin) ∈ binRules found.name →
        result.column? name = some (t.doubles amount) := by
    intro amount name hrule
    rw [hcells _ name hrule]
    refine congrArg (fun cells => some (Column.mk .float cells))
      (List.flatMap_congr fun key _ => ?_)
    unfold binBlock
    rw [List.map_map]
    rfl
  refine ⟨?_, ⟨division.kinds, hkinds, ?_⟩, ?_, ?_, ?_, ?_, ?_, ?_⟩
  -- one row for each bin of each group
  · have hheight := (Table.fields_of_ofRows (assemble_eq_ok_iff.1 h).2).2
    rw [hheight, hrows, hsamples, List.flatMap_map, List.length_flatMap]
    exact congrArg List.sum (List.map_congr_left fun key _ => hlength _)
  · rw [kinds_of_assemble h (length_of_mapM hcolumns) (length_of_mapM hkinds)]
    rfl
  -- a key column repeats the key of a group for each of its bins
  · intro i k column hi hcolumn'
    obtain ⟨kind, hkind⟩ : ∃ kind, division.kinds[i]? = some kind := by
      have hlt := (List.getElem?_eq_some_iff.1 hi).1
      exact ⟨_, List.getElem?_eq_getElem (by rw [length_of_mapM hkinds]; exact hlt)⟩
    have hrepeated : repeatedCells division.samples (fun s => (binBlock edges s).length) i =
        t.repeated column := by
      rw [hsamples]
      refine (t.sampling.repeatedCells_eq _ hcolumn').trans (List.flatMap_congr fun key _ => ?_)
      rw [hlength]
      rfl
    have hfound := column?_of_key h hrows hkey hi hcolumn' hkind
    rw [hrepeated] at hfound
    exact hfound
  -- the columns of the bins, in the order of their rules
  · exact hdoubles _ _ (List.mem_of_getElem? (i := 0) rfl)
  · exact hdoubles _ _ (List.mem_of_getElem? (i := 1) rfl)
  · exact hdoubles _ _ (List.mem_of_getElem? (i := 2) rfl)
  · exact hdoubles _ _ (List.mem_of_getElem? (i := 3) rfl)
  · refine (hcells _ _ (List.mem_of_getElem? (i := 4) rfl)).trans ?_
    refine congrArg (fun cells => some (Column.mk .float cells))
      (List.flatMap_congr fun key _ => ?_)
    unfold binBlock
    rw [List.map_map]
    rfl

/-- What is counted in steps is a tally, and fills the result. -/
theorem of_steps {along : Axis} {found : Input} {edges : List Float} {division : Division}
    (halong : axis .bin settings.axis table mapping geometry layer = .ok along)
    (hfound : (input .bin table mapping along layer).outcome = .ok found)
    (hedges : binEdges settings defaults found.values = .ok edges)
    (hdivision : found.divide table = .ok division)
    (h : assemble .bin found.keys division (binRules found.name) BinRow.key
      (division.samples.map (binBlock edges)) = .ok result) :
    Tally.Of ⟨table.height, found.column, division.columns, edges⟩ settings defaults table mapping
        geometry layer found.name result ∧
      Tally.Fills ⟨table.height, found.column, division.columns, edges⟩ table found.keys found.name
        result := by
  obtain ⟨-, hcolumn, hkeys⟩ := input_eq_ok_iff.1 hfound
  have hfills := fills_of_assemble hcolumn hdivision h
  have hbound := name_of_input (isSome_of_axis halong) hfound
  exact ⟨⟨rfl, ⟨along, halong, hbound⟩, hcolumn,
    ⟨found.keys, hkeys, (divide_eq_ok_iff.1 hdivision).1⟩, hedges, hfills.starts, hfills.stops,
    hfills.counts⟩, hfills⟩

variable (t : Tally)

/-- Every group has the bins of the whole. -/
theorem map_shape_bins (key : List CellKey) :
    (t.bins key).map Histogram.Bin.shape = (t.whole.bins []).map Histogram.Bin.shape :=
  Histogram.map_shape_count _ _ _

/-- **Bins of groups are as high** as those of the whole, when they are stacked. -/
theorem sum_bins (j : Nat) :
    (t.groups.map fun key => ((t.bins key).map Histogram.Bin.count).getD j 0).sum =
      ((t.whole.bins []).map Histogram.Bin.count).getD j 0 := by
  have hall : t.whole.rows [] = t.finiteRows := Group.rowsWith_of_isEmpty rfl
  refine Histogram.sum_count (fun p => ?_) t.edges j
  let holds (i : Nat) : Bool := ((rowValue t.column i).map p).getD false
  have hpart : ∀ is : List Nat, (is.filterMap (rowValue t.column)).countP p = is.countP holds :=
    fun is => List.countP_filterMap
  change _ = ((t.whole.rows []).filterMap (rowValue t.column)).countP p
  rw [hall, hpart]
  calc (t.groups.map fun key => ((t.rows key).filterMap (rowValue t.column)).countP p).sum
      = (t.groups.map fun key => (t.rows key).countP holds).sum :=
        congrArg List.sum (List.map_congr_left fun key _ => hpart (t.rows key))
    _ = t.finiteRows.countP holds := Group.sum_columnKeys holds

end Tally

/-! ### Runs -/

section Runs

variable {kit : Toolkit} {stat : StatConfig}

/-- Where bins are counted group by group, they can be counted for all rows together. -/
theorem exists_whole {along : Axis} {found : Input} {edges : List Float} {division : Division}
    (hfresh : table.computedBy ≠ some StatKind.bin.name)
    (halong : axis .bin settings.axis table mapping geometry layer = .ok along)
    (hfound : (input .bin table mapping along layer).outcome = .ok found)
    (hedges : binEdges settings defaults found.values = .ok edges)
    (hdivision : found.divide table = .ok division)
    (h : assemble .bin found.keys division (binRules found.name) BinRow.key
      (division.samples.map (binBlock edges)) = .ok result) :
    ∃ whole, (bin settings defaults table mapping.ungrouped geometry layer).outcome = .ok whole ∧
      Tally.Of ⟨table.height, found.column, [], edges⟩ settings defaults table mapping.ungrouped
        geometry layer found.name whole ∧
      Tally.Fills ⟨table.height, found.column, [], edges⟩ table [] found.name whole := by
  obtain ⟨hname, hcolumn, -⟩ := input_eq_ok_iff.1 hfound
  obtain ⟨hcolumns, hkinds, -, -⟩ := divide_eq_ok_iff.1 hdivision
  have haxes := sameAxes_ungrouped table mapping
  have halong' := haxes.axis_eq_ok_iff.2 halong
  let undivided : Input := ⟨found.name, found.column, []⟩
  have hfound' : (input .bin table mapping.ungrouped along layer).outcome = .ok undivided :=
    input_eq_ok_iff.2 ⟨(haxes.continuousColumn_eq_ok_iff (isSome_of_axis halong)).2 hname, hcolumn,
      groupColumns_ungrouped table mapping found.name⟩
  let all : Division := ⟨[], [], [⟨[], (undivided.observed table []).map Observation.value⟩]⟩
  have hdivision' : undivided.divide table = .ok all := divide_of_isEmpty rfl
  -- the names of the computed columns differ, since they do so beside the group columns
  have hnames := (exists_assemble_iff (length_of_mapM hcolumns) (length_of_mapM hkinds)).1
    ⟨result, h⟩
  have hcomputed : ([] ++ (binRules found.name).map Table.Rule.name).Nodup :=
    hnames.of_append_right
  obtain ⟨whole, hwhole⟩ : ∃ whole, assemble .bin [] all (binRules found.name) BinRow.key
      (all.samples.map (binBlock edges)) = .ok whole := (exists_assemble_iff rfl rfl).2 hcomputed
  exact ⟨whole, bin_eq_ok_iff.2 ⟨hfresh, along, undivided, edges, _, halong', hfound', hedges,
    hdivision', hwhole⟩, Tally.of_steps halong' hfound' hedges hdivision' hwhole⟩

/-- **Bins of groups add up to the bins of all rows.** A result of bins has a block for each group
of rows with a finite value, in the order of their first rows. All blocks have the bins that there
are without groups, each of which ends where the next one starts, and the counts of a bin in all
blocks add up to its count without groups. -/
theorem stacked_bins_add_up (hkind : stat.kind = .bin)
    (h : (run kit stat defaults table mapping geometry layer).outcome = .ok result) :
    ∃ settings name names t whole, stat.settings kit layer = .ok settings ∧
      Tally.Of t settings defaults table mapping geometry layer name result ∧
      groupColumns table mapping name = .ok names ∧ t.Fills table names name result ∧
      (run kit stat defaults table mapping.ungrouped geometry layer).outcome = .ok whole ∧
      Tally.Of t.whole settings defaults table mapping.ungrouped geometry layer name whole ∧
      t.whole.Fills table [] name whole ∧ t.whole.groups = [[]] ∧
      (∀ i ∈ t.finiteRows, ∃! key, key ∈ t.groups ∧ i ∈ t.rows key) ∧
      (t.finiteRows ≠ [] → ∀ key ∈ t.groups, t.rows key ≠ []) ∧
      (t.groups.map t.start).Pairwise (· < ·) ∧
      (∀ key, (t.bins key).map Histogram.Bin.shape =
          (t.whole.bins []).map Histogram.Bin.shape ∧
        (t.bins key).IsChain fun b c => b.stop = c.start) ∧
      ∀ j, (t.groups.map fun key => ((t.bins key).map Histogram.Bin.count).getD j 0).sum =
        ((t.whole.bins []).map Histogram.Bin.count).getD j 0 := by
  -- the two runs differ in their mapping only, and neither leaves the branch for bins
  have hrun : ∀ settings mapping, runWith kit stat settings defaults table mapping geometry layer =
      bin settings defaults table mapping geometry layer := by
    intro settings mapping
    unfold runWith
    rw [hkind]
  obtain ⟨settings, hsettings, h⟩ := run_eq_ok_iff.1 h
  rw [hrun] at h
  obtain ⟨hfresh, along, found, edges, division, halong, hfound, hedges, hdivision, h⟩ :=
    bin_eq_ok_iff.1 h
  -- the run without groups succeeds on the same axis, values and edges
  obtain ⟨whole, hwhole, hof', hfills'⟩ :=
    exists_whole hfresh halong hfound hedges hdivision h
  obtain ⟨hof, hfills⟩ := Tally.of_steps halong hfound hedges hdivision h
  let t : Tally := ⟨table.height, found.column, division.columns, edges⟩
  refine ⟨settings, found.name, found.keys, t, whole, hsettings, hof,
    (input_eq_ok_iff.1 hfound).2.2, hfills, ?_, hof', hfills', rfl, ?_, ?_, ?_, ?_, t.sum_bins⟩
  · exact run_eq_ok_iff.2 ⟨settings, hsettings, (hrun settings _).symm ▸ hwhole⟩
  · exact fun i hi => Group.existsUnique_columnKeys hi
  -- a group is there because a finite row has its key, and without keys all finite rows are in one
  · intro hfinite key hkey
    cases hkeys : t.keys.isEmpty with
    | true =>
      have hgroups : t.groups = [[]] := Group.columnKeys_of_isEmpty hkeys
      rw [hgroups, List.mem_singleton] at hkey
      have hall : t.rows key = t.finiteRows := by
        rw [hkey]
        exact Group.rowsWith_of_isEmpty hkeys
      rwa [hall]
    | false => exact t.sampling.rows_ne_nil hkeys hkey
  · exact t.sampling.pairwise_start List.pairwise_lt_range
  · exact fun key => ⟨t.map_shape_bins key, Histogram.isChain_count _ _⟩

end Runs

/-- The bins of two groups of amounts add up to the bins of all amounts. -/
theorem stacked_bins_of_samples :
    ∃ (result : Table) (t : Tally) (whole : Table), sampledRun.outcome = .ok result ∧
      t.Fills sampledTable ["s"] "m" result ∧
      (run .standard sampledStat {} sampledTable sampledMapping.ungrouped .null none).outcome =
        .ok whole ∧
      t.whole.Fills sampledTable [] "m" whole ∧
      ∀ j, (t.groups.map fun key => ((t.bins key).map Histogram.Bin.count).getD j 0).sum =
        ((t.whole.bins []).map Histogram.Bin.count).getD j 0 := by
  have hok : sampledRun.outcome.toBool = true := by decide +kernel
  cases h : sampledRun.outcome with
  | error e =>
    rw [h] at hok
    exact absurd hok Bool.false_ne_true
  | ok result =>
    obtain ⟨settings, name, names, t, whole, -, hof, hnames, hfills, hwhole, -, hfills', -, -, -, -,
      -, hsum⟩ := stacked_bins_add_up rfl h
    -- the amounts are those of the only column that is bound to an axis
    have hname : name = "m" := by
      obtain ⟨along, -, hbound⟩ := hof.bound
      cases along with
      | x => exact (Option.some.inj hbound).symm
      | y => cases hbound
    subst hname
    have hgroup : groupColumns sampledTable sampledMapping "m" = .ok ["s"] := by rfl
    cases hnames.symm.trans hgroup
    exact ⟨result, t, whole, rfl, hfills, hwhole, hfills', hsum⟩

end Stat

end PlotGrammar
