import PlotGrammar.Proofs.Stat.Grouping
import PlotGrammar.Proofs.Stat.Restriction
import PlotGrammar.Proofs.Stat.Storage

/-!
# Density curves of groups are concatenated

Every group has a density curve of its own. Bandwidth, grid and peak come from its sample alone, so
that the rows of a group have the same curve in a table of their own.

* `Stat.curveRows` is the curve of a sample. Samples have their curves one by one
  (`Stat.curveBlocks_eq_ok_iff`), each with as many points as are asked for.
* `Stat.HoldsCurves` says of a table that it holds the curves of some samples, below each other. A
  run holds those of its groups, and a run on the rows of one group holds the curve of this group,
  or none if the group has no finite value (`Stat.exists_part_run`).
* `Stat.density_concatenates_groups`: a result is the concatenation of the results for its groups.

One thing is decided for all groups together: how the keys of a group column of objects are stored.
A large integer becomes a double beside a missing key (`Stat.density_key_stored_as_double`).
-/

namespace PlotGrammar

/-- The cells of the column of a name, if there is one. -/
def Table.cellsOf (t : Table) (name : String) : List Cell :=
  ((t.column? name).map Column.cells).getD []

namespace Stat

/-! ### Curves of samples -/

section Curves

variable {weighing : Weighing} {settings : Settings} {defaults : Defaults}

/-- The points of the curve of a sample. -/
def curveRows (weighing : Weighing) (settings : Settings) (defaults : Defaults) (s : Sample) :
    List CurveRow :=
  match curveBlock weighing settings defaults s with
  | .ok (some rows) => rows
  | _ => []

/-- A sample has a curve if it has values. -/
theorem curveBlock_ne_none {s : Sample} (h : s.values ≠ []) :
    curveBlock weighing settings defaults s ≠ .ok none := by
  obtain ⟨key, values⟩ := s
  obtain ⟨v, vs, rfl⟩ := List.exists_cons_of_ne_nil h
  intro hnone
  unfold curveBlock at hnone
  obtain ⟨base, -, hnone⟩ := bind_eq_ok.1 hnone
  obtain ⟨points, -, hnone⟩ := bind_eq_ok.1 hnone
  obtain ⟨width, -, hnone⟩ := bind_eq_ok.1 hnone
  obtain ⟨kernel, -, hnone⟩ := bind_eq_ok.1 hnone
  obtain ⟨mass, -, hnone⟩ := bind_eq_ok.1 hnone
  dsimp only at hnone
  split at hnone
  · cases hnone
  · cases hnone

/-- **Samples have their curves one by one.** -/
theorem curveBlocks_eq_ok_iff {samples : List Sample} {blocks : List (List CurveRow)}
    (h : ∀ s ∈ samples, s.values ≠ []) :
    (curveBlocks weighing settings defaults samples).outcome = .ok blocks ↔
      (∀ s ∈ samples, curveBlock weighing settings defaults s =
        .ok (some (curveRows weighing settings defaults s))) ∧
        blocks = samples.map (curveRows weighing settings defaults) := by
  unfold curveBlocks
  -- induction on the samples, each of which has values and so a curve
  induction samples generalizing blocks with
  | nil =>
    constructor
    · intro h
      cases h
      exact ⟨fun s hs => absurd hs List.not_mem_nil, rfl⟩
    · rintro ⟨-, rfl⟩
      rfl
  | cons s samples ih =>
    have hrest := fun blocks => @ih blocks fun s hs => h s (List.mem_cons_of_mem _ hs)
    rw [List.filterMapM_cons, List.forall_mem_cons, List.map_cons]
    constructor
    · intro hblocks
      obtain ⟨first, hfirst, hblocks⟩ := Logged.bind_eq_ok.1 hblocks
      cases first with
      | none => exact absurd hfirst (curveBlock_ne_none (h s List.mem_cons_self))
      | some rows =>
        obtain ⟨others, hothers, hblocks⟩ := Logged.bind_eq_ok.1 hblocks
        cases hblocks
        have hrows : curveRows weighing settings defaults s = rows := by
          unfold curveRows
          rw [show curveBlock weighing settings defaults s = .ok (some rows) from hfirst]
        obtain ⟨hall, rfl⟩ := (hrest _).1 hothers
        rw [hrows]
        exact ⟨⟨hfirst, hall⟩, rfl⟩
    · rintro ⟨⟨hfirst, hall⟩, rfl⟩
      refine Logged.bind_eq_ok.2 ⟨_, hfirst, Logged.bind_eq_ok.2 ⟨_, (hrest _).2 ⟨hall, rfl⟩, rfl⟩⟩

theorem length_grid {α : Type} [Arithmetic α] (low high : α) (points : Nat) :
    (Smooth.grid low high points).length = points := by
  match points with
  | 0 | 1 => rfl
  | n + 2 =>
    unfold Smooth.grid Histogram.evenly
    rw [List.length_append, List.length_map, List.length_range]
    rfl

/-- What is asked for is what a curve is read at. -/
theorem askedPoints_of_pointCount {values n : Nat}
    (h : pointCount settings defaults values = .ok n) :
    askedPoints settings defaults = .ok (n : Int) := by
  -- the memory that is asked for decides whether there is a number, not which one it is
  have hcount : ∀ asked : Int, (allocatable asked >>= fun points =>
      allocatable (points * values) >>= fun _ => pure points) = .ok n → asked = n := by
    intro asked h
    obtain ⟨points, hpoints, h⟩ := bind_eq_ok.1 h
    obtain ⟨_, -, h⟩ := bind_eq_ok.1 h
    cases h
    unfold allocatable at hpoints
    split at hpoints
    · cases hpoints
    next hsize =>
    split at hpoints
    · cases hpoints
    · cases hpoints
      omega
  unfold pointCount at h
  unfold askedPoints
  cases hpoints : settings.points with
  | some m =>
    rw [hpoints] at h
    exact congrArg Except.ok (hcount m h)
  | none =>
    rw [hpoints] at h
    obtain ⟨asked, hasked, h⟩ := bind_eq_ok.1 h
    rw [← hcount asked h]
    exact hasked

/-- **A curve has as many points as are asked for.** -/
theorem askedPoints_of_curveBlock {s : Sample} {rows : List CurveRow}
    (h : curveBlock weighing settings defaults s = .ok (some rows)) :
    askedPoints settings defaults = .ok (rows.length : Int) := by
  unfold curveBlock at h
  split at h
  · cases h
  obtain ⟨base, -, h⟩ := bind_eq_ok.1 h
  obtain ⟨points, hpoints, h⟩ := bind_eq_ok.1 h
  obtain ⟨width, -, h⟩ := bind_eq_ok.1 h
  obtain ⟨kernel, -, h⟩ := bind_eq_ok.1 h
  obtain ⟨mass, -, h⟩ := bind_eq_ok.1 h
  dsimp only at h
  split at h
  · cases h
  · cases h
    rw [askedPoints_of_pointCount (faulty_eq_ok.1 hpoints), List.length_map]
    unfold Smooth.curve
    dsimp only
    rw [List.length_map, List.length_zip, List.length_map, Nat.min_self, length_grid]

end Curves

/-! ### Tables of curves -/

/-- A table holds the curves of some samples, below each other: the points of each curve, beside the
cells that its sample stands under. -/
structure HoldsCurves (rows : Sample → List CurveRow) (samples : List Sample)
    (columns : List Column) (names : List String) (kinds : List ColumnKind) (name : String)
    (t : Table) : Prop where
  height : t.height = (samples.map fun s => (rows s).length).sum
  kinds : t.kinds = names.zip kinds ++
    (computedNames .density name).map fun computed => (computed, .continuous)
  keys : ∀ (i : Nat) k column, names[i]? = some k → columns[i]? = some column →
    t.column? k = some (storedKeys .ofAmounts column
      (repeatedCells samples (fun s => (rows s).length) i))
  points : ∀ rule ∈ curveRules name,
    t.column? rule.name = some ⟨.float, samples.flatMap fun s => (rows s).map rule.cell⟩

/-- A table that is assembled from curves holds them. -/
theorem holdsCurves_of_assemble {rows : Sample → List CurveRow} {names : List String}
    {name : String} {division : Division} {t : Table}
    (h : assemble .density names division (curveRules name) CurveRow.key
      (division.samples.map rows) = .ok t)
    (hcolumns : division.columns.length = names.length)
    (hkinds : division.kinds.length = names.length)
    (hkey : ∀ s ∈ division.samples, ∀ r ∈ rows s, r.key = s.key) :
    HoldsCurves rows division.samples division.columns names division.kinds name t := by
  have hrows : (division.samples.map rows).flatten = division.samples.flatMap rows :=
    List.flatMap_def.symm
  -- height, kinds, keys and points are read off the rules of the assembly, one by one
  refine ⟨?_, ?_, ?_, ?_⟩
  · rw [(Table.fields_of_ofRows (assemble_eq_ok_iff.1 h).2).2, hrows, List.length_flatMap]
  · rw [kinds_of_assemble h hcolumns hkinds]
    rfl
  · intro i k column hi hcolumn
    obtain ⟨kind, hkind⟩ : ∃ kind, division.kinds[i]? = some kind := by
      have hlt := (List.getElem?_eq_some_iff.1 hi).1
      exact ⟨_, List.getElem?_eq_getElem (by rw [hkinds]; exact hlt)⟩
    exact column?_of_key h hrows hkey hi hcolumn hkind
  · intro rule hrule
    -- all columns that are computed hold doubles
    have hfloat : ∀ cells, rule.store cells = .float := by
      intro cells
      simp only [curveRules, List.mem_cons, List.not_mem_nil, or_false] at hrule
      rcases hrule with rfl | rfl | rfl | rfl <;> rfl
    refine (column?_of_assemble h hrule).trans ?_
    unfold Table.Rule.field
    dsimp only
    rw [hfloat, hrows, List.map_flatMap]

/-- A table is the concatenation of blocks: every column holds the cells that the blocks have in
theirs, one block after the other. Keys are stored in one way for all blocks, which is as they are
unless they are objects of several sorts. -/
structure Concatenates (columns : List Column) (names : List String) (name : String)
    (blocks : List Table) (result : Table) : Prop where
  height : result.height = (blocks.map Table.height).sum
  kinds : ∀ block ∈ blocks, block.kinds = result.kinds
  computed : ∀ c ∈ computedNames .density name,
    result.column? c = some ⟨.float, blocks.flatMap fun block => block.cellsOf c⟩
  keys : ∀ (i : Nat) k column, names[i]? = some k → columns[i]? = some column →
    result.column? k = some (storedKeys .ofAmounts column
      (blocks.flatMap fun block => block.cellsOf k))
  unmixed : ∀ (i : Nat) k column, names[i]? = some k → columns[i]? = some column →
    (column.type = .object → KeyStore.Unmixed (blocks.flatMap fun block => block.cellsOf k)) →
    (result.column? k).map Column.cells = some (blocks.flatMap fun block => block.cellsOf k)

section Concatenation

variable {rows : Sample → List CurveRow} {columns : List Column} {names : List String}
  {kinds : List ColumnKind} {name : String}

/-- The only sample of a table stands under the same cells on all rows. -/
theorem HoldsCurves.cellsOf_key {s : Sample} {t : Table}
    (h : HoldsCurves rows [s] columns names kinds name t) {i : Nat} {k : String} {column : Column}
    (hname : names[i]? = some k) (hcolumn : columns[i]? = some column) :
    t.cellsOf k = List.replicate (rows s).length (s.key.getD i .missing) := by
  have hcells : repeatedCells [s] (fun s => (rows s).length) i =
      List.replicate (rows s).length (s.key.getD i .missing) := List.flatMap_singleton _ _
  unfold Table.cellsOf
  rw [h.keys i k column hname hcolumn, hcells,
    storedKeys_of_unmixed fun _ => KeyStore.unmixed_replicate _ _]
  rfl

/-- **Curves below each other are concatenated.** -/
theorem concatenates_of_holdsCurves {κ : Type} {groups : List κ} {sample : κ → Sample}
    {block : κ → Table} {result : Table}
    (h : HoldsCurves rows (groups.map sample) columns names kinds name result)
    (hblock : ∀ g ∈ groups, HoldsCurves rows [sample g] columns names kinds name (block g)) :
    Concatenates columns names name (groups.map block) result := by
  -- keys are repeated along each curve, so below each other they are those of the blocks
  have hkeys : ∀ (i : Nat) k column, names[i]? = some k → columns[i]? = some column →
      result.column? k = some (storedKeys .ofAmounts column
        ((groups.map block).flatMap fun b => b.cellsOf k)) := by
    intro i k column hname hcolumn
    rw [h.keys i k column hname hcolumn]
    refine congrArg (fun cells => some (storedKeys .ofAmounts column cells)) ?_
    unfold repeatedCells
    rw [List.flatMap_map, List.flatMap_map]
    exact List.flatMap_congr fun g hg => ((hblock g hg).cellsOf_key hname hcolumn).symm
  refine ⟨?_, ?_, ?_, hkeys, ?_⟩
  · rw [h.height, List.map_map, List.map_map]
    refine congrArg List.sum (List.map_congr_left fun g hg => ?_)
    exact ((hblock g hg).height.trans (Nat.add_zero _)).symm
  · intro b hb
    obtain ⟨g, hg, rfl⟩ := List.mem_map.1 hb
    exact (hblock g hg).kinds.trans h.kinds.symm
  -- each computed column is put together from the blocks
  · intro c hc
    obtain ⟨rule, hrule, rfl⟩ : ∃ rule ∈ curveRules name, rule.name = c := List.mem_map.1 hc
    rw [h.points rule hrule, List.flatMap_map, List.flatMap_map]
    refine congrArg (fun cells => some (Column.mk .float cells)) ?_
    refine List.flatMap_congr fun g hg => ?_
    unfold Table.cellsOf
    rw [(hblock g hg).points rule hrule]
    exact (List.flatMap_singleton _ _).symm
  -- keys that store alike need no storing again
  · intro i k column hname hcolumn hunmixed
    rw [hkeys i k column hname hcolumn, storedKeys_of_unmixed hunmixed]
    rfl

end Concatenation

/-! ### Runs -/

/-- What a run of a statistic divides: the rows of the column that is bound to its axis, by the
columns that are bound to channels that are no positions. -/
structure Sampling.Of (s : Sampling) (stat : StatKind) (settings : Settings) (table : Table)
    (mapping : Mapping) (geometry : Value) (layer : Option Int) (name : String)
    (keyNames : List String) : Prop where
  places : s.places = List.range table.height
  bound : ∃ along, axis stat settings.axis table mapping geometry layer = .ok along ∧
    mapping.column? along.channel = some name
  column : table.series name = .ok s.column
  names : groupColumns table mapping name = .ok keyNames
  keys : allSeries table keyNames = .ok s.keys

section Runs

variable {kit : Toolkit} {stat : StatConfig} {settings : Settings} {defaults : Defaults}
  {table result : Table} {mapping : Mapping} {geometry : Value} {layer : Option Int}

/-- **Rows of one group have a run of their own.** It holds the curve that the group has among
others, or none if the group has no finite value. -/
theorem exists_part_run {kernel : Value} {along : Axis} {found : Input} {weighing : Weighing}
    {division : Division}
    (halong : axis .density settings.axis table mapping geometry layer = .ok along)
    (hfound : (input .density table mapping along layer).outcome = .ok found)
    (hweighing : kit.kernel? kernel = some weighing)
    (hdivision : found.divide table = .ok division)
    (hcurves : ∀ s ∈ division.samples, curveBlock weighing settings defaults s =
      .ok (some (curveRows weighing settings defaults s)))
    (hnames : (found.keys ++ (curveRules found.name).map Table.Rule.name).Nodup)
    (hgrouped : found.keys ≠ []) (key : List CellKey) :
    let s := found.sampling table division.columns
    ∃ block, (density kit kernel settings defaults (table.restrict (s.allRows key)) mapping geometry
        layer).outcome = .ok block ∧
      HoldsCurves (curveRows weighing settings defaults) ((s.part key).groups.map s.sample)
        division.columns found.keys division.kinds found.name block := by
  intro s
  obtain ⟨-, hcolumn, -⟩ := input_eq_ok_iff.1 hfound
  obtain ⟨hcolumns, hkinds, -, -⟩ := divide_eq_ok_iff.1 hdivision
  have hempty : s.keys.isEmpty = false :=
    (isEmpty_of_mapM hcolumns).trans (List.isEmpty_eq_false_iff.2 hgrouped)
  -- the samples are some of those that all rows divide into, and so have their curves
  have hsub : ∀ x ∈ (s.part key).groups.map s.sample, x ∈ division.samples := by
    intro x hx
    obtain ⟨g, hg, rfl⟩ := List.mem_map.1 hx
    obtain ⟨rfl, hkey⟩ := Sampling.mem_groups_part hempty hg
    rw [samples_of_division hcolumn hdivision]
    exact List.mem_map_of_mem hkey
  have hvalues := (samples_of_divide hdivision hcolumn hgrouped).1
  have hblocks :
      (curveBlocks weighing settings defaults ((s.part key).groups.map s.sample)).outcome =
        .ok (((s.part key).groups.map s.sample).map (curveRows weighing settings defaults)) :=
    (curveBlocks_eq_ok_iff fun x hx => hvalues x (hsub x hx)).2
      ⟨fun x hx => hcurves x (hsub x hx), rfl⟩
  let parted : Division := ⟨division.columns.map (Column.atRows (s.allRows key)), division.kinds,
    (s.part key).groups.map s.sample⟩
  have hlength : parted.columns.length = found.keys.length :=
    (List.length_map _).trans (length_of_mapM hcolumns)
  -- a table is assembled because the names are the same as for the whole table
  obtain ⟨block, hblock⟩ : ∃ block, assemble .density found.keys parted (curveRules found.name)
      CurveRow.key (parted.samples.map (curveRows weighing settings defaults)) = .ok block :=
    (exists_assemble_iff hlength (length_of_mapM hkinds)).2 hnames
  refine ⟨block, density_eq_ok_iff.2 ⟨along, found.restrict (s.allRows key), weighing, parted, _,
    (sameAxes_restrict table _ mapping).axis_eq_ok_iff.2 halong,
    input_restrict (isSome_of_axis halong) hfound, hweighing,
    divide_part hcolumn hdivision hgrouped key, hblocks, hblock⟩, ?_⟩
  have hholds := holdsCurves_of_assemble hblock hlength (length_of_mapM hkinds)
    fun x hx => key_of_curveBlock (hcurves x (hsub x hx))
  refine ⟨hholds.height, hholds.kinds, fun i k column hi hcolumn => ?_, hholds.points⟩
  -- how keys are stored depends on the type of their column, which the rows do not change
  refine hholds.keys i k (column.atRows (s.allRows key)) hi ?_
  change (division.columns.map (Column.atRows (s.allRows key)))[i]? = _
  rw [List.getElem?_map, hcolumn]
  rfl

/-- **Densities are computed group by group.** A result with group columns is the concatenation of
the results for the rows of one group, over all groups of rows with a finite value, in the order of
their first rows. The result for a group has as many rows as points are asked for, all of them under
the keys of the group. Rows that have no finite value in their group have a result without rows, and
without any finite value so has the whole table; the columns are always the same. -/
theorem density_concatenates_groups (hkind : stat.kind = .density)
    (h : (run kit stat defaults table mapping geometry layer).outcome = .ok result) :
    ∃ settings name names s, stat.settings kit layer = .ok settings ∧
      Sampling.Of s .density settings table mapping geometry layer name names ∧
      (names ≠ [] → ∃ kinds, names.mapM table.kind = .ok kinds ∧
        result.kinds = names.zip kinds ++
          (computedNames .density name).map (fun computed => (computed, .continuous)) ∧
        (∀ key, key ∈ s.groups ↔ ∃ i ∈ s.finiteRows, rowKey s.keys i = key) ∧
        s.groups.Nodup ∧ (s.groups.map s.start).Pairwise (· < ·) ∧
        (s.finiteRows = [] → result.height = 0) ∧
        ∃ block : List CellKey → Table,
          (∀ key, (run kit stat defaults (table.restrict (s.allRows key)) mapping geometry
            layer).outcome = .ok (block key) ∧ (block key).kinds = result.kinds) ∧
          (∀ key ∈ s.groups, askedPoints settings defaults = .ok ((block key).height : Int) ∧
            ∀ (i : Nat) k column, names[i]? = some k → s.keys[i]? = some column →
              (block key).cellsOf k = List.replicate (block key).height
                (column.cells.getD (s.start key) .missing)) ∧
          (∀ key ∉ s.groups, (block key).height = 0) ∧
          Concatenates s.keys names name (s.groups.map block) result) := by
  -- the runs differ in their tables only
  have hrun : ∀ settings table, runWith kit stat settings defaults table mapping geometry layer =
      density kit stat.kernel settings defaults table mapping geometry layer := by
    intro settings table
    unfold runWith
    rw [hkind]
  obtain ⟨settings, hsettings, h⟩ := run_eq_ok_iff.1 h
  rw [hrun] at h
  -- the steps of the run: an axis, its column, the groups of its rows, and their curves
  obtain ⟨along, found, weighing, division, blocks, halong, hfound, hweighing, hdivision, hblocks,
    h⟩ := density_eq_ok_iff.1 h
  obtain ⟨-, hcolumn, hkeys⟩ := input_eq_ok_iff.1 hfound
  obtain ⟨hcolumns, hkinds, -, -⟩ := divide_eq_ok_iff.1 hdivision
  let s := found.sampling table division.columns
  refine ⟨settings, found.name, found.keys, s, hsettings,
    ⟨rfl, ⟨along, halong, name_of_input (isSome_of_axis halong) hfound⟩, hcolumn, hkeys, hcolumns⟩,
    fun hgrouped => ?_⟩
  have hempty : s.keys.isEmpty = false :=
    (isEmpty_of_mapM hcolumns).trans (List.isEmpty_eq_false_iff.2 hgrouped)
  have hsamples : division.samples = s.groups.map s.sample := samples_of_division hcolumn hdivision
  have hvalues := (samples_of_divide hdivision hcolumn hgrouped).1
  obtain ⟨hcurves, rfl⟩ := (curveBlocks_eq_ok_iff hvalues).1 hblocks
  -- the whole table and the rows of each group hold curves of the same samples
  have hwhole := holdsCurves_of_assemble h (length_of_mapM hcolumns) (length_of_mapM hkinds)
    fun x hx => key_of_curveBlock (hcurves x hx)
  rw [hsamples] at hwhole
  have hnames := (exists_assemble_iff (length_of_mapM hcolumns) (length_of_mapM hkinds)).1
    ⟨result, h⟩
  -- the rows of each group, whichever key it has, give a run of their own
  choose block hblock hholds using
    exists_part_run halong hfound hweighing hdivision hcurves hnames hgrouped
  -- a group that is there is the only one among its own rows
  have hone : ∀ key ∈ s.groups, HoldsCurves (curveRows weighing settings defaults) [s.sample key]
      s.keys found.keys division.kinds found.name (block key) := by
    intro key hkey
    have hpart := hholds key
    rwa [Sampling.groups_part_of_mem hempty hkey] at hpart
  have hheight : ∀ key ∈ s.groups, (block key).height =
      (curveRows weighing settings defaults (s.sample key)).length :=
    fun key hkey => (hone key hkey).height.trans (Nat.add_zero _)
  have hgroups : s.groups = Group.keys (rowKey s.keys) s.finiteRows :=
    Group.columnKeys_of_not_isEmpty hempty
  refine ⟨division.kinds, hkinds, hwhole.kinds, ?_, Group.nodup_columnKeys,
    s.pairwise_start List.pairwise_lt_range, ?_, block, ?_, ?_, ?_,
    concatenates_of_holdsCurves hwhole hone⟩
  · intro key
    rw [hgroups]
    exact Group.mem_keys
  -- without finite rows no group is there
  · intro hnone
    have hno : s.groups = [] := by
      rw [hgroups, hnone]
      rfl
    rw [hwhole.height, hno]
    rfl
  -- the block of a key is the run over the rows of the key
  · intro key
    refine ⟨run_eq_ok_iff.2 ⟨settings, hsettings, ?_⟩, (hholds key).kinds.trans hwhole.kinds.symm⟩
    rw [hrun]
    exact hblock key
  -- a block has the points asked for, under the key of its group
  · intro key hkey
    have hsample : s.sample key ∈ division.samples := by
      rw [hsamples]
      exact List.mem_map_of_mem hkey
    rw [hheight key hkey]
    refine ⟨askedPoints_of_curveBlock (hcurves _ hsample), fun i k column hi hcolumn => ?_⟩
    rw [(hone key hkey).cellsOf_key hi hcolumn, s.getD_key_sample hcolumn]
  -- a key that no finite row has leaves no group and no rows
  · intro key hkey
    have hpart := hholds key
    rw [Sampling.groups_part_of_not_mem hempty hkey] at hpart
    exact hpart.height

end Runs

/-- The densities of the amounts of two groups. -/
def densityRun (table : Table) : Logged Table :=
  run .standard { kind := .density, points := .int 2 } {} table sampledMapping .null none

/-- The curves of two groups are below each other, each as it is alone. -/
theorem density_concatenates_samples :
    ∃ (result : Table) (s : Sampling), (densityRun sampledTable).outcome = .ok result ∧
      s.keys.length = 1 ∧
      ∃ block : List CellKey → Table,
        (∀ key, (densityRun (sampledTable.restrict (s.allRows key))).outcome = .ok (block key)) ∧
        Concatenates s.keys ["s"] "m" (s.groups.map block) result := by
  have hok : (densityRun sampledTable).outcome.toBool = true := by decide +kernel
  cases h : (densityRun sampledTable).outcome with
  | error e =>
    rw [h] at hok
    exact absurd hok Bool.false_ne_true
  | ok result =>
    obtain ⟨settings, name, names, s, -, hof, hgrouped⟩ := density_concatenates_groups rfl h
    -- the amounts are those of the only column that is bound to an axis
    have hname : name = "m" := by
      obtain ⟨along, -, hbound⟩ := hof.bound
      cases along with
      | x => exact (Option.some.inj hbound).symm
      | y => cases hbound
    subst hname
    have hnames : groupColumns sampledTable sampledMapping "m" = .ok ["s"] := by rfl
    cases hof.names.symm.trans hnames
    obtain ⟨-, -, -, -, -, -, -, block, hblock, -, -, hconcatenates⟩ :=
      hgrouped (List.cons_ne_nil _ _)
    exact ⟨result, s, rfl, length_of_mapM hof.keys, block, fun key => (hblock key).1,
      hconcatenates⟩

/-- The densities of the numbers of a table of keys, key by key. -/
def idDensity (table : Table) : Logged Table :=
  run .standard { kind := .density, points := .int 2 } {} table
    ((Mapping.empty.set .x (.column "n")).set .color (.column "id")) .null none

/-- A result is not the concatenation of the results for two keys: alone, a large integer stays as
it is, and beside a missing key it is stored as a double, which is another number. -/
theorem density_key_stored_as_double :
    ∃ result first second : Table, (idDensity idTable).outcome = .ok result ∧
      (idDensity (idTable.restrict [0])).outcome = .ok first ∧
      (idDensity (idTable.restrict [1])).outcome = .ok second ∧
      (idTable.column? "id").map (fun column => Group.keys (rowKey [column]) [0, 1]) =
        some [[.whole 9007199254740993], [.missing]] ∧
      (first.cellsOf "id").map Cell.key =
        [.whole 9007199254740993, .whole 9007199254740993] ∧
      (second.cellsOf "id").map Cell.key = [.missing, .missing] ∧
      (result.cellsOf "id").map Cell.key =
        [.whole 9007199254740992, .whole 9007199254740992, .missing, .missing] ∧
      result.cellsOf "id" ≠ first.cellsOf "id" ++ second.cellsOf "id" := by
  -- the three runs are computed, and only the keys are kept of them
  have hresult : (idDensity idTable).outcome.toOption.map (fun t => (t.cellsOf "id").map Cell.key) =
      some [.whole 9007199254740992, .whole 9007199254740992, .missing, .missing] := by
    decide +kernel
  have hfirst : (idDensity (idTable.restrict [0])).outcome.toOption.map
      (fun t => (t.cellsOf "id").map Cell.key) =
        some [.whole 9007199254740993, .whole 9007199254740993] := by
    decide +kernel
  have hsecond : (idDensity (idTable.restrict [1])).outcome.toOption.map
      (fun t => (t.cellsOf "id").map Cell.key) = some [.missing, .missing] := by
    decide +kernel
  -- a run that gives these keys has a result
  have hrun : ∀ {table keys}, (idDensity table).outcome.toOption.map
      (fun t => (t.cellsOf "id").map Cell.key) = some keys →
        ∃ t, (idDensity table).outcome = .ok t ∧ (t.cellsOf "id").map Cell.key = keys := by
    intro table keys h
    cases ht : (idDensity table).outcome with
    | error e =>
      rw [ht] at h
      cases h
    | ok t =>
      rw [ht] at h
      exact ⟨t, rfl, Option.some.inj h⟩
  obtain ⟨result, hresult, hkeys⟩ := hrun hresult
  obtain ⟨first, hfirst, hkeys₁⟩ := hrun hfirst
  obtain ⟨second, hsecond, hkeys₂⟩ := hrun hsecond
  refine ⟨result, first, second, hresult, hfirst, hsecond, by decide +kernel, hkeys₁, hkeys₂, hkeys,
    fun hsame => ?_⟩
  -- the first key has lost its last digit in the result
  have hsame := congrArg (List.map Cell.key) hsame
  rw [List.map_append, hkeys, hkeys₁, hkeys₂] at hsame
  exact absurd hsame (by decide)

end Stat

end PlotGrammar
