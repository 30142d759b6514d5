import PlotGrammar.Proofs.Stat.Bins
import PlotGrammar.Proofs.Stat.Steps

/-!
# Samples of groups

Bins and curves are computed from the samples that the group columns divide rows into, and stand in
the result beside the cells of the groups.

* `Stat.Sampling` is what there is to divide: some rows of a column, and the columns that divide
  them. `Sampling.samples_eq` says which samples there are: one for each group, under the cells of
  its first row.
* A result has a block of rows for each sample. On all of them a group column repeats the cell of
  the sample, and stores it in the way that is chosen for all samples (`Stat.column?_of_key`).
  `Stat.kinds_of_assemble` lists the columns of a result.
-/

namespace PlotGrammar

namespace Stat

/-! ### Groups and their samples -/

/-- What there is to divide: some rows, the column whose values are taken, and the columns that
divide the rows into groups. -/
structure Sampling where
  places : List Nat
  column : Column
  keys : List Column

namespace Sampling

/-- The rows with a finite value. -/
def finiteRows (s : Sampling) : List Nat :=
  s.places.filter fun i => (rowValue s.column i).isSome

/-- The rows of a group with a finite value. -/
def rows (s : Sampling) (key : List CellKey) : List Nat :=
  Group.rowsWith (rowKey s.keys) s.finiteRows key

/-- The groups: one for each key of rows with a finite value, or one of all rows if nothing divides
them. -/
def groups (s : Sampling) : List (List CellKey) :=
  Group.columnKeys s.keys s.finiteRows

/-- The first row of a group that has a finite value. -/
def start (s : Sampling) (key : List CellKey) : Nat :=
  (s.rows key).headD 0

/-- The cells of a row in the columns that divide the rows. -/
def cellsAt (s : Sampling) (i : Nat) : List Cell :=
  s.keys.map fun k => k.cells.getD i .missing

/-- The sample of a group: its finite values, under the cells of its first row. -/
def sample (s : Sampling) (key : List CellKey) : Sample :=
  ⟨s.cellsAt (s.start key), (s.rows key).filterMap (rowValue s.column)⟩

/-- The rows as they are observed. -/
def observations (s : Sampling) : List Observation :=
  s.places.filterMap (observed? s.column s.keys)

/-- A row with a finite value as it is observed. -/
def observation (s : Sampling) (i : Nat) : Observation :=
  ⟨s.cellsAt i, (rowValue s.column i).getD 0⟩

variable (s : Sampling)

theorem observations_eq : s.observations = s.finiteRows.map s.observation := by
  unfold observations finiteRows
  rw [← List.filterMap_eq_map, List.filterMap_filter]
  refine List.filterMap_congr fun i _ => ?_
  unfold observed?
  cases hv : rowValue s.column i with
  | none => rfl
  | some v =>
    rw [Option.isSome_some, if_pos rfl, Function.comp_apply]
    unfold observation
    rw [hv]
    rfl

theorem keyOf_observation (i : Nat) : keyOf (s.observation i).key = rowKey s.keys i :=
  List.map_map

theorem isSome_of_mem_rows {key : List CellKey} {i : Nat} (h : i ∈ s.rows key) :
    (rowValue s.column i).isSome = true :=
  (List.mem_filter.1 (List.mem_filter.1 h).1).2

theorem map_value_rows (key : List CellKey) :
    ((s.rows key).map s.observation).map Observation.value =
      (s.rows key).filterMap (rowValue s.column) := by
  rw [List.map_map, ← List.filterMap_eq_map]
  refine List.filterMap_congr fun i hi => ?_
  obtain ⟨v, hv⟩ := Option.isSome_iff_exists.1 (s.isSome_of_mem_rows hi)
  rw [Function.comp_apply, Function.comp_apply]
  unfold observation
  rw [hv]
  rfl

/-- A group that columns make has a row. -/
theorem rows_ne_nil {key : List CellKey} (hkeys : s.keys.isEmpty = false) (h : key ∈ s.groups) :
    s.rows key ≠ [] := by
  unfold groups at h
  rw [Group.columnKeys_of_not_isEmpty hkeys] at h
  obtain ⟨i, hi, hkey⟩ := Group.mem_keys.1 h
  exact List.ne_nil_of_mem (List.mem_filter.2 ⟨hi, decide_eq_true hkey⟩)

/-- **There is one sample for each group.** -/
theorem samples_eq : samples (!s.keys.isEmpty) s.observations = s.groups.map s.sample := by
  rw [s.observations_eq]
  unfold samples groups
  cases hkeys : s.keys.isEmpty with
  -- without keys there is one sample, of all rows with a value
  | true =>
    have hall : s.rows [] = s.finiteRows := Group.rowsWith_of_isEmpty hkeys
    have hcells : s.cellsAt (s.start []) = [] := by
      unfold cellsAt
      rw [List.isEmpty_iff.1 hkeys]
      rfl
    rw [Group.columnKeys_of_isEmpty hkeys, List.map_singleton, ← hall, s.map_value_rows]
    unfold sample
    rw [hcells]
    rfl
  | false =>
    have hkey : (fun i => keyOf (s.observation i).key) = rowKey s.keys :=
      funext s.keyOf_observation
    rw [Group.columnKeys_of_not_isEmpty hkeys, Bool.not_false, if_pos rfl]
    unfold Group.of
    rw [Group.keys_map, hkey, List.filterMap_map]
    refine (List.filterMap_congr fun key hmem => ?_).trans (congrFun List.filterMap_eq_map _)
    -- no group is dropped, for each has a first row
    have hgroup : key ∈ s.groups := by
      unfold groups
      rwa [Group.columnKeys_of_not_isEmpty hkeys]
    obtain ⟨i, rest, hrows⟩ := List.exists_cons_of_ne_nil (s.rows_ne_nil hkeys hgroup)
    have hstart : s.start key = i := congrArg (fun is => is.headD 0) hrows
    have hmap : Group.rowsWith (fun r : Observation => keyOf r.key)
        (s.finiteRows.map s.observation) key = (s.rows key).map s.observation := by
      rw [Group.rowsWith_map, hkey]
      rfl
    have hsample : s.sample key =
        ⟨(s.observation i).key, (i :: rest).filterMap (rowValue s.column)⟩ := by
      unfold sample
      rw [hstart, hrows]
      rfl
    rw [Function.comp_apply]
    dsimp only
    rw [hmap, s.map_value_rows, hrows]
    exact congrArg some hsample.symm

/-- Groups come in the order of their first rows, if the rows are in order. -/
theorem pairwise_start (h : s.places.Pairwise (· < ·)) :
    (s.groups.map s.start).Pairwise (· < ·) := by
  unfold groups
  cases hkeys : s.keys.isEmpty with
  | true =>
    rw [Group.columnKeys_of_isEmpty hkeys]
    exact List.pairwise_singleton _ _
  | false =>
    rw [Group.columnKeys_of_not_isEmpty hkeys]
    exact Group.pairwise_starts (h.filter _)

end Sampling

/-- What there is to divide in an input. -/
def Input.sampling (table : Table) (found : Input) (columns : List Column) : Sampling :=
  ⟨List.range table.height, found.column, columns⟩

/-- The samples of an input are those of its groups. -/
theorem samples_of_division {table : Table} {found : Input} {division : Division}
    (hcolumn : table.series found.name = .ok found.column)
    (hdivision : found.divide table = .ok division) :
    division.samples = (found.sampling table division.columns).groups.map
      (found.sampling table division.columns).sample := by
  obtain ⟨hcolumns, -, -, hsamples⟩ := divide_eq_ok_iff.1 hdivision
  rw [hsamples, ← isEmpty_of_mapM hcolumns, ← Sampling.samples_eq]
  unfold Input.observed
  rw [Stat.observations_eq (Table.length_of_series hcolumn)]
  rfl

/-! ### Group columns -/

/-- A group column as a result stores it: keys of objects are stored in the way that is chosen for
all of them. -/
def storedKeys (choose : List Cell → KeyStore) (column : Column) (cells : List Cell) : Column :=
  let stored := cells.map (KeyStore.ofColumn choose column cells).cell
  ⟨keyType column stored, stored⟩

section Keys

variable {ρ : Type} {names : List String}

/-- Each group column has a rule, which stands at its place among them. -/
theorem exists_keyRule (key : ρ → List Cell) (choose : List Cell → KeyStore)
    {columns : List Column} {kinds : List ColumnKind} {i : Nat} {name : String} {column : Column}
    {kind : ColumnKind} (hname : names[i]? = some name) (hcolumn : columns[i]? = some column)
    (hkind : kinds[i]? = some kind) (rows : List ρ) :
    ∃ rule ∈ keyRules names columns kinds (keyStores choose columns (rows.map key)) key,
      rule.name = name ∧ rule.kind = kind ∧ (rule.field rows).column =
        storedKeys choose column (rows.map fun r => (key r).getD i .missing) := by
  -- the rule at the place of a name stores its cells by all the keys at that place
  let stores := keyStores choose columns (rows.map key)
  have hstore : stores.getD i .kept =
      KeyStore.ofColumn choose column (rows.map fun r => (key r).getD i .missing) := by
    change (keyStores choose columns (rows.map key)).getD i .kept = _
    unfold keyStores
    rw [List.getD_eq_getElem?_getD, List.getElem?_mapIdx, hcolumn, List.map_map]
    rfl
  have hzip : (names.zip (columns.zip kinds))[i]? = some (name, column, kind) := by
    rw [List.getElem?_zip_eq_some, List.getElem?_zip_eq_some]
    exact ⟨hname, hcolumn, hkind⟩
  refine ⟨⟨name, kind, keyType column, fun r =>
    (stores.getD i .kept).cell ((key r).getD i .missing)⟩, List.mem_of_getElem? (i := i) ?_, rfl,
      rfl, ?_⟩
  · unfold keyRules
    rw [List.getElem?_mapIdx, hzip]
    rfl
  · unfold Table.Rule.field storedKeys
    dsimp only
    rw [hstore, List.map_map]
    rfl

end Keys

/-- The cells of a group column on the rows of a result: those of each sample, on all of its
rows. -/
def repeatedCells (samples : List Sample) (size : Sample → Nat) (i : Nat) : List Cell :=
  samples.flatMap fun s => List.replicate (size s) (s.key.getD i .missing)

/-- A group stands under the cells of its first row. -/
theorem Sampling.getD_key_sample (s : Sampling) {i : Nat} {column : Column}
    (h : s.keys[i]? = some column) (key : List CellKey) :
    (s.sample key).key.getD i .missing = column.cells.getD (s.start key) .missing := by
  change (s.cellsAt (s.start key)).getD i .missing = _
  unfold cellsAt
  rw [List.getD_eq_getElem?_getD, List.getElem?_map, h]
  rfl

theorem Sampling.repeatedCells_eq (s : Sampling) (size : Sample → Nat) {i : Nat} {column : Column}
    (h : s.keys[i]? = some column) :
    repeatedCells (s.groups.map s.sample) size i = s.groups.flatMap fun key =>
      List.replicate (size (s.sample key)) (column.cells.getD (s.start key) .missing) := by
  unfold repeatedCells
  rw [List.flatMap_map]
  exact List.flatMap_congr fun key _ => by rw [s.getD_key_sample h]

section Blocks

variable {ρ : Type} {stat : StatKind} {names : List String} {division : Division}
  {computed : List (Table.Rule ρ)} {key : ρ → List Cell} {blocks : List (List ρ)} {result : Table}
  {block : Sample → List ρ}

theorem map_key_flatMap {samples : List Sample}
    (hkey : ∀ s ∈ samples, ∀ r ∈ block s, key r = s.key) (i : Nat) :
    (samples.flatMap block).map (fun r => (key r).getD i .missing) =
      repeatedCells samples (fun s => (block s).length) i := by
  unfold repeatedCells
  rw [List.map_flatMap]
  refine List.flatMap_congr fun s hs => List.eq_replicate_iff.2 ⟨List.length_map _, ?_⟩
  intro c hc
  obtain ⟨r, hr, rfl⟩ := List.mem_map.1 hc
  rw [hkey s hs r hr]

/-- **A group column of a result** holds the cells of each sample on all of its rows. -/
theorem column?_of_key (h : assemble stat names division computed key blocks = .ok result)
    (hrows : blocks.flatten = division.samples.flatMap block)
    (hkey : ∀ s ∈ division.samples, ∀ r ∈ block s, key r = s.key) {i : Nat} {name : String}
    {column : Column} {kind : ColumnKind} (hname : names[i]? = some name)
    (hcolumn : division.columns[i]? = some column) (hkind : division.kinds[i]? = some kind) :
    result.column? name = some (storedKeys .ofAmounts column
      (repeatedCells division.samples (fun s => (block s).length) i)) := by
  obtain ⟨-, h⟩ := assemble_eq_ok_iff.1 h
  obtain ⟨rule, hrule, hsame, -, hfield⟩ := exists_keyRule key .ofAmounts hname hcolumn
    hkind blocks.flatten
  have hfound := Table.column?_of_ofRows h (List.mem_append_left _ hrule)
  rw [hsame, hfield, hrows, map_key_flatMap hkey] at hfound
  exact hfound

/-- The columns of a result are the group columns, each of its kind, and those that are computed. -/
theorem kinds_of_assemble (h : assemble stat names division computed key blocks = .ok result)
    (hcolumns : division.columns.length = names.length)
    (hkinds : division.kinds.length = names.length) :
    result.kinds = names.zip division.kinds ++ computed.map fun r => (r.name, r.kind) := by
  obtain ⟨-, h⟩ := assemble_eq_ok_iff.1 h
  -- the keys come first, each under its own kind, then what the stat computes
  have hkeys : (keyRules names division.columns division.kinds (keyStores .ofAmounts
      division.columns (blocks.flatten.map key)) key).map (fun r => (r.name, r.kind)) =
        names.zip division.kinds := by
    unfold keyRules
    rw [map_mapIdx (h := fun e => (e.1, e.2.2)) fun _ _ _ => rfl]
    have hsnd : (division.columns.zip division.kinds).map Prod.snd = division.kinds :=
      List.map_snd_zip (by omega)
    conv_rhs => rw [← hsnd]
    rw [List.zip_map_right]
    rfl
  unfold Table.kinds
  rw [(Table.fields_of_ofRows h).1, List.map_map]
  change List.map (fun r => (r.name, r.kind)) (assembledRules names division computed key _) = _
  unfold assembledRules
  rw [List.map_append, hkeys]

end Blocks

end Stat

end PlotGrammar
