import PlotGrammar.Proofs.Stat.Keeping
import PlotGrammar.Proofs.Stat.Single

/-!
# Summaries of summaries

A summary can be summarized once more, over its own table and with the same mapping. Its columns
have the names and kinds of the columns they were made of, so that the same columns are keys and the
same ones are reduced (`Stat.Grouping.Of.again`).

Where no two rows have the same keys (`Stat.Grouping.Apart`), each row is a group of its own. The
key columns stay as they are (`Stat.Grouping.keyFields_again`), and a column of results stays the
same if each of its cells is its own result (`Stat.Fixes`), or is equal to its result as this is
stored (`Stat.Keeps`). Otherwise rows are lost. So the table comes out again exactly if the rows are
apart and the columns are kept (`Stat.Grouping.exists_same_iff`), whatever the reduction is, unless
cells are only counted.

Groups have different keys, and so have the rows of a summary unless keys change where they are
stored (`Stat.Grouping.apart_of_keepsKeys`).
-/

namespace PlotGrammar

/-- What a column shows: its label, its kind, and what its cells are compared by. -/
def Field.content (f : Field) : Label × ColumnKind × List CellKey :=
  (f.label, f.kind, f.column.cells.map Cell.key)

namespace Table

/-- Two tables are the same: they are equally high and have the same columns in the same order, of
the same kinds and with equal cells. -/
structure Same (t t' : Table) : Prop where
  height : t'.height = t.height
  fields : t'.fields.map Field.content = t.fields.map Field.content

/-- A table is what its columns, its height and its source are. -/
theorem eq_of_fields {t t' : Table} (hfields : t.fields = t'.fields)
    (hheight : t.height = t'.height) (hcomputed : t.computedBy = t'.computedBy) : t = t' := by
  cases t
  cases t'
  cases hfields
  cases hheight
  cases hcomputed
  rfl

end Table

namespace Stat

namespace Grouping

variable {g : Grouping}

/-! ### Keys as they are stored -/

/-- The keys of the groups as cells of a column: those of their first rows. -/
def startCells (g : Grouping) (column : Column) : List Cell :=
  g.groups.map fun key => column.cells.getD (g.start key) .missing

/-- A key column stores the keys as they are: it does not turn integers among objects into
doubles. -/
def KeepsKeys (g : Grouping) (column : Column) : Prop :=
  column.type = .object → ColumnType.ofCells (g.startCells column) ≠ .float

theorem keyColumn_of_keepsKeys {column : Column} (h : g.KeepsKeys column) :
    g.keyColumn column = ⟨keyType column (g.startCells column), g.startCells column⟩ := by
  have hkept : ¬ (column.type = .object ∧ ColumnType.ofCells (g.startCells column) = .float) :=
    fun hstored => h hstored.1 hstored.2
  have hcells : (g.keyColumn column).cells = g.startCells column := if_neg hkept
  -- the type of the column is found from the cells that are stored
  have htype : (g.keyColumn column).type = keyType column (g.keyColumn column).cells := rfl
  rw [hcells] at htype
  rw [← htype, ← hcells]

/-- Keys that are stored once are stored. -/
theorem keyColumn_stored (column : Column) :
    ((g.keyColumn column).type = .object →
        ColumnType.ofCells (g.keyColumn column).cells ≠ .float) ∧
      keyType (g.keyColumn column) (g.keyColumn column).cells = (g.keyColumn column).type := by
  have htype : (g.keyColumn column).type = keyType column (g.keyColumn column).cells := rfl
  generalize g.keyColumn column = stored at htype ⊢
  unfold keyType at htype
  -- what is stored as objects is of no narrower type, so it is not turned into doubles once more
  have hobject : stored.type = .object → ColumnType.ofCells stored.cells = .object := by
    intro hobject
    rw [hobject] at htype
    split at htype
    · exact htype.symm
    · next hother => exact absurd htype.symm hother
  constructor
  · intro h hfloat
    rw [hobject h] at hfloat
    cases hfloat
  · unfold keyType
    split
    · next h => rw [hobject h, h]
    · rfl

theorem length_keyColumn (g : Grouping) (column : Column) :
    (g.keyColumn column).cells.length = g.groups.length := by
  unfold keyColumn
  dsimp only
  split
  · rw [List.length_map, List.length_map]
  · exact List.length_map _

theorem isKeyed_keyColumn {column : Column} (h : column.isKeyed = true) :
    (g.keyColumn column).isKeyed = true := by
  have hcells : ∀ c ∈ (g.keyColumn column).cells, c.isKeyed = true := by
    intro c hc
    unfold keyColumn at hc
    dsimp only at hc
    split at hc
    · obtain ⟨c, -, rfl⟩ := List.mem_map.1 hc
      exact Column.isKeyed_floatCell c
    · obtain ⟨key, -, rfl⟩ := List.mem_map.1 hc
      exact Table.isKeyed_getD (List.all_eq_true.1 h) (g.start key)
  exact List.all_eq_true.2 hcells

/-! ### Rows of different keys -/

/-- No two rows have one key. -/
def Apart (g : Grouping) : Prop :=
  ((List.range g.height).map (rowKey g.keys)).Nodup

/-- The groups of rows of different keys are the rows, if there is one row where there are no
keys. -/
theorem groups_of_apart (h : g.Apart) (hone : g.keys.isEmpty = true → g.height = 1) :
    g.groups = (List.range g.height).map (rowKey g.keys) := by
  unfold groups
  cases hkeys : g.keys.isEmpty with
  | true =>
    rw [Group.columnKeys_of_isEmpty hkeys, hone hkeys, List.isEmpty_iff.1 hkeys]
    rfl
  | false =>
    rw [Group.columnKeys_of_not_isEmpty hkeys]
    exact Group.keys_of_nodup h

theorem Apart.length_groups (h : g.Apart) (hone : g.keys.isEmpty = true → g.height = 1) :
    g.groups.length = g.height := by
  rw [groups_of_apart h hone, List.length_map, List.length_range]

theorem rows_of_apart (h : g.Apart) {i : Nat} (hi : i < g.height) :
    g.rows (rowKey g.keys i) = [i] :=
  Group.rowsWith_of_nodup h (List.mem_range.2 hi)

/-- If there are as many groups as rows, the rows have different keys. -/
theorem apart_of_length_groups (h : g.groups.length = g.height) : g.Apart := by
  unfold Apart
  unfold groups at h
  cases hkeys : g.keys.isEmpty with
  | true =>
    rw [Group.columnKeys_of_isEmpty hkeys] at h
    rw [← h]
    exact List.nodup_singleton _
  | false =>
    rw [Group.columnKeys_of_not_isEmpty hkeys] at h
    exact Group.nodup_of_length_keys (h.trans List.length_range.symm)

section Apart

variable (h : g.Apart) (hone : g.keys.isEmpty = true → g.height = 1) {column : Column}
  (hlength : column.cells.length = g.height)

include h hone hlength

/-- The first cells of the groups are all cells. -/
theorem startCells_of_apart : g.startCells column = column.cells := by
  unfold startCells
  rw [groups_of_apart h hone, List.map_map]
  conv_rhs => rw [← map_getD_range hlength .missing]
  refine List.map_congr_left fun i hi => ?_
  dsimp only [Function.comp_apply]
  unfold start
  rw [rows_of_apart h (List.mem_range.1 hi)]
  rfl

theorem keyColumn_of_apart
    (hkept : column.type = .object → ColumnType.ofCells column.cells ≠ .float) :
    g.keyColumn column = ⟨keyType column column.cells, column.cells⟩ := by
  have hcells := startCells_of_apart h hone hlength
  have hkeeps : g.KeepsKeys column := fun hobject => hcells ▸ hkept hobject
  rw [keyColumn_of_keepsKeys hkeeps, hcells]

/-- The groups are reduced cell by cell. -/
theorem mapM_of_apart :
    g.groups.mapM (fun key => g.reduce (g.part column key)) =
      column.cells.mapM fun c => g.reduce ⟨column.type, [c]⟩ := by
  -- a group of rows that are apart is one row, whose part is one cell
  have hpart : ∀ i ∈ List.range g.height,
      ((fun key => g.reduce (g.part column key)) ∘ rowKey g.keys) i =
        ((fun c => g.reduce ⟨column.type, [c]⟩) ∘ fun i => column.cells.getD i .missing) i := by
    intro i hi
    dsimp only [Function.comp_apply]
    unfold part
    rw [rows_of_apart h (List.mem_range.1 hi)]
    rfl
  rw [groups_of_apart h hone, List.mapM_map, mapM_congr hpart, ← List.mapM_map,
    map_getD_range hlength]

end Apart

/-! ### Grouping a summary -/

/-- What there is to summarize in a summary of other columns. -/
def again (g : Grouping) (columns : List Column) : Grouping where
  height := g.groups.length
  names := g.names
  keys := g.keys.map g.keyColumn
  kinds := g.kinds
  reducedNames := g.reducedNames
  reduced := columns
  reduce := g.reduce

/-- A column of numbers under a name. -/
def numberField (e : String × Column) : Field :=
  ⟨.text e.1, .continuous, e.2⟩

/-- The column stores what parts of a column are reduced to. -/
def IsResult (reduce : Aggregator) (column : Column) : Prop :=
  ∃ type results, Results reduce type results ∧ column = reducedColumn type results

/-- A table stores the keys of groups, and what these are reduced to, in columns. -/
structure Stores (g : Grouping) (result : Table) (columns : List Column) : Prop where
  height : result.height = g.groups.length
  length : columns.length = g.reducedNames.length
  fields : result.fields = g.keyFields ++ (g.reducedNames.zip columns).map numberField
  results : ∀ column ∈ columns, IsResult g.reduce column

theorem fields_of_isReduced {es : List (String × Column)} {fields : List Field}
    (h : List.Forall₂ g.IsReduced es fields) :
    fields = ((es.map Prod.fst).zip (fields.map Field.column)).map numberField ∧
      ∀ f ∈ fields, IsResult g.reduce f.column := by
  induction h with
  | nil => exact ⟨rfl, fun f hf => absurd hf List.not_mem_nil⟩
  | cons hreduced _ ih =>
    obtain ⟨results, hresults, rfl⟩ := hreduced
    obtain ⟨hfields, hall⟩ := ih
    constructor
    · rw [List.map_cons, List.map_cons, List.zip_cons_cons, List.map_cons, ← hfields]
      rfl
    · intro f hf
      rcases List.mem_cons.1 hf with rfl | hf
      -- what is stored came from the cells of a group
      · refine ⟨_, results, fun r hr => ?_, rfl⟩
        obtain ⟨key, -, hr⟩ := exists_of_mem_mapM hresults hr
        exact ⟨_, hr⟩
      · exact hall f hf

/-- A summary stores what its groups are reduced to. -/
theorem Summarizes.exists_stores {result : Table} (h : g.Summarizes result)
    (hlength : g.reduced.length = g.reducedNames.length) :
    ∃ columns, g.Stores result columns := by
  obtain ⟨fields, hfields, hreduced⟩ := h.fields
  obtain ⟨hshape, hall⟩ := fields_of_isReduced hreduced
  have hcount := hreduced.length_eq
  -- there are as many fields as reduced columns, so nothing is cut off by pairing them
  rw [List.map_fst_zip (Nat.le_of_eq hlength.symm)] at hshape
  rw [List.length_zip, hlength, Nat.min_self] at hcount
  refine ⟨fields.map Field.column, h.height, ?_, ?_, fun column hcolumn => ?_⟩
  · rw [List.length_map, hcount]
  · rw [hfields, ← hshape]
  · obtain ⟨f, hf, rfl⟩ := List.mem_map.1 hcolumn
    exact hall f hf

section KeyFields

variable (hkeys : g.keys.length = g.names.length) (hkinds : g.kinds.length = g.names.length)

include hkeys hkinds

theorem length_zip_keys : (g.keys.zip g.kinds).length = g.names.length := by
  rw [List.length_zip, hkeys, hkinds, Nat.min_self]

theorem labels_keyFields : g.keyFields.map Field.label = g.names.map Label.text := by
  have hnames := List.map_fst_zip (Nat.le_of_eq (length_zip_keys hkeys hkinds).symm)
  conv_rhs => rw [← hnames]
  unfold keyFields
  rw [List.map_map, List.map_map]
  rfl

theorem kinds_keyFields : g.keyFields.map Field.kind = g.kinds := by
  have hzip := List.map_snd_zip (Nat.le_of_eq (length_zip_keys hkeys hkinds))
  conv_rhs => rw [← List.map_snd_zip (Nat.le_of_eq (hkinds.trans hkeys.symm)), ← hzip]
  unfold keyFields
  rw [List.map_map, List.map_map]
  rfl

theorem columns_keyFields : g.keyFields.map Field.column = g.keys.map g.keyColumn := by
  have hzip := List.map_snd_zip (Nat.le_of_eq (length_zip_keys hkeys hkinds))
  conv_rhs => rw [← List.map_fst_zip (Nat.le_of_eq (hkeys.trans hkinds.symm)), ← hzip]
  unfold keyFields
  rw [List.map_map, List.map_map, List.map_map]
  rfl

end KeyFields

theorem labels_numberFields {names : List String} {columns : List Column}
    (hlength : columns.length = names.length) :
    ((names.zip columns).map numberField).map Field.label = names.map Label.text := by
  conv_rhs => rw [← List.map_fst_zip (Nat.le_of_eq hlength.symm)]
  rw [List.map_map, List.map_map]
  rfl

theorem columns_numberFields {names : List String} {columns : List Column}
    (hlength : columns.length = names.length) :
    ((names.zip columns).map numberField).map Field.column = columns := by
  conv_rhs => rw [← List.map_snd_zip (Nat.le_of_eq hlength)]
  rw [List.map_map]
  rfl

section Stored

variable {result : Table} {columns : List Column} (h : g.Stores result columns)

include h

/-- The columns of the keys are found in the table that stores them. -/
theorem Stores.look_names {β : Type} {look : String → Except Failure β} {read : Field → β}
    (hkeys : g.keys.length = g.names.length) (hkinds : g.kinds.length = g.names.length)
    (hlook : ∀ f ∈ result.fields, ∀ name, f.label = .text name → look name = .ok (read f)) :
    g.names.mapM look = .ok (g.keyFields.map read) :=
  Table.mapM_of_labels (fun f hf => hlook f (h.fields ▸ List.mem_append_left _ hf))
    (labels_keyFields hkeys hkinds)

/-- So are the columns of results. -/
theorem Stores.allSeries_reducedNames : allSeries result g.reducedNames = .ok columns := by
  rw [← congrArg Except.ok (columns_numberFields h.length)]
  refine Table.mapM_of_labels (fun f hf name hlabel => ?_) (labels_numberFields h.length)
  exact Table.series_of_label (h.fields ▸ List.mem_append_right _ hf) hlabel

theorem Stores.length_cells : ∀ column ∈ columns, column.cells.length = g.groups.length := by
  intro column hcolumn
  rw [← columns_numberFields h.length] at hcolumn
  obtain ⟨f, hf, rfl⟩ := List.mem_map.1 hcolumn
  rw [← h.height]
  exact result.uniform f (h.fields ▸ List.mem_append_right _ hf)

/-- What holds of the columns holds of the columns under their names. -/
theorem Stores.forall_zip {P : Column → Prop} :
    (∀ e ∈ g.reducedNames.zip columns, P e.2) ↔ ∀ column ∈ columns, P column := by
  conv_rhs => rw [← List.map_snd_zip (Nat.le_of_eq h.length), List.forall_mem_map]

end Stored

end Grouping

section Again

variable {kit : Toolkit} {stat : StatConfig} {settings : Settings} {table result : Table}
  {mapping : Mapping} {geometry : Value} {layer : Option Int} {g : Grouping}
  {columns : List Column}

/-- What is reduced and not only counted is continuous. -/
theorem continuous_of_reducedColumns {keys reduced : List String}
    (h : reducedColumns false table mapping keys layer = .ok reduced) :
    ∀ name ∈ reduced, table.kind name = .ok .continuous := by
  obtain ⟨step, hfold, hsteps⟩ := reducedColumns_steps h
  -- the invariant of the fold: without counting, only continuous columns are added
  refine foldlM_induction (P := fun found => ∀ name ∈ found, table.kind name = .ok .continuous)
    (fun found e found' _ hfound hstep name hname => ?_)
    (fun _ hname => absurd hname List.not_mem_nil) hfold
  rcases hsteps found e found' hstep with ⟨rfl, -⟩ | ⟨rfl, hallowed⟩
  · exact hfound name hname
  · rcases List.mem_append.1 hname with hname | hname
    · exact hfound name hname
    · obtain rfl := List.mem_singleton.1 hname
      exact hallowed.resolve_left Bool.false_ne_true

namespace Grouping

/-- Nothing else is grouped and reduced by a run. -/
theorem Of.unique {g' : Grouping} (h : g.Of kit stat settings table mapping geometry layer)
    (h' : g'.Of kit stat settings table mapping geometry layer) : g = g' := by
  obtain ⟨hheight, ⟨along, value, others, halong, hvalue, hothers, hnames⟩, hkeys, hkinds,
    hreducedNames, hreduced, hreduce⟩ := h
  obtain ⟨hheight', ⟨along', value', others', halong', hvalue', hothers', hnames'⟩, hkeys', hkinds',
    hreducedNames', hreduced', hreduce'⟩ := h'
  cases halong.symm.trans halong'
  cases hvalue.symm.trans hvalue'
  cases hothers.symm.trans hothers'
  obtain ⟨height, names, keys, kinds, reducedNames, reduced, reduce⟩ := g
  obtain ⟨height', names', keys', kinds', reducedNames', reduced', reduce'⟩ := g'
  dsimp only at *
  subst hheight hheight' hnames hnames'
  cases hkeys.symm.trans hkeys'
  cases hkinds.symm.trans hkinds'
  cases hreducedNames.symm.trans hreducedNames'
  cases hreduced.symm.trans hreduced'
  cases hreduce.symm.trans hreduce'
  rfl

namespace Of

variable (h : g.Of kit stat settings table mapping geometry layer)
  (hstores : g.Stores result columns)

include h hstores

theorem mapM_kind : g.names.mapM result.kind = .ok g.kinds := by
  rw [← kinds_keyFields (length_of_mapM h.keys) (length_of_mapM h.kinds)]
  exact hstores.look_names (length_of_mapM h.keys) (length_of_mapM h.kinds)
    fun f hf name => Table.kind_of_label hf

theorem allSeries_names : allSeries result g.names = .ok (g.keys.map g.keyColumn) := by
  rw [← columns_keyFields (length_of_mapM h.keys) (length_of_mapM h.kinds)]
  exact hstores.look_names (length_of_mapM h.keys) (length_of_mapM h.kinds)
    fun f hf name => Table.series_of_label hf

variable (hcounting : stat.aggregator.same (.text "count") = false)

include hcounting

/-- The columns that are bound are of the same kinds in the summary. -/
theorem exists_kind : ∀ name ∈ g.names ++ g.reducedNames, ∃ kind,
    table.kind name = .ok kind ∧ result.kind name = .ok kind := by
  intro name hname
  rcases List.mem_append.1 hname with hkey | hreduced
  · have hkinds := h.mapM_kind hstores
    obtain ⟨kind, -, hkind⟩ := mapM_ok_of_mem h.kinds hkey
    exact ⟨kind, hkind, (eq_of_mapM_eq_ok hkinds h.kinds name hkey).trans hkind⟩
  · have hnames := h.reducedNames
    rw [hcounting] at hnames
    refine ⟨.continuous, continuous_of_reducedColumns hnames name hreduced, ?_⟩
    rw [← List.map_fst_zip (Nat.le_of_eq hstores.length.symm)] at hreduced
    obtain ⟨e, he, rfl⟩ := List.mem_map.1 hreduced
    exact Table.kind_of_label (f := numberField e)
      (hstores.fields ▸ List.mem_append_right _ (List.mem_map_of_mem he)) rfl

/-- **A run over a summary groups the summary in the same way.** -/
theorem again : (g.again columns).Of kit stat settings result mapping geometry layer := by
  have hkind : ∀ c name, mapping.column? c = some name → ∃ kind,
      table.kind name = .ok kind ∧ result.kind name = .ok kind := fun c name hc =>
    h.exists_kind hstores hcounting name (h.mem_iff.2 ⟨c, hc⟩)
  have hlisted : ∀ e ∈ mapping.columns, result.kind e.2 = table.kind e.2 := by
    intro e he
    obtain ⟨kind, hkind, hkind'⟩ := hkind e.1 e.2 (Mapping.mem_columns.1 he)
    rw [hkind, hkind']
  have hsame : SameAxes table result mapping mapping := by
    refine ⟨fun a => rfl, fun a name ha => ?_⟩
    obtain ⟨kind, hkind, hkind'⟩ := hkind a.channel name ha
    rw [Table.kind_eq_ok.1 hkind, Table.kind_eq_ok.1 hkind']
  -- the kinds decide which axis is reduced, which columns divide the rows, and which are reduced
  have hgroups : ∀ other, groupColumns result mapping other = groupColumns table mapping other := by
    intro other
    unfold groupColumns
    refine foldlM_congr (fun keys e he => ?_) []
    rw [hlisted e he]
  refine ⟨hstores.height.symm, ?_, h.allSeries_names hstores, h.mapM_kind hstores, ?_,
    hstores.allSeries_reducedNames, h.reduce⟩
  · obtain ⟨along, value, others, halong, hvalue, hothers, hnames⟩ := h.names
    exact ⟨along, value, others, hsame.valueAxis_eq_ok_iff.2 halong, hvalue,
      (hgroups value).trans hothers, hnames⟩
  · refine Eq.trans ?_ h.reducedNames
    unfold reducedColumns
    refine foldlM_congr (fun reduced e he => ?_) []
    rw [hlisted e he]
    rfl

end Of

end Grouping

/-! ### Running a summary again -/

/-- A reduction keeps a column if its cells, each of them reduced by itself, are stored as cells
equal to them. -/
def Keeps (reduce : Aggregator) (column : Column) : Prop :=
  ∃ results, column.cells.mapM (fun c => reduce ⟨column.type, [c]⟩) = .ok results ∧
    (Grouping.reducedColumn column.type results).cells.map Cell.key = column.cells.map Cell.key

/-- The cells of a column that is fixed are their own results. -/
theorem mapM_of_fixes {reduce : Aggregator} {column : Column} (h : Fixes reduce column) :
    column.cells.mapM (fun c => reduce ⟨column.type, [c]⟩) = .ok column.cells := by
  have hsteps : column.cells.mapM (fun c => reduce ⟨column.type, [c]⟩) =
      column.cells.mapM (Except.ok : Cell → Except Fault Cell) := mapM_congr h
  rw [hsteps]
  exact List.mapM_pure.trans (congrArg Except.ok (List.map_id _))

namespace Grouping

/-- What is stored as results is stored as such again. -/
theorem IsResult.stored {reduce : Aggregator} {column : Column} (h : IsResult reduce column) :
    reducedColumn column.type column.cells = column := by
  obtain ⟨type, results, -, rfl⟩ := h
  exact reducedColumn_reducedColumn type results

/-- A column of results that is fixed is kept. -/
theorem IsResult.keeps {reduce : Aggregator} {column : Column} (h : IsResult reduce column)
    (hfixes : Fixes reduce column) : Keeps reduce column :=
  ⟨column.cells, mapM_of_fixes hfixes, by rw [h.stored]⟩

/-- Without keys there is one group. -/
theorem height_again (h : (g.again columns).keys.isEmpty = true) :
    (g.again columns).height = 1 := by
  have hkeys : g.keys.isEmpty = true :=
    List.isEmpty_iff.2 (List.map_eq_nil_iff.1 (List.isEmpty_iff.1 h))
  have hgroups : g.groups = [[]] := Group.columnKeys_of_isEmpty hkeys
  exact congrArg List.length hgroups

/-- The first row of a group has its key. -/
theorem rowKey_start (hkeys : g.keys.isEmpty = false) {key : List CellKey} (h : key ∈ g.groups) :
    rowKey g.keys (g.start key) = key := by
  obtain ⟨i, is, his⟩ := List.exists_cons_of_ne_nil (g.rows_ne_nil hkeys h)
  have hi : i ∈ g.rows key := his ▸ List.mem_cons_self
  have hstart : g.start key = i := congrArg (fun is => is.headD 0) his
  rw [hstart]
  exact of_decide_eq_true (List.mem_filter.1 hi).2

/-- **The rows of a summary have different keys** if the keys are stored as they are. -/
theorem apart_of_keepsKeys (h : ∀ column ∈ g.keys, g.KeepsKeys column) :
    (g.again columns).Apart := by
  cases hkeys : g.keys.isEmpty with
  | true =>
    refine apart_of_length_groups ?_
    have hkeys' : (g.again columns).keys.isEmpty = true := by
      change (g.keys.map g.keyColumn).isEmpty = true
      rw [List.isEmpty_iff.1 hkeys]
      rfl
    rw [height_again hkeys']
    exact congrArg List.length (Group.columnKeys_of_isEmpty hkeys')
  | false =>
    -- the cells of a row are compared by the key of its group
    have hrows : (List.range g.groups.length).map (rowKey (g.keys.map g.keyColumn)) = g.groups := by
      refine List.ext_getElem (by rw [List.length_map, List.length_range]) fun i hi hi' => ?_
      rw [List.getElem_map, List.getElem_range]
      refine Eq.trans ?_ (rowKey_start hkeys (List.getElem_mem hi'))
      unfold rowKey
      rw [List.map_map]
      refine List.map_congr_left fun column hcolumn => ?_
      dsimp only [Function.comp_apply]
      rw [keyColumn_of_keepsKeys (h column hcolumn)]
      unfold startCells
      rw [List.getD_eq_getElem?_getD, List.getElem?_map, List.getElem?_eq_getElem hi']
      rfl
    change ((List.range g.groups.length).map (rowKey (g.keys.map g.keyColumn))).Nodup
    rw [hrows]
    exact Group.nodup_columnKeys

section Apart

variable (hapart : (g.again columns).Apart)

include hapart

/-- The keys of a summary are the keys of its summary. -/
theorem keyFields_again : (g.again columns).keyFields = g.keyFields := by
  -- every row starts a group of its own, with the cells that are stored in it
  have hsame : ∀ column, (g.again columns).keyColumn (g.keyColumn column) = g.keyColumn column := by
    intro column
    obtain ⟨hkept, htype⟩ := g.keyColumn_stored column
    rw [keyColumn_of_apart hapart height_again (g.length_keyColumn column) hkept, htype]
  unfold keyFields
  change (g.names.zip ((g.keys.map g.keyColumn).zip g.kinds)).map _ = _
  rw [List.zip_map_left, List.zip_map_right, List.map_map]
  refine List.map_congr_left fun e _ => ?_
  exact congrArg (Field.mk _ _) (hsame e.2.1)

/-- What a column of results is reduced to is made of what its cells are reduced to. -/
theorem exists_of_isReduced {e : String × Column} {f : Field}
    (hlength : e.2.cells.length = g.groups.length) (h : (g.again columns).IsReduced e f) :
    ∃ results, e.2.cells.mapM (fun c => g.reduce ⟨e.2.type, [c]⟩) = .ok results ∧
      f = numberField (e.1, reducedColumn e.2.type results) := by
  obtain ⟨results, hresults, hf⟩ := h
  rw [mapM_of_apart hapart height_again hlength] at hresults
  exact ⟨results, hresults, hf⟩

/-- A column of the summary is the same in its summary exactly if it is kept. -/
theorem content_eq_iff {e : String × Column} {f : Field}
    (hlength : e.2.cells.length = g.groups.length) (h : (g.again columns).IsReduced e f) :
    f.content = (numberField e).content ↔ Keeps g.reduce e.2 := by
  obtain ⟨results, hresults, rfl⟩ := exists_of_isReduced hapart hlength h
  constructor
  · intro hcontent
    exact ⟨results, hresults, congrArg (fun c => c.2.2) hcontent⟩
  · rintro ⟨results', hresults', hkeys⟩
    cases hresults.symm.trans hresults'
    exact congrArg (fun keys => (Label.text e.1, ColumnKind.continuous, keys)) hkeys

theorem map_content_eq_iff {es : List (String × Column)} {fields : List Field}
    (hlength : ∀ e ∈ es, e.2.cells.length = g.groups.length)
    (h : List.Forall₂ (g.again columns).IsReduced es fields) :
    fields.map Field.content = (es.map numberField).map Field.content ↔
      ∀ e ∈ es, Keeps g.reduce e.2 := by
  induction h with
  | nil => exact ⟨fun _ e he => absurd he List.not_mem_nil, fun _ => rfl⟩
  | cons hreduced _ ih =>
    obtain ⟨hfirst, hrest⟩ := List.forall_mem_cons.1 hlength
    rw [List.map_cons, List.map_cons, List.map_cons, List.cons_eq_cons, List.forall_mem_cons,
      content_eq_iff hapart hfirst hreduced, ih hrest]

/-- Columns that are fixed are stored as they are. -/
theorem eq_numberFields {es : List (String × Column)} {fields : List Field}
    (hlength : ∀ e ∈ es, e.2.cells.length = g.groups.length)
    (hresults : ∀ e ∈ es, IsResult g.reduce e.2) (hfixes : ∀ e ∈ es, Fixes g.reduce e.2)
    (h : List.Forall₂ (g.again columns).IsReduced es fields) :
    fields = es.map numberField := by
  induction h with
  | nil => rfl
  | @cons e f es fields hreduced _ ih =>
    obtain ⟨hfirst, hrest⟩ := List.forall_mem_cons.1 hlength
    obtain ⟨hresult, hresults⟩ := List.forall_mem_cons.1 hresults
    obtain ⟨hfixed, hfixes⟩ := List.forall_mem_cons.1 hfixes
    obtain ⟨results, hmapM, rfl⟩ := exists_of_isReduced hapart hfirst hreduced
    cases (mapM_of_fixes hfixed).symm.trans hmapM
    rw [hresult.stored, ih hrest hresults hfixes]
    rfl

end Apart

/-- Groups are reduced if each of their parts can be. -/
theorem exists_reduced
    (h : ∀ key ∈ g.groups, ∀ column ∈ g.reduced, ∃ c, g.reduce (g.part column key) = .ok c) :
    ∃ results, g.Reduced results := by
  unfold Reduced
  rw [g.rowGroups_eq, List.mapM_map]
  refine exists_mapM fun key hkey => ?_
  have hparts : ∀ j type, (g.reduced.map Column.type)[j]? = some type →
      ∃ c, g.reduce (groupPart type j ((g.rowOf (g.start key)).key, (g.rows key).map g.rowOf)) =
        .ok c ∧ True := by
    intro j type hj
    rw [List.getElem?_map] at hj
    obtain ⟨column, hcolumn, rfl⟩ := Option.map_eq_some_iff.1 hj
    obtain ⟨c, hc⟩ := h key hkey column (List.mem_of_getElem? hcolumn)
    exact ⟨c, (congrArg g.reduce (groupPart_eq hcolumn key)).trans hc, trivial⟩
  obtain ⟨values, hvalues, -⟩ := exists_mapIdxM hparts
  exact ⟨_, bind_eq_ok.2 ⟨values, hvalues, rfl⟩⟩

section Repetition

variable (hof : g.Of kit stat settings table mapping geometry layer)
  (hcounting : stat.aggregator.same (.text "count") = false) (hstores : g.Stores result columns)

include hof hcounting hstores

/-- What comes of a summary that is summarized again. -/
theorem fields_of_again {again : Table}
    (h : summary kit stat settings result mapping geometry layer = .ok again) :
    again.height = (g.again columns).groups.length ∧ ∃ fields,
      again.fields = (g.again columns).keyFields ++ fields ∧
        List.Forall₂ (g.again columns).IsReduced (g.reducedNames.zip columns) fields := by
  obtain ⟨g', hof', hsummarizes⟩ := exists_grouping h
  obtain rfl := hof'.unique (hof.again hstores hcounting)
  exact ⟨hsummarizes.height, hsummarizes.fields⟩

/-- A summary can be summarized again if its rows have different keys and its columns are kept. -/
theorem exists_again (hkeyed : ∀ column ∈ g.keys, column.isKeyed = true)
    (hapart : (g.again columns).Apart) (hkeeps : ∀ column ∈ columns, Keeps g.reduce column) :
    ∃ again, summary kit stat settings result mapping geometry layer = .ok again := by
  refine exists_summary_iff.2 ⟨g.again columns, hof.again hstores hcounting, ?_, ?_⟩
  · intro column hcolumn
    obtain ⟨column, hkey, rfl⟩ := List.mem_map.1 hcolumn
    exact isKeyed_keyColumn (hkeyed column hkey)
  · refine exists_reduced fun key hkey column hcolumn => ?_
    obtain ⟨results, hresults, -⟩ := hkeeps column hcolumn
    have hparts := (mapM_of_apart hapart height_again
      (hstores.length_cells column hcolumn)).trans hresults
    obtain ⟨c, -, hc⟩ := mapM_ok_of_mem hparts hkey
    exact ⟨c, hc⟩

/-- **A summary of a summary is the same table** exactly if the rows of the summary have different
keys and its columns are kept. -/
theorem exists_same_iff (hkeyed : ∀ column ∈ g.keys, column.isKeyed = true) :
    (∃ again, summary kit stat settings result mapping geometry layer = .ok again ∧
        result.Same again) ↔
      (g.again columns).Apart ∧ ∀ column ∈ columns, Keeps g.reduce column := by
  have hlength := hstores.forall_zip.2 hstores.length_cells
  constructor
  · rintro ⟨again, h, hsame⟩
    obtain ⟨hheight, fields, hfields, hreduced⟩ := fields_of_again hof hcounting hstores h
    -- as many rows again means that no two of them fall into one group
    have hapart : (g.again columns).Apart := apart_of_length_groups <| calc
      (g.again columns).groups.length = again.height := hheight.symm
      _ = result.height := hsame.height
      _ = g.groups.length := hstores.height
    refine ⟨hapart, hstores.forall_zip.1 ((map_content_eq_iff hapart hlength hreduced).1 ?_)⟩
    have hcontents := hsame.fields
    rw [hfields, hstores.fields, keyFields_again hapart, List.map_append, List.map_append]
      at hcontents
    exact List.append_cancel_left hcontents
  · rintro ⟨hapart, hkeeps⟩
    obtain ⟨again, h⟩ := exists_again hof hcounting hstores hkeyed hapart hkeeps
    obtain ⟨hheight, fields, hfields, hreduced⟩ := fields_of_again hof hcounting hstores h
    refine ⟨again, h, ?_, ?_⟩
    · calc
        again.height = (g.again columns).groups.length := hheight
        _ = (g.again columns).height := hapart.length_groups height_again
        _ = result.height := hstores.height.symm
    · rw [hfields, hstores.fields, keyFields_again hapart, List.map_append, List.map_append,
        (map_content_eq_iff hapart hlength hreduced).2 (hstores.forall_zip.2 hkeeps)]

/-- Where columns are fixed, it is the very same table. -/
theorem summary_of_fixes (hkeyed : ∀ column ∈ g.keys, column.isKeyed = true)
    (hcomputed : result.computedBy = some StatKind.summary.name) (hapart : (g.again columns).Apart)
    (hfixes : ∀ column ∈ columns, Fixes g.reduce column) :
    summary kit stat settings result mapping geometry layer = .ok result := by
  obtain ⟨again, h⟩ := exists_again hof hcounting hstores hkeyed hapart fun column hcolumn =>
    (hstores.results column hcolumn).keeps (hfixes column hcolumn)
  obtain ⟨hheight, fields, hfields, hreduced⟩ := fields_of_again hof hcounting hstores h
  have hsame := eq_numberFields hapart (hstores.forall_zip.2 hstores.length_cells)
    (hstores.forall_zip.2 hstores.results) (hstores.forall_zip.2 hfixes) hreduced
  rw [h]
  obtain ⟨_, _, _, _, _, hrows⟩ := summary_eq_ok_iff.1 h
  have hcomputed' := (Table.ofRows_eq_ok_iff.1 hrows).2.2.2
  rw [hsame, keyFields_again hapart, ← hstores.fields] at hfields
  rw [hapart.length_groups height_again] at hheight
  exact congrArg Except.ok (Table.eq_of_fields hfields (hheight.trans hstores.height.symm)
    (hcomputed'.trans hcomputed.symm))

end Repetition

end Grouping

end Again

end Stat

end PlotGrammar
