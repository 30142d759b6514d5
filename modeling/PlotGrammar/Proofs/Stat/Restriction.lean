import PlotGrammar.Proofs.Stat.Sampling

/-!
# Some rows of a table

`Table.restrict` keeps some rows of a table, under the same columns of the same kinds and types. A
statistic of these rows alone finds the columns it found before.

* Kinds are looked up as before (`Table.kind_restrict`), and a column is that of the rows
  (`Table.series_restrict`). So the rows are divided by the same columns
  (`Stat.groupColumns_restrict`).
* The number that stands for a cell does not change with the rows around it. Texts and objects are
  read as integers or as doubles, as all cells of their column allow, but a cell comes to the same
  double either way (`Column.finiteFloats_eq`).
* So rows are observed alone as they are among others (`Stat.observations_restrict`), and a group
  has the same sample alone and among others (`Stat.Sampling.sample_part`).
-/

namespace PlotGrammar

namespace Column

/-- The cells of some rows. -/
def atRows (is : List Nat) (column : Column) : Column :=
  ⟨column.type, is.map fun i => column.cells.getD i .missing⟩

/-! ### The doubles of single cells -/

/-- The double in a cell, if it is finite. -/
def finiteOf (c : Cell) : Option Float :=
  if c.isFinite then c.toFloat? else none

/-- The reading of a cell that stands alone: texts and objects are read as doubles. -/
def readingAlone : ColumnType → Reading
  | .float | .int | .bool | .nullableInt => .kept
  | .time unit => .counted unit
  | .text | .object => .double

/-- The finite double that a cell of a column comes to. -/
def finiteFloat? (type : ColumnType) (c : Cell) : Option Float :=
  finiteOf (amountCell (readingAlone type) c)

/-- An integer comes to the double nearest to it, if there is one. -/
theorem finiteOf_amountCell_double {c : Cell} {i : Int} (h : amount? c = some (.int i)) :
    finiteOf (amountCell .double c) = Binary64.ofInt? i := by
  unfold amountCell
  dsimp only
  rw [h]
  change finiteOf (((Binary64.ofInt? i).map Cell.ofFloat).getD .missing) = Binary64.ofInt? i
  cases hx : Binary64.ofInt? i with
  | none => rfl
  | some x =>
    have hfinite := Binary64.isFinite_of_ofInt? hx
    have hnumber : Binary64.isNaN x = false := Binary64.isNaN_of_isFinite hfinite
    rw [Option.map_some, Option.getD_some]
    unfold Cell.ofFloat
    rw [hnumber, if_neg Bool.false_ne_true]
    exact if_pos hfinite

/-- Among truth values one stands for the double that it comes to alone. -/
theorem finiteOf_kept {c : Cell} (h : c.isBool = true) :
    finiteOf (amountCell .kept c) = finiteOf (amountCell .double c) := by
  cases c with
  | bool b =>
    rw [finiteOf_amountCell_double (i := if b then 1 else 0) rfl]
    rfl
  | _ => exact absurd h Bool.false_ne_true

/-- Among integers one stands for the double that it comes to alone. -/
theorem finiteOf_whole {c : Cell} (h : (wholeAmount? c).isSome = true) :
    finiteOf (amountCell .whole c) = finiteOf (amountCell .double c) := by
  unfold wholeAmount? at h
  split at h
  · next i hi =>
    rw [finiteOf_amountCell_double hi]
    unfold amountCell
    dsimp only
    rw [hi]
    rfl
  · exact absurd h Bool.false_ne_true

/-- **A cell comes to the same double whatever stands beside it.** -/
theorem finiteFloats_eq (column : Column) :
    column.finiteFloats = column.cells.map (finiteFloat? column.type) := by
  unfold finiteFloats amounts
  rw [List.map_map]
  change column.cells.map (fun c => finiteOf (amountCell column.reading c)) = _
  -- a column of mixed cells is read as its own cells ask, and the reading is lost on a finite value
  have hmixed : ∀ cells : List Cell, cells.map (fun c => finiteOf (amountCell
      (if cells.all Cell.isBool then .kept
        else if (cells.filterMap wholeAmount?).length = cells.length ∧
            Word.fit (cells.filterMap wholeAmount?) then .whole
        else .double) c)) = cells.map fun c => finiteOf (amountCell .double c) := by
    intro cells
    refine List.map_congr_left fun c hc => ?_
    split
    · next hbools => exact finiteOf_kept (List.all_eq_true.1 hbools c hc)
    · split
      · next hwholes => exact finiteOf_whole (List.filterMap_length_eq_length.1 hwholes.1 c hc)
      · rfl
  unfold reading finiteFloat?
  cases htype : column.type with
  | float | int | bool | nullableInt | time unit => rfl
  | text | object => exact hmixed column.cells

theorem cells_atRows (is : List Nat) (column : Column) (j : Nat) :
    (column.atRows is).cells.getD j .missing =
      ((is.map fun i => column.cells.getD i .missing)[j]?).getD .missing :=
  List.getD_eq_getElem?_getD

end Column

namespace Table

/-- The table of some rows, with all columns. -/
def restrict (t : Table) (is : List Nat) : Table where
  fields := t.fields.map fun f => { f with column := f.column.atRows is }
  height := is.length
  computedBy := t.computedBy
  uniform := by
    intro f hf
    obtain ⟨g, -, rfl⟩ := List.mem_map.1 hf
    exact List.length_map _
  distinct := by
    rw [List.map_map]
    exact t.distinct

variable (t : Table) (is : List Nat) (name : String)

theorem kind?_restrict : (t.restrict is).kind? name = t.kind? name := by
  unfold kind? restrict
  rw [List.find?_map, Option.map_map]
  rfl

theorem kind_restrict : (t.restrict is).kind name = t.kind name := by
  have habsent : (t.restrict is).absent name = t.absent name := by
    unfold absent names restrict
    rw [List.map_map]
    rfl
  unfold kind
  rw [t.kind?_restrict, habsent]

theorem column?_restrict :
    (t.restrict is).column? name = (t.column? name).map (Column.atRows is) := by
  unfold column? restrict
  rw [List.find?_map, Option.map_map, Option.map_map]
  rfl

theorem series_restrict :
    (t.restrict is).series name = (t.series name).map (Column.atRows is) := by
  unfold series
  rw [t.column?_restrict]
  cases t.column? name <;> rfl

end Table

namespace Stat

variable {table : Table} {is : List Nat}

theorem allSeries_restrict {names : List String} {columns : List Column}
    (h : allSeries table names = .ok columns) :
    allSeries (table.restrict is) names = .ok (columns.map (Column.atRows is)) := by
  unfold allSeries at h ⊢
  induction names generalizing columns with
  | nil =>
    cases h
    rfl
  | cons name names ih =>
    rw [List.mapM_cons] at h ⊢
    obtain ⟨column, hcolumn, h⟩ := bind_eq_ok.1 h
    obtain ⟨rest, hrest, h⟩ := bind_eq_ok.1 h
    cases h
    rw [table.series_restrict, hcolumn, ih hrest]
    rfl

/-- The columns that divide rows are a matter of names and kinds. -/
theorem groupColumns_restrict (mapping : Mapping) (other : String) :
    groupColumns (table.restrict is) mapping other = groupColumns table mapping other := by
  unfold groupColumns
  refine foldlM_congr (fun keys e _ => ?_) []
  rw [table.kind_restrict]

theorem sameAxes_restrict (table : Table) (is : List Nat) (mapping : Mapping) :
    SameAxes table (table.restrict is) mapping mapping where
  columns _ := rfl
  kinds _ name _ := table.kind?_restrict is name

/-- A row has the same value among others and alone. -/
theorem rowValue_atRows {column : Column} (h : ∀ i ∈ is, i < column.cells.length) {j i : Nat}
    (hj : is[j]? = some i) : rowValue (column.atRows is) j = rowValue column i := by
  have hi := List.getElem?_eq_getElem (h i (List.mem_of_getElem? hj))
  unfold rowValue
  rw [Column.finiteFloats_eq, Column.finiteFloats_eq, List.getD_eq_getElem?_getD,
    List.getD_eq_getElem?_getD, List.getElem?_map, List.getElem?_map]
  unfold Column.atRows
  dsimp only
  rw [List.getElem?_map, hj, Option.map_some, List.getD_eq_getElem?_getD, hi]
  rfl

/-- **Rows are observed alone as among others.** -/
theorem observations_restrict {column : Column} {keys : List Column}
    (h : ∀ i ∈ is, i < column.cells.length) :
    observations is.length (column.atRows is) (keys.map (Column.atRows is)) =
      (⟨is, column, keys⟩ : Sampling).observations := by
  -- a row of the restricted column is the row of the whole column it was taken from
  have hrow : ∀ j i, is[j]? = some i → observed? (column.atRows is)
      (keys.map (Column.atRows is)) j = observed? column keys i := by
    intro j i hj
    have hcell : ∀ k : Column, (k.atRows is).cells.getD j .missing = k.cells.getD i .missing := by
      intro k
      rw [Column.cells_atRows, List.getElem?_map, hj]
      rfl
    unfold observed?
    rw [rowValue_atRows h hj, List.map_map]
    refine congrArg (fun key => (rowValue column i).map fun v => (⟨key, v⟩ : Observation)) ?_
    exact List.map_congr_left fun k _ => hcell k
  rw [observations_eq (List.length_map _)]
  unfold Sampling.observations
  -- the rows are listed by their places, and then row by row
  have hrows : (List.range is.length).map (fun j => is.getD j 0) = is := map_getD_range rfl 0
  conv_rhs => rw [← hrows, List.filterMap_map]
  refine List.filterMap_congr fun j hj => hrow j _ ?_
  have hlt := List.mem_range.1 hj
  change is[j]? = some (is.getD j 0)
  rw [List.getD_eq_getElem?_getD, List.getElem?_eq_getElem hlt]
  rfl

/-! ### The rows of one group -/

namespace Sampling

variable (s : Sampling) (key : List CellKey)

/-- All rows of a group, those without a finite value among them. -/
def allRows : List Nat :=
  Group.rowsWith (rowKey s.keys) s.places key

/-- The rows of a group as what there is to divide. -/
def part : Sampling :=
  { s with places := s.allRows key }

theorem finiteRows_part : (s.part key).finiteRows = s.rows key := by
  unfold finiteRows part allRows rows finiteRows Group.rowsWith
  rw [List.filter_filter, List.filter_filter]
  exact List.filter_congr fun i _ => Bool.and_comm _ _

theorem rows_part : (s.part key).rows key = s.rows key := by
  have hkey : ∀ i ∈ s.rows key, decide (rowKey s.keys i = key) = true :=
    fun i hi => (List.mem_filter.1 hi).2
  change Group.rowsWith (rowKey s.keys) (s.part key).finiteRows key = s.rows key
  rw [s.finiteRows_part]
  exact List.filter_eq_self.2 hkey

/-- A group has the same sample alone and among others. -/
theorem sample_part : (s.part key).sample key = s.sample key := by
  unfold sample start
  rw [s.rows_part]
  rfl

variable {s key} (hkeys : s.keys.isEmpty = false)

include hkeys

/-- Alone, a group is the only one. -/
theorem groups_part_of_mem (h : key ∈ s.groups) : (s.part key).groups = [key] := by
  have hkey : ∀ i ∈ s.rows key, rowKey s.keys i = key :=
    fun i hi => of_decide_eq_true (List.mem_filter.1 hi).2
  unfold groups
  rw [s.finiteRows_part]
  exact (Group.columnKeys_of_not_isEmpty hkeys).trans
    (Group.keys_of_forall hkey (s.rows_ne_nil hkeys h))

/-- Rows without a finite value make no group. -/
theorem groups_part_of_not_mem (h : key ∉ s.groups) : (s.part key).groups = [] := by
  have hnone : s.rows key = [] := by
    refine List.eq_nil_iff_forall_not_mem.2 fun i hi => h ?_
    obtain ⟨hi, hkey⟩ := List.mem_filter.1 hi
    rw [← of_decide_eq_true hkey]
    exact Group.rowKey_mem_columnKeys hi
  unfold groups
  rw [s.finiteRows_part, hnone]
  exact Group.columnKeys_of_not_isEmpty hkeys

theorem mem_groups_part {g : List CellKey} (h : g ∈ (s.part key).groups) :
    g = key ∧ key ∈ s.groups := by
  by_cases hkey : key ∈ s.groups
  · rw [groups_part_of_mem hkeys hkey, List.mem_singleton] at h
    exact ⟨h, hkey⟩
  · rw [groups_part_of_not_mem hkeys hkey] at h
    exact absurd h List.not_mem_nil

/-- The samples of the rows of a group are among those of all rows. -/
theorem samples_part :
    samples (!s.keys.isEmpty) (s.part key).observations =
      (s.part key).groups.map s.sample := by
  refine (s.part key).samples_eq.trans (List.map_congr_left fun g hg => ?_)
  rw [(mem_groups_part hkeys hg).1]
  exact s.sample_part key

end Sampling

section Input

variable {stat : StatKind} {mapping : Mapping} {along : Axis} {layer : Option Int} {found : Input}
  {division : Division}

/-- The input that some rows are. -/
def Input.restrict (found : Input) (is : List Nat) : Input :=
  { found with column := found.column.atRows is }

/-- Some rows are an input as all rows are. -/
theorem input_restrict (hbound : (mapping.column? along.channel).isSome = true)
    (h : (input stat table mapping along layer).outcome = .ok found) :
    (input stat (table.restrict is) mapping along layer).outcome = .ok (found.restrict is) := by
  obtain ⟨hname, hcolumn, hkeys⟩ := input_eq_ok_iff.1 h
  refine input_eq_ok_iff.2 ⟨?_, ?_, ?_⟩
  · exact ((sameAxes_restrict table is mapping).continuousColumn_eq_ok_iff hbound).2 hname
  · change (table.restrict is).series found.name = .ok (found.column.atRows is)
    rw [table.series_restrict, hcolumn]
    rfl
  · rw [groupColumns_restrict]
    exact hkeys

/-- The rows of a group divide into the sample of this group, or into nothing if they have no finite
value. -/
theorem divide_part (hcolumn : table.series found.name = .ok found.column)
    (hdivision : found.divide table = .ok division) (hgrouped : found.keys ≠ [])
    (key : List CellKey) :
    let s := found.sampling table division.columns
    (found.restrict (s.allRows key)).divide (table.restrict (s.allRows key)) =
      .ok ⟨division.columns.map (Column.atRows (s.allRows key)), division.kinds,
        (s.part key).groups.map s.sample⟩ := by
  intro s
  obtain ⟨hcolumns, hkinds, hkeyed, -⟩ := divide_eq_ok_iff.1 hdivision
  have hlength := Table.length_of_series hcolumn
  have hempty := isEmpty_of_mapM hcolumns
  -- the rows of a group are rows of the table, so restriction loses none of their cells
  have hplaces : ∀ i ∈ s.allRows key, i < found.column.cells.length := by
    intro i hi
    rw [hlength]
    exact List.mem_range.1 (List.mem_filter.1 hi).1
  have hobserved : (found.restrict (s.allRows key)).observed (table.restrict (s.allRows key))
      (division.columns.map (Column.atRows (s.allRows key))) = (s.part key).observations :=
    observations_restrict hplaces
  refine divide_eq_ok_iff.2 ⟨allSeries_restrict hcolumns, ?_, ?_, ?_⟩
  -- restriction keeps the kinds
  · have hkind : (table.restrict (s.allRows key)).kind = table.kind :=
      funext (table.kind_restrict _)
    rw [hkind]
    exact hkinds
  · -- whatever is observed of some rows is observed of all
    intro r hr
    rw [hobserved] at hr
    obtain ⟨i, hi, hr⟩ := List.mem_filterMap.1 hr
    refine hkeyed r ?_
    unfold Input.observed
    rw [Stat.observations_eq hlength]
    exact List.mem_filterMap.2 ⟨i, (List.mem_filter.1 hi).1, hr⟩
  -- the samples of a group are those of the whole table that have its key
  · rw [hobserved]
    change _ = samples (!found.keys.isEmpty) _
    rw [← hempty]
    refine (Sampling.samples_part ?_).symm
    exact hempty.trans (List.isEmpty_eq_false_iff.2 hgrouped)

end Input

end Stat

end PlotGrammar
