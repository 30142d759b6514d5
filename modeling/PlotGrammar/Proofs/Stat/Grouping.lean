import PlotGrammar.Proofs.Stat.Samples
import PlotGrammar.Proofs.Table.Groups

/-!
# Summaries group and reduce

A summary divides the rows of a table by the cells of its key columns, and reduces the other columns
that are bound group by group.

* `Stat.Grouping` is what there is to summarize. Its groups come in the order of their first rows,
  and every row is in one of them (`Group.pairwise_starts`, `Group.existsUnique_columnKeys`).
* `Grouping.Summarizes` says of a table that it is the summary, column by column. The loop over the
  groups reduces all columns of a group before it turns to the next one; `Stat.mapM_of_reduced`
  reads the results of one column off it, and `Grouping.Reduced.summarizes` puts the columns
  together.
* `Stat.summary_groups_and_reduces` says so of every run. Counting counts each cell once
  (`Grouping.counts_of_count`).

A column has one type. So an integer among objects is stored as a double where a double or a missing
cell stands beside it, as a key (`Grouping.keyColumn`) and as a result (`Grouping.reducedColumn`). A
large one is then rounded (`Stat.key_stored_as_double`).
-/

namespace PlotGrammar

/-! ### Loops -/

section Loops

variable {ε α β : Type}

/-- What a run through a list that counts its steps gives is what its steps give, in place. -/
theorem getElem?_of_mapIdxM {f : Nat → α → Except ε β} {xs : List α} {ys : List β}
    (h : xs.mapIdxM f = .ok ys) {i : Nat} {a : α} (hi : xs[i]? = some a) :
    ∃ b, ys[i]? = some b ∧ f i a = .ok b := by
  -- what is gathered so far stays in front
  suffices hgo : ∀ acc : Array β, List.mapIdxM.go f xs acc = .ok ys →
      (∀ (j : Nat) b, acc.toList[j]? = some b → ys[j]? = some b) ∧
        ∀ (i : Nat) a, xs[i]? = some a →
          ∃ b, ys[acc.size + i]? = some b ∧ f (acc.size + i) a = .ok b by
    obtain ⟨b, hb, hf⟩ := (hgo #[] h).2 i a hi
    rw [Array.size_empty, Nat.zero_add] at hb hf
    exact ⟨b, hb, hf⟩
  clear h hi
  induction xs with
  | nil =>
    intro acc h
    cases h
    exact ⟨fun j b hb => hb, fun i a hi => absurd hi (by simp)⟩
  | cons x xs ih =>
    intro acc h
    unfold List.mapIdxM.go at h
    obtain ⟨b, hb, h⟩ := bind_eq_ok.1 h
    obtain ⟨hfront, hrest⟩ := ih (acc.push b) h
    rw [Array.toList_push] at hfront
    refine ⟨fun j c hc => hfront j c ?_, fun i a hi => ?_⟩
    · rw [List.getElem?_append_left (List.getElem?_eq_some_iff.1 hc).1]
      exact hc
    -- the step at hand pushes its result, and the steps after it count on from there
    · cases i with
      | zero =>
        cases hi
        refine ⟨b, hfront acc.size b ?_, hb⟩
        rw [List.getElem?_append_right (Nat.le_of_eq Array.length_toList),
          Array.length_toList, Nat.sub_self]
        rfl
      | succ i =>
        have hstep := hrest i a hi
        rw [Array.size_push, Nat.add_assoc, Nat.add_comm 1 i] at hstep
        exact hstep

/-- Lists are related if what is made of an element, with its place, is related to it. -/
theorem forall₂_map_mapIdx {γ δ : Type} {R : α → δ → Prop} {k : α → β} {f : Nat → β → γ} {g : γ → δ}
    {xs : List α} (h : ∀ i a, xs[i]? = some a → R a (g (f i (k a)))) :
    List.Forall₂ R xs (((xs.map k).mapIdx f).map g) := by
  refine List.forall₂_iff_get.2 ⟨by simp, fun i hi _ => ?_⟩
  rw [List.get_eq_getElem, List.get_eq_getElem, List.getElem_map, List.getElem_mapIdx,
    List.getElem_map]
  exact h i _ (List.getElem?_eq_getElem hi)

end Loops

/-- Integers alone have no doubles among them. -/
theorem ColumnType.ofCells_ne_float {cells : List Cell} (h : ∀ c ∈ cells, c.isInt = true) :
    ofCells cells ≠ .float := by
  intro hfloat
  obtain ⟨-, -, c, hc, hother⟩ := ofCells_eq_float hfloat
  exact Bool.false_ne_true (hother.symm.trans (h c hc))

/-- Integers alone are not stored as doubles, unless there are none. -/
theorem Column.eq_nil_of_type_ofResults {type : ColumnType} {cells : List Cell}
    (h : ∀ c ∈ cells, c.isInt = true) (htype : (ofResults type cells).type = .float) :
    cells = [] := by
  unfold ofResults at htype
  split at htype
  · cases htype
  · unfold ofCells at htype
    split at htype
    · next hfloat => exact absurd hfloat (ColumnType.ofCells_ne_float h)
    · split at htype
      · next hmissing =>
        refine List.eq_nil_iff_forall_not_mem.2 fun c hc => ?_
        have hnone := List.all_eq_true.1 hmissing c hc
        have hint := h c hc
        cases c with
        | int i => exact Bool.false_ne_true hnone
        | _ => exact Bool.false_ne_true hint
      · cases htype
    · next hfloat _ => exact absurd htype hfloat

namespace Stat

/-! ### Groupings -/

/-- What there is to summarize: the columns of the keys, each under its name and with its kind, and
the columns that are reduced. -/
structure Grouping where
  height : Nat
  names : List String
  keys : List Column
  kinds : List ColumnKind
  reducedNames : List String
  reduced : List Column
  reduce : Aggregator

namespace Grouping

/-- The groups: one for each key, or one of all rows if there are no keys. -/
def groups (g : Grouping) : List (List CellKey) :=
  Group.columnKeys g.keys (List.range g.height)

/-- The rows of a group, in their order. -/
def rows (g : Grouping) (key : List CellKey) : List Nat :=
  Group.rowsWith (rowKey g.keys) (List.range g.height) key

/-- The first row of a group. -/
def start (g : Grouping) (key : List CellKey) : Nat :=
  (g.rows key).headD 0

/-- The cells of a column in the rows of a group. -/
def part (g : Grouping) (column : Column) (key : List CellKey) : Column :=
  ⟨column.type, (g.rows key).map fun i => column.cells.getD i .missing⟩

/-- A key column of a summary: the cells of the first row of each group. Integers among objects are
stored as doubles if all keys are numbers, not all of them integers, or missing. -/
def keyColumn (g : Grouping) (column : Column) : Column :=
  let cells := g.groups.map fun key => column.cells.getD (g.start key) .missing
  let stored :=
    if column.type = .object ∧ ColumnType.ofCells cells = .float then cells.map Column.floatCell
    else cells
  ⟨keyType column stored, stored⟩

/-- The key columns of a summary, under their names and with their kinds. -/
def keyFields (g : Grouping) : List Field :=
  (g.names.zip (g.keys.zip g.kinds)).map fun e => ⟨.text e.1, e.2.2, g.keyColumn e.2.1⟩

/-- The results of a column as a summary stores them: integers are stored as doubles if there is a
double or a missing result among them. -/
def reducedColumn (type : ColumnType) (results : List Cell) : Column :=
  let stored :=
    if (Column.ofResults type results).type = .float then results.map (Column.storeCell .float)
    else results
  ⟨(Column.ofResults type stored).type, stored⟩

/-- Whether a field of a summary holds what the groups of a column are reduced to. -/
def IsReduced (g : Grouping) (e : String × Column) (f : Field) : Prop :=
  ∃ results, g.groups.mapM (fun key => g.reduce (g.part e.2 key)) = .ok results ∧
    f = ⟨.text e.1, .continuous, reducedColumn e.2.type results⟩

/-- A summary has a row for each group. Its columns are those of the keys and then those that are
reduced. -/
structure Summarizes (g : Grouping) (result : Table) : Prop where
  height : result.height = g.groups.length
  fields : ∃ reducedFields, result.fields = g.keyFields ++ reducedFields ∧
    List.Forall₂ g.IsReduced (g.reducedNames.zip g.reduced) reducedFields

/-- What a run of a summary groups and reduces. -/
structure Of (g : Grouping) (kit : Toolkit) (stat : StatConfig) (settings : Settings)
    (table : Table) (mapping : Mapping) (geometry : Value) (layer : Option Int) : Prop where
  height : g.height = table.height
  /-- The keys are the column across and the columns that divide the rows. -/
  names : ∃ along value others, valueAxis settings.axis table mapping geometry = .ok along ∧
    mapping.column? along.channel = some value ∧
    groupColumns table mapping value = .ok others ∧
    g.names = (mapping.column? along.other.channel).toList ++
      others.filter fun k => !(mapping.column? along.other.channel).toList.contains k
  keys : allSeries table g.names = .ok g.keys
  kinds : g.names.mapM table.kind = .ok g.kinds
  /-- All other columns that are bound are reduced. -/
  reducedNames : reducedColumns (stat.aggregator.same (.text "count")) table mapping g.names layer =
    .ok g.reducedNames
  reduced : allSeries table g.reducedNames = .ok g.reduced
  reduce : stat.reduction kit layer = .ok g.reduce

/-! ### Rows and groups -/

variable (g : Grouping)

/-- A row as a summary sees it. -/
def rowOf (i : Nat) : KeyedRow :=
  ⟨g.keys.map fun column => column.cells.getD i .missing,
    g.reduced.map fun column => column.cells.getD i .missing⟩

theorem keyedRows_eq : keyedRows g.height g.keys g.reduced = (List.range g.height).map g.rowOf := by
  unfold keyedRows Table.rowsOf
  rw [List.zipWith_map, List.zipWith_self]
  refine List.map_congr_left fun i _ => ?_
  unfold rowOf
  rw [List.map_map, List.map_map]
  rfl

theorem keyOf_rowOf (i : Nat) : keyOf (g.rowOf i).key = rowKey g.keys i :=
  List.map_map

/-- A group that is no group of all rows has a row. -/
theorem rows_ne_nil {key : List CellKey} (hkeys : g.keys.isEmpty = false) (h : key ∈ g.groups) :
    g.rows key ≠ [] := by
  unfold groups at h
  rw [Group.columnKeys_of_not_isEmpty hkeys] at h
  obtain ⟨i, hi, hkey⟩ := Group.mem_keys.1 h
  exact List.ne_nil_of_mem (List.mem_filter.2 ⟨hi, decide_eq_true hkey⟩)

/-- The groups of a summary are the groups of its rows, each under the cells of its first row. -/
theorem rowGroups_eq :
    rowGroups (!g.keys.isEmpty) (keyedRows g.height g.keys g.reduced) =
      g.groups.map fun key => ((g.rowOf (g.start key)).key, (g.rows key).map g.rowOf) := by
  rw [keyedRows_eq]
  unfold rowGroups
  cases hkeys : g.keys.isEmpty with
  -- without keys all rows are one group, under the empty key
  | true =>
    have hall : g.rows [] = List.range g.height := Group.rowsWith_of_isEmpty hkeys
    have hgroups : g.groups = [[]] := Group.columnKeys_of_isEmpty hkeys
    have hkey : ∀ i, (g.rowOf i).key = [] := by
      intro i
      unfold rowOf
      rw [List.isEmpty_iff.1 hkeys]
      rfl
    rw [hgroups, List.map_singleton, hall, hkey]
    rfl
  | false =>
    have hgroups : g.groups = Group.keys (rowKey g.keys) (List.range g.height) :=
      Group.columnKeys_of_not_isEmpty hkeys
    -- rows are told apart by the same keys, whether as rows or as places
    have hmap : (List.range g.height).map ((fun r : KeyedRow => keyOf r.key) ∘ g.rowOf) =
        (List.range g.height).map (rowKey g.keys) :=
      List.map_congr_left fun i _ => g.keyOf_rowOf i
    have hsame : Group.keys (fun r : KeyedRow => keyOf r.key) ((List.range g.height).map g.rowOf) =
        g.groups := by
      rw [hgroups]
      unfold Group.keys
      rw [List.map_map, hmap]
    have hrows : ∀ key, Group.rowsWith (fun r : KeyedRow => keyOf r.key)
        ((List.range g.height).map g.rowOf) key = (g.rows key).map g.rowOf := by
      intro key
      unfold Group.rowsWith rows
      rw [List.filter_map]
      refine congrArg (List.map g.rowOf) (List.filter_congr fun i _ => ?_)
      change decide (keyOf (g.rowOf i).key = key) = _
      rw [g.keyOf_rowOf]
    -- no group is dropped, for each has a first row
    unfold Group.of
    rw [Bool.not_false, if_pos rfl, hsame, List.filterMap_map]
    refine (List.filterMap_congr fun key hkey => ?_).trans (congrFun List.filterMap_eq_map _)
    obtain ⟨i, is, his⟩ := List.exists_cons_of_ne_nil (g.rows_ne_nil hkeys hkey)
    have hstart : g.start key = i := congrArg (fun is => is.headD 0) his
    dsimp only [Function.comp_apply]
    rw [hrows, hstart, his]
    rfl

end Grouping

/-! ### Results -/

section Results

variable {reduce : Aggregator} {types : List ColumnType} {type : ColumnType} {j : Nat}
  {groups : List (List Cell × List KeyedRow)} {results : List SummaryRow}

/-- The cells of a group in one column. -/
def groupPart (type : ColumnType) (j : Nat) (e : List Cell × List KeyedRow) : Column :=
  ⟨type, e.2.map fun r => r.cells.getD j .missing⟩

/-- The results of one column. -/
def resultsOf (j : Nat) (results : List SummaryRow) : List Cell :=
  results.map fun r => r.values.getD j .missing

/-- A group is reduced column by column. -/
theorem reduceGroup_eq_ok {e : List Cell × List KeyedRow} {result : SummaryRow}
    (h : reduceGroup reduce types e = .ok result) :
    result.key = e.1 ∧ ∀ {j type}, types[j]? = some type →
      ∃ c, result.values[j]? = some c ∧ reduce (groupPart type j e) = .ok c := by
  obtain ⟨values, hvalues, h⟩ := bind_eq_ok.1 h
  cases h
  exact ⟨rfl, fun hj => getElem?_of_mapIdxM hvalues hj⟩

theorem map_key_of_reduced (h : groups.mapM (reduceGroup reduce types) = .ok results) :
    results.map SummaryRow.key = groups.map Prod.fst := by
  induction groups generalizing results with
  | nil =>
    cases h
    rfl
  | cons e groups ih =>
    rw [List.mapM_cons] at h
    obtain ⟨result, hresult, h⟩ := bind_eq_ok.1 h
    obtain ⟨rest, hrest, h⟩ := bind_eq_ok.1 h
    cases h
    rw [List.map_cons, List.map_cons, (reduceGroup_eq_ok hresult).1, ih hrest]

/-- The results of a column are what the groups are reduced to, one after the other. -/
theorem mapM_of_reduced (h : groups.mapM (reduceGroup reduce types) = .ok results)
    (hj : types[j]? = some type) :
    groups.mapM (fun e => reduce (groupPart type j e)) = .ok (resultsOf j results) ∧
      ∀ r ∈ results, ∃ c, r.values[j]? = some c := by
  induction groups generalizing results with
  | nil =>
    cases h
    exact ⟨rfl, fun r hr => absurd hr List.not_mem_nil⟩
  -- one group after the other: the value at place `j` of a row is what its group reduced to
  | cons e groups ih =>
    rw [List.mapM_cons] at h
    obtain ⟨result, hresult, h⟩ := bind_eq_ok.1 h
    obtain ⟨rest, hrest, h⟩ := bind_eq_ok.1 h
    cases h
    obtain ⟨c, hc, hreduce⟩ := (reduceGroup_eq_ok hresult).2 hj
    obtain ⟨hmapM, hvalues⟩ := ih hrest
    refine ⟨?_, fun r hr => ?_⟩
    · unfold resultsOf
      rw [List.mapM_cons, hreduce, hmapM, List.map_cons, List.getD_eq_getElem?_getD, hc]
      rfl
    · rcases List.mem_cons.1 hr with rfl | hr
      · exact ⟨c, hc⟩
      · exact hvalues r hr

theorem map_key_settle (types : List ColumnType) (results : List SummaryRow) :
    (settle types results).map SummaryRow.key = results.map SummaryRow.key :=
  List.map_map

/-- Results are stored column by column. -/
theorem resultsOf_settle (hj : types[j]? = some type)
    (hvalues : ∀ r ∈ results, ∃ c, r.values[j]? = some c) :
    resultsOf j (settle types results) =
      (resultsOf j results).map
        (Column.storeCell (Column.ofResults type (resultsOf j results)).type) := by
  unfold settle resultsOf
  rw [List.map_map, List.map_map]
  refine List.map_congr_left fun r hr => ?_
  obtain ⟨c, hc⟩ := hvalues r hr
  dsimp only [Function.comp_apply]
  rw [List.getD_eq_getElem?_getD, List.getD_eq_getElem?_getD, List.getElem?_zipWith,
    List.getElem?_mapIdx, hj, hc]
  rfl

/-- Only in a column of doubles a result is stored differently. -/
theorem map_storeCell (type : ColumnType) (cells : List Cell) :
    cells.map (Column.storeCell type) =
      if type = .float then cells.map (Column.storeCell .float) else cells := by
  split
  · next h => rw [h]
  · next h =>
    refine (List.map_congr_left fun c _ => ?_).trans (List.map_id cells)
    unfold Column.storeCell
    split
    · exact absurd rfl h
    · rfl

/-- Only among objects that become doubles a key is stored differently. -/
theorem map_cell_ofColumn (column : Column) (cells : List Cell) :
    cells.map (KeyStore.ofColumn KeyStore.ofNumbers column cells).cell =
      if column.type = .object ∧ ColumnType.ofCells cells = .float then cells.map Column.floatCell
      else cells := by
  unfold KeyStore.ofColumn KeyStore.ofNumbers
  by_cases hobject : column.type = .object
  · rw [if_pos hobject]
    by_cases hfloat : ColumnType.ofCells cells = .float
    · rw [if_pos ⟨hobject, hfloat⟩, hfloat]
      rfl
    · rw [if_neg fun h => hfloat h.2]
      split
      · next h => exact absurd h hfloat
      · exact List.map_id cells
  · rw [if_neg hobject, if_neg fun h => hobject h.1]
    exact List.map_id cells

end Results

namespace Grouping

section Summary

variable {g : Grouping} {results : List SummaryRow}

/-- What a summary computes from its groups before it stores it. -/
def Reduced (g : Grouping) (results : List SummaryRow) : Prop :=
  (rowGroups (!g.keys.isEmpty) (keyedRows g.height g.keys g.reduced)).mapM
    (reduceGroup g.reduce (g.reduced.map Column.type)) = .ok results

theorem Reduced.keys (h : g.Reduced results) :
    results.map SummaryRow.key = g.groups.map fun key => (g.rowOf (g.start key)).key := by
  rw [map_key_of_reduced h, g.rowGroups_eq, List.map_map]
  rfl

/-- The cells of a key column in the first rows of the groups. -/
theorem Reduced.keyCells (h : g.Reduced results) {i : Nat} {column : Column}
    (hi : g.keys[i]? = some column) :
    (results.map SummaryRow.key).map (fun key => key.getD i .missing) =
      g.groups.map fun key => column.cells.getD (g.start key) .missing := by
  rw [h.keys, List.map_map]
  refine List.map_congr_left fun key _ => ?_
  dsimp only [Function.comp_apply]
  unfold rowOf
  rw [List.getD_eq_getElem?_getD, List.getElem?_map, hi]
  rfl

/-- The cells of a group in one column are a part of the column. -/
theorem groupPart_eq {j : Nat} {column : Column} (hj : g.reduced[j]? = some column)
    (key : List CellKey) :
    groupPart column.type j ((g.rowOf (g.start key)).key, (g.rows key).map g.rowOf) =
      g.part column key := by
  refine congrArg (Column.mk column.type) ?_
  rw [List.map_map]
  refine List.map_congr_left fun i _ => ?_
  dsimp only [Function.comp_apply]
  unfold rowOf
  rw [List.getD_eq_getElem?_getD (l := g.reduced.map _), List.getElem?_map, hj]
  rfl

/-- The results of a column are its parts, reduced. -/
theorem Reduced.column (h : g.Reduced results) {j : Nat} {column : Column}
    (hj : g.reduced[j]? = some column) :
    g.groups.mapM (fun key => g.reduce (g.part column key)) = .ok (resultsOf j results) ∧
      ∀ r ∈ results, ∃ c, r.values[j]? = some c := by
  have htype : (g.reduced.map Column.type)[j]? = some column.type := by
    rw [List.getElem?_map, hj]
    rfl
  obtain ⟨hmapM, hvalues⟩ := mapM_of_reduced h htype
  refine ⟨?_, hvalues⟩
  rw [← hmapM, g.rowGroups_eq, List.mapM_map]
  congr 1
  funext key
  exact congrArg g.reduce (groupPart_eq hj key).symm

/-- The key columns that are computed are those of the groups. -/
theorem Reduced.keyFields (h : g.Reduced results) (types : List ColumnType) :
    (keyRules g.names g.keys g.kinds (keyStores KeyStore.ofNumbers g.keys
      (results.map SummaryRow.key)) SummaryRow.key).map (Table.Rule.field (settle types results)) =
        g.keyFields := by
  unfold keyRules Grouping.keyFields
  refine map_mapIdx fun i e hi => ?_
  have hcolumn : g.keys[i]? = some e.2.1 :=
    (List.getElem?_zip_eq_some.1 (List.getElem?_zip_eq_some.1 hi).2).1
  have hcells := h.keyCells hcolumn
  -- the store is chosen by the keys that came out, which are the cells at which groups start
  have hstore : (keyStores KeyStore.ofNumbers g.keys (results.map SummaryRow.key)).getD i .kept =
      KeyStore.ofColumn KeyStore.ofNumbers e.2.1
        (g.groups.map fun key => e.2.1.cells.getD (g.start key) .missing) := by
    unfold keyStores
    rw [List.getD_eq_getElem?_getD, List.getElem?_mapIdx, hcolumn, ← hcells]
    rfl
  -- settling the reduced cells of a row leaves its key alone
  have hstored : (settle types results).map (fun r =>
      ((keyStores KeyStore.ofNumbers g.keys (results.map SummaryRow.key)).getD i .kept).cell
        (r.key.getD i .missing)) = (g.keyColumn e.2.1).cells := by
    rw [hstore]
    refine Eq.trans ?_ (map_cell_ofColumn e.2.1 _)
    rw [← hcells, ← map_key_settle types, List.map_map, List.map_map]
    rfl
  unfold Table.Rule.field
  dsimp only
  rw [hstored]
  rfl

/-- The columns that are computed beside the keys hold what the groups are reduced to. -/
theorem Reduced.reducedFields (h : g.Reduced results) :
    List.Forall₂ g.IsReduced (g.reducedNames.zip g.reduced)
      (((g.reducedNames.zip (g.reduced.map Column.type)).mapIdx fun i e =>
        (⟨e.1, .continuous, fun cells => (Column.ofResults e.2 cells).type,
          fun r => r.values.getD i .missing⟩ : Table.Rule SummaryRow)).map
            (Table.Rule.field (settle (g.reduced.map Column.type) results))) := by
  rw [List.zip_map_right]
  refine forall₂_map_mapIdx fun j e hj => ?_
  have hcolumn : g.reduced[j]? = some e.2 := (List.getElem?_zip_eq_some.1 hj).2
  have htype : (g.reduced.map Column.type)[j]? = some e.2.type := by
    rw [List.getElem?_map, hcolumn]
    rfl
  -- a column is reduced group by group, then stored as its own type has it
  obtain ⟨hmapM, hvalues⟩ := h.column hcolumn
  refine ⟨_, hmapM, ?_⟩
  have hstored := (resultsOf_settle htype hvalues).trans (map_storeCell _ _)
  unfold resultsOf at hstored
  unfold Table.Rule.field reducedColumn resultsOf
  dsimp only [Function.comp_apply, Prod.map]
  rw [hstored]
  rfl

end Summary

section Counting

variable {g : Grouping}

/-- Integers that stand beside no other results stay as they are. -/
theorem cells_reducedColumn_int (type : ColumnType) {results : List Cell}
    (h : ∀ c ∈ results, c.isInt = true) : (reducedColumn type results).cells = results := by
  unfold reducedColumn
  dsimp only
  split
  · next hfloat =>
    rw [Column.eq_nil_of_type_ofResults h hfloat]
    rfl
  · rfl

/-- **Counts add up** to the number of cells that hold something. -/
theorem counts_of_count (hreduce : g.reduce = Aggregate.count) {column : Column}
    (hlength : column.cells.length = g.height) :
    ∃ counts : List Nat,
      g.groups.mapM (fun key => g.reduce (g.part column key)) =
        .ok (counts.map fun n : Nat => Cell.int n) ∧
      counts.sum = (Aggregate.present column).length := by
  -- a group is counted by the places of its rows whose cell is there, and the groups divide the
  -- rows
  let holds (i : Nat) : Bool := !(column.cells.getD i .missing).isMissing
  have hcount : ∀ key, g.reduce (g.part column key) = .ok (.int ((g.rows key).countP holds)) := by
    intro key
    rw [hreduce]
    refine congrArg (fun n : Nat => Except.ok (Cell.int n)) ?_
    unfold Aggregate.present part
    rw [← List.countP_eq_length_filter, List.countP_map]
    rfl
  refine ⟨g.groups.map fun key => (g.rows key).countP holds, ?_, ?_⟩
  · rw [funext hcount, List.map_map]
    exact List.mapM_pure
  -- the sum over the groups is the count over all rows, as every row is in one group
  · refine (Group.sum_columnKeys holds).trans ?_
    unfold Aggregate.present
    rw [← List.countP_eq_length_filter]
    conv_rhs => rw [← map_getD_range hlength .missing]
    rw [List.countP_map]
    rfl

end Counting

end Grouping

/-! ### Runs -/

section Runs

variable {kit : Toolkit} {stat : StatConfig} {settings : Settings} {table result : Table}
  {mapping : Mapping} {geometry : Value} {layer : Option Int}

/-- Columns that are found are as long as their table is high. -/
theorem length_of_allSeries {names : List String} {columns : List Column}
    (h : allSeries table names = .ok columns) :
    ∀ column ∈ columns, column.cells.length = table.height := by
  intro column hcolumn
  obtain ⟨name, -, hseries⟩ := exists_of_mem_mapM h hcolumn
  exact Table.length_of_series hseries

/-- What is computed from reduced groups summarizes them. -/
theorem Grouping.Reduced.summarizes {g : Grouping} {results : List SummaryRow}
    (hresults : g.Reduced results) {computedBy : String}
    (h : Table.ofRows (summaryRules g.names g.keys g.kinds
      (keyStores KeyStore.ofNumbers g.keys (results.map SummaryRow.key)) g.reducedNames
      (g.reduced.map Column.type)) (settle (g.reduced.map Column.type) results) computedBy =
        .ok result) : g.Summarizes result := by
  obtain ⟨hfields, hheight⟩ := Table.fields_of_ofRows h
  refine ⟨?_, _, hfields.trans ?_, hresults.reducedFields⟩
  · have hkeys := congrArg List.length hresults.keys
    rw [List.length_map, List.length_map] at hkeys
    rw [hheight, ← hkeys]
    exact List.length_map _
  · unfold summaryRules
    rw [List.map_append, hresults.keyFields]

/-- A summary finds what there is to group, reduces it, and stores the results. -/
theorem summary_eq_ok_iff :
    summary kit stat settings table mapping geometry layer = .ok result ↔
      ∃ g : Grouping, g.Of kit stat settings table mapping geometry layer ∧
        (∀ column ∈ g.keys, column.isKeyed = true) ∧ ∃ results, g.Reduced results ∧
          Table.ofRows (summaryRules g.names g.keys g.kinds
            (keyStores KeyStore.ofNumbers g.keys (results.map SummaryRow.key)) g.reducedNames
            (g.reduced.map Column.type)) (settle (g.reduced.map Column.type) results)
              StatKind.summary.name = .ok result := by
  constructor
  -- every step of a run that succeeds is a field of the grouping
  · intro h
    unfold summary at h
    obtain ⟨along, halong, h⟩ := bind_eq_ok.1 h
    split at h
    · cases h
    next value hvalue =>
    obtain ⟨reduce, hreduce, h⟩ := bind_eq_ok.1 h
    obtain ⟨others, hothers, h⟩ := bind_eq_ok.1 h
    obtain ⟨reducedNames, hreducedNames, h⟩ := bind_eq_ok.1 h
    obtain ⟨keys, hkeys, h⟩ := bind_eq_ok.1 h
    obtain ⟨reduced, hreduced, h⟩ := bind_eq_ok.1 h
    extract_lets -underBinder afterKeys at h
    -- where a cell of a key column is no key, there is no summary
    split at h
    · next hkeyed =>
      dsimp -zeta only [afterKeys] at h
      obtain ⟨results, hresults, h⟩ := bind_eq_ok.1 h
      obtain ⟨kinds, hkinds, h⟩ := bind_eq_ok.1 h
      have hresults := mapError_eq_ok.1 hresults
      rw [← isEmpty_of_mapM hkeys] at hresults
      exact ⟨⟨table.height, _, keys, kinds, reducedNames, reduced, reduce⟩,
        ⟨rfl, ⟨along, value, others, halong, hvalue, hothers, rfl⟩, hkeys, hkinds, hreducedNames,
          hreduced, hreduce⟩, List.all_eq_true.1 hkeyed, results, hresults, h⟩
    · cases h
  -- and back: with the fields at hand each step has the result it is known to have
  · rintro ⟨⟨height, names, keys, kinds, reducedNames, reduced, reduce⟩, hof, hkeyed, results,
      hresults, h⟩
    obtain ⟨hheight, ⟨along, value, others, halong, hvalue, hothers, hnames⟩, hkeys, hkinds,
      hreducedNames, hreduced, hreduce⟩ := hof
    dsimp only at hheight hnames hkeys hkinds hreducedNames hreduced hreduce hkeyed h
    subst hheight hnames
    unfold Grouping.Reduced at hresults
    dsimp only at hresults
    rw [isEmpty_of_mapM hkeys] at hresults
    unfold summary
    refine bind_eq_ok.2 ⟨along, halong, ?_⟩
    rw [hvalue]
    refine bind_eq_ok.2 ⟨reduce, hreduce, bind_eq_ok.2 ⟨others, hothers,
      bind_eq_ok.2 ⟨reducedNames, hreducedNames, bind_eq_ok.2 ⟨keys, hkeys,
        bind_eq_ok.2 ⟨reduced, hreduced, ?_⟩⟩⟩⟩⟩
    rw [if_pos (List.all_eq_true.2 hkeyed)]
    exact bind_eq_ok.2 ⟨results, mapError_eq_ok.2 hresults, bind_eq_ok.2 ⟨kinds, hkinds, h⟩⟩

/-- A summary groups and reduces columns of its table. -/
theorem exists_grouping (h : summary kit stat settings table mapping geometry layer = .ok result) :
    ∃ g : Grouping, g.Of kit stat settings table mapping geometry layer ∧ g.Summarizes result := by
  obtain ⟨g, hof, -, results, hresults, h⟩ := summary_eq_ok_iff.1 h
  exact ⟨g, hof, hresults.summarizes h⟩

/-- **A summary groups and reduces.** It has a row for each group of rows with the same keys, in the
order of their first rows, and every row is in one group. A key column holds the cells of the first
rows, and a column that is reduced what its cells in the rows of each group are reduced to, in their
order. Counts add up to the number of cells that hold something. -/
theorem summary_groups_and_reduces {defaults : Defaults} (hkind : stat.kind = .summary)
    (h : (run kit stat defaults table mapping geometry layer).outcome = .ok result) :
    ∃ settings g, stat.settings kit layer = .ok settings ∧
      Grouping.Of g kit stat settings table mapping geometry layer ∧ g.Summarizes result ∧
      (∀ i < table.height, ∃! key, key ∈ g.groups ∧ i ∈ g.rows key) ∧
      (g.names ≠ [] → (∀ key ∈ g.groups, g.rows key ≠ []) ∧
        (g.groups.map g.start).Pairwise (· < ·)) ∧
      (stat.aggregator = .text "count" → kit.aggregator? (.text "count") = some Aggregate.count →
        ∀ column ∈ g.reduced, ∃ counts : List Nat,
          g.groups.mapM (fun key => g.reduce (g.part column key)) =
            .ok (counts.map fun n : Nat => Cell.int n) ∧
          (Grouping.reducedColumn column.type (counts.map fun n : Nat => Cell.int n)).cells =
            (counts.map fun n : Nat => Cell.int n) ∧
          counts.sum = (Aggregate.present column).length) := by
  unfold run at h
  obtain ⟨settings, hsettings, h⟩ := Logged.bind_eq_ok.1 h
  unfold runWith at h
  rw [hkind] at h
  obtain ⟨g, hof, hsummarizes⟩ := exists_grouping h
  refine ⟨settings, g, hsettings, hof, hsummarizes, ?_, ?_, ?_⟩
  -- every row falls into one group
  · intro i hi
    exact Group.existsUnique_columnKeys (List.mem_range.2 (hof.height ▸ hi))
  -- a group starts where its key is first met, so groups stand in the order of their first rows
  · intro hnames
    have hkeys : g.keys.isEmpty = false :=
      (isEmpty_of_mapM hof.keys).trans (List.isEmpty_eq_false_iff.2 hnames)
    refine ⟨fun key hkey => g.rows_ne_nil hkeys hkey, ?_⟩
    unfold Grouping.groups
    rw [Group.columnKeys_of_not_isEmpty hkeys]
    exact Group.pairwise_starts List.pairwise_lt_range
  -- what the name `count` stands for is the count of the cells that are there
  · intro hname hknown column hcolumn
    have hreduce : g.reduce = Aggregate.count := by
      have hof := hof.reduce
      unfold StatConfig.reduction at hof
      rw [hname, hknown] at hof
      exact (Except.ok.inj hof).symm
    obtain ⟨counts, hcounts, hsum⟩ := Grouping.counts_of_count hreduce
      ((length_of_allSeries hof.reduced column hcolumn).trans hof.height.symm)
    refine ⟨counts, hcounts, Grouping.cells_reducedColumn_int _ fun c hc => ?_, hsum⟩
    obtain ⟨n, -, rfl⟩ := List.mem_map.1 hc
    rfl

end Runs

/-- Amounts of days, one of them missing, and so are two of the days. -/
def ledgerFields : List Field :=
  [⟨.text "d", .discrete, ⟨.text, [.text "mon", .missing, .text "mon", .missing]⟩⟩,
    ⟨.text "v", .continuous, ⟨.nullableInt, [.int 3, .missing, .int 5, .int 8]⟩⟩]

/-- A table of four amounts. -/
def ledger : Table where
  fields := ledgerFields
  height := 4
  computedBy := none
  uniform := by decide
  distinct := by decide

/-- The days along the horizontal axis, and the amounts along the vertical one. -/
def ledgerMapping : Mapping :=
  (Mapping.empty.set .x (.column "d")).set .y (.column "v")

/-- The number of amounts of a day. -/
def ledgerStat : StatConfig :=
  { kind := .summary, aggregator := .text "count" }

/-- The amounts, counted day by day. -/
def ledgerRun : Logged Table :=
  run .standard ledgerStat {} ledger ledgerMapping .null none

/-- The amounts are counted day by day, the missing day being one of them. -/
theorem summary_counts_ledger :
    ∃ result settings g, ledgerRun.outcome = .ok result ∧
      Grouping.Of g .standard ledgerStat settings ledger ledgerMapping .null none ∧
      g.Summarizes result ∧ (∀ i < 4, ∃! key, key ∈ g.groups ∧ i ∈ g.rows key) ∧
      (g.groups.map g.start).Pairwise (· < ·) ∧
      ∀ column ∈ g.reduced, ∃ counts : List Nat,
        g.groups.mapM (fun key => g.reduce (g.part column key)) =
          .ok (counts.map fun n : Nat => Cell.int n) ∧
        counts.sum = (Aggregate.present column).length := by
  have hok : ledgerRun.outcome.toBool = true := by decide +kernel
  cases h : ledgerRun.outcome with
  | error e =>
    rw [h] at hok
    exact absurd hok Bool.false_ne_true
  | ok result =>
    obtain ⟨settings, g, -, hof, hsummarizes, hrows, horder, hcounts⟩ :=
      summary_groups_and_reduces rfl h
    have hnames : g.names ≠ [] := by
      obtain ⟨along, value, others, -, -, -, hnames⟩ := hof.names
      rw [hnames]
      -- whichever axis is reduced, the other one is bound to a column
      cases along <;> exact List.cons_ne_nil _ _
    refine ⟨result, settings, g, rfl, hof, hsummarizes, hrows, (horder hnames).2, ?_⟩
    intro column hcolumn
    obtain ⟨counts, hreduced, -, hsum⟩ := hcounts rfl rfl column hcolumn
    exact ⟨counts, hreduced, hsum⟩

/-- A large integer and a missing key, among objects. -/
def idFields : List Field :=
  [⟨.text "id", .discrete, ⟨.object, [.int 9007199254740993, .missing]⟩⟩,
    ⟨.text "n", .continuous, ⟨.int, [.int 1, .int 2]⟩⟩]

/-- A table of two keys. -/
def idTable : Table where
  fields := idFields
  height := 2
  computedBy := none
  uniform := by decide
  distinct := by decide

/-- The numbers, summed key by key. -/
def idRun : Logged Table :=
  run .standard { kind := .summary, aggregator := .text "sum" } {} idTable
    ((Mapping.empty.set .x (.column "id")).set .y (.column "n")) .null none

/-- Beside a missing key the integer is stored as a double, which is another number. -/
theorem key_stored_as_double :
    ∃ result, idRun.outcome = .ok result ∧
      (idTable.column? "id").map (fun c => c.cells.map Cell.key) =
        some [.whole 9007199254740993, .missing] ∧
      (result.column? "id").map (fun c => c.cells.map Cell.key) =
        some [.whole 9007199254740992, .missing] := by
  have hkeys : (idRun.outcome.toOption.bind fun result => result.column? "id").map
      (fun c => c.cells.map Cell.key) = some [.whole 9007199254740992, .missing] := by
    decide +kernel
  cases h : idRun.outcome with
  | error e =>
    rw [h] at hkeys
    cases hkeys
  | ok result =>
    rw [h] at hkeys
    exact ⟨result, rfl, by decide +kernel, hkeys⟩

end Stat

end PlotGrammar
