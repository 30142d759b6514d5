import PlotGrammar.Proofs.Stat.Parameters
import PlotGrammar.Proofs.Stat.Samples

/-!
# Summaries of inferred tables

A summary reduces columns group by group. The columns it is given are of continuous kind, unless it
only counts cells, and in a table whose kinds are inferred such a column holds numbers. Every
standard reduction has a result for those. So no fault ends a summary (`Stat.contained_summary`),
and its result is a table of keys (`Stat.keyed_of_summary`).
-/

namespace PlotGrammar

namespace StatConfig

variable {stat : StatConfig} {layer : Option Int}

/-- A name is no function. -/
theorem function?_eq_none {kit : Toolkit} {v : Value} (h : v.characters?.isSome = true) :
    kit.function? v = none := by
  cases v with
  | function => exact nomatch h
  | _ => rfl

/-- A reduction that is named is looked up. -/
theorem reduction_of_byName (h : stat.ByName) {kit : Toolkit} :
    stat.reduction kit layer =
      match kit.aggregator? stat.aggregator with
      | some reduce => .ok reduce
      | none => .error (.layer (.noAggregator stat.aggregator) layer none) := by
  unfold reduction Toolkit.reduction?
  rw [function?_eq_none h.aggregator]
  exact if_pos (isKey_of_characters h.aggregator)

theorem contained_reduction (h : stat.ByName) {kit : Toolkit} :
    Contained (stat.reduction kit layer) := by
  have hnamed : (LayerCause.noAggregator stat.aggregator).isWritable = true :=
    Value.isWritable_of_characters h.aggregator
  rw [reduction_of_byName h]
  split
  · exact .ok _
  · exact .error (Failure.reported_layer hnamed _ _)

/-- The cells of a column are what a reduction can take: they are numbers, or are only counted. -/
def Reducible (counting : Bool) (column : Column) : Prop :=
  counting = true ∨ column.HoldsNumbers

/-- The reduction of a summary has a result for every column it can take. -/
theorem exists_reduce (h : stat.ByName) {reduce : Aggregator}
    (hreduce : stat.reduction .standard layer = .ok reduce) {column : Column}
    (hcolumn : Reducible (stat.aggregator.same (.text "count")) column) :
    ∃ c, reduce column = .ok c ∧ c.isKeyed = true := by
  rw [reduction_of_byName h] at hreduce
  split at hreduce
  · next found hfound =>
    cases hreduce
    exact Toolkit.exists_standard h.aggregator hfound hcolumn
  · exact nomatch hreduce

end StatConfig

namespace Stat

open StatConfig (Reducible)

/-! ### The columns of a summary -/

section Columns

variable {table : Table} {mapping : Mapping} {layer : Option Int} {counting : Bool}
  {keys reduced : List String}
  (hpresent : ∀ c name, mapping.column? c = some name → table.contains name = true)

include hpresent

theorem contained_reducedColumns :
    Contained (reducedColumns counting table mapping keys layer) := by
  unfold reducedColumns
  refine .foldlM (fun reduced e he => ?_) _
  split
  · exact .pure _
  · split
    · exact .pure _
    · refine (failsOnly_kind (hpresent e.1 e.2 (Mapping.mem_columns.1 he))).bind fun kind _ => ?_
      exact .ite (fun _ => .pure _) fun _ => .throw (Failure.reported_layer rfl _ _)

/-- What is reduced is in the table, and continuous unless it is only counted. -/
theorem kind_of_reducedColumns
    (h : reducedColumns counting table mapping keys layer = .ok reduced) :
    ∀ name ∈ reduced, ∃ kind, table.kind name = .ok kind ∧
      (counting = true ∨ kind = .continuous) := by
  obtain ⟨step, hfold, hsteps⟩ := reducedColumns_steps h
  -- the invariant of the fold: what is collected so far has a kind that is allowed
  refine foldlM_induction (P := fun found => ∀ name ∈ found, ∃ kind,
    table.kind name = .ok kind ∧ (counting = true ∨ kind = .continuous))
    (fun found e found' he hfound hstep => ?_) (fun _ hk => absurd hk List.not_mem_nil) hfold
  rcases hsteps found e found' hstep with ⟨rfl, -⟩ | ⟨rfl, hallowed⟩
  · exact hfound
  · intro name hname
    rcases List.mem_append.1 hname with hname | hname
    · exact hfound name hname
    · -- what is only counted may be of any kind, and has one as it is bound
      obtain rfl := List.mem_singleton.1 hname
      obtain ⟨kind, hkind⟩ :=
        Table.exists_kind_of_contains (hpresent e.1 e.2 (Mapping.mem_columns.1 he))
      have hkind := Table.kind_eq_ok.2 hkind
      refine ⟨kind, hkind, hallowed.imp_right fun hcontinuous => ?_⟩
      exact Except.ok.inj (hkind.symm.trans hcontinuous)

end Columns

/-- The columns that are reduced can be. -/
theorem reducible_of_allSeries {table : Table} (ht : table.Inferred) {counting : Bool}
    {reduced : List String} {columns : List Column}
    (hkinds : ∀ name ∈ reduced, ∃ kind, table.kind name = .ok kind ∧
      (counting = true ∨ kind = .continuous))
    (h : allSeries table reduced = .ok columns) :
    ∀ column ∈ columns, Reducible counting column := by
  intro column hcolumn
  obtain ⟨name, hname, hseries⟩ := exists_of_mem_mapM h hcolumn
  obtain ⟨kind, hkind, hallowed⟩ := hkinds name hname
  refine hallowed.imp id fun hcontinuous => ?_
  obtain ⟨found, hfound, htype, hstored, -⟩ := ht.exists_column hkind
  cases hseries.symm.trans hfound
  exact ⟨htype.trans hcontinuous, fun c hc _ => hstored c hc⟩

/-! ### Rows and groups -/

section Rows

variable {height : Nat} {keys columns : List Column} {rows : List KeyedRow}

/-- The cells of a row under the key columns, and those it has in the other columns. -/
theorem exists_of_mem_keyedRows {r : KeyedRow} (hr : r ∈ keyedRows height keys columns) :
    r.key ∈ Table.rowsOf height (keys.map Column.cells) ∧
      r.cells ∈ Table.rowsOf height (columns.map Column.cells) := by
  unfold keyedRows at hr
  rw [← List.map_uncurry_zip_eq_zipWith] at hr
  obtain ⟨e, he, rfl⟩ := List.mem_map.1 hr
  exact List.of_mem_zip he

/-- A group is made of rows, and stands under the cells of one of them or under none. -/
theorem mem_rowGroups {grouped : Bool} {g : List Cell × List KeyedRow}
    (hg : g ∈ rowGroups grouped rows) :
    (∀ r ∈ g.2, r ∈ rows) ∧ ∀ c ∈ g.1, ∃ r ∈ rows, c ∈ r.key := by
  unfold rowGroups at hg
  split at hg
  · obtain ⟨group, hgroup, hsome⟩ := List.mem_filterMap.1 hg
    obtain ⟨r, hr, rfl⟩ := Option.map_eq_some_iff.1 hsome
    have hmem := (Group.exists_head?_of_mem hgroup).2
    exact ⟨hmem, fun c hc => ⟨r, hmem r (List.mem_of_mem_head? hr), hc⟩⟩
  · obtain rfl := List.mem_singleton.1 hg
    exact ⟨fun r hr => hr, fun c hc => absurd hc List.not_mem_nil⟩

/-- What a group has in a column that can be reduced can be reduced. -/
theorem reducible_of_rows {counting : Bool}
    (hcolumns : ∀ column ∈ columns, Reducible counting column)
    {group : List KeyedRow} (hgroup : ∀ r ∈ group, r ∈ keyedRows height keys columns)
    {i : Nat} {column : Column} (hi : columns[i]? = some column) :
    Reducible counting ⟨column.type, group.map fun r => r.cells.getD i .missing⟩ := by
  refine (hcolumns column (List.mem_of_getElem? hi)).imp id fun hnumbers => ⟨hnumbers.kind, ?_⟩
  intro c hc hm
  obtain ⟨r, hr, rfl⟩ := List.mem_map.1 hc
  -- the cell of the row is one of the column, unless it is missing
  obtain ⟨j, -, hcells⟩ := List.mem_map.1 (exists_of_mem_keyedRows (hgroup r hr)).2
  rw [← hcells, List.map_map, List.getD_eq_getElem?_getD, List.getElem?_map, hi] at hm ⊢
  dsimp only [Option.map_some, Option.getD_some, Function.comp_apply] at hm ⊢
  rw [List.getD_eq_getElem?_getD] at hm ⊢
  cases hj : column.cells[j]? with
  | none =>
    rw [hj] at hm
    exact nomatch hm
  | some c =>
    rw [hj] at hm
    exact hnumbers.stored c (List.mem_of_getElem? hj) hm

/-- A row of keys. -/
structure SummaryRow.IsKeyed (row : SummaryRow) : Prop where
  key : ∀ c ∈ row.key, c.isKeyed = true
  values : ∀ c ∈ row.values, c.isKeyed = true

/-- All groups are reduced to rows of keys. -/
theorem exists_rows {counting grouped : Bool} {reduce : Aggregator}
    (hreduce : ∀ column, Reducible counting column →
      ∃ c, reduce column = .ok c ∧ c.isKeyed = true)
    (hkeys : ∀ column ∈ keys, column.isKeyed = true)
    (hcolumns : ∀ column ∈ columns, Reducible counting column) :
    ∃ results, (rowGroups grouped (keyedRows height keys columns)).mapM
        (reduceGroup reduce (columns.map Column.type)) = .ok results ∧
      ∀ row ∈ results, row.IsKeyed := by
  have hgroup : ∀ g ∈ rowGroups grouped (keyedRows height keys columns), ∃ row,
      reduceGroup reduce (columns.map Column.type) g = .ok row ∧ row.IsKeyed := by
    intro g hg
    obtain ⟨hrows, hkey⟩ := mem_rowGroups hg
    -- the reduction of a group sees the cells that the rows have in one column
    have hcell : ∀ i type, (columns.map Column.type)[i]? = some type →
        ∃ c, reduce ⟨type, g.2.map fun r => r.cells.getD i .missing⟩ = .ok c ∧
          c.isKeyed = true := by
      intro i type hi
      rw [List.getElem?_map] at hi
      obtain ⟨column, hcolumn, rfl⟩ := Option.map_eq_some_iff.1 hi
      exact hreduce _ (reducible_of_rows hcolumns hrows hcolumn)
    obtain ⟨values, hvalues, hkeyed⟩ := exists_mapIdxM hcell
    refine ⟨⟨g.1, values⟩, bind_eq_ok.2 ⟨values, hvalues, rfl⟩, fun c hc => ?_, hkeyed⟩
    obtain ⟨r, hr, hmem⟩ := hkey c hc
    exact Table.isKeyed_of_mem_rowsOf hkeys (exists_of_mem_keyedRows hr).1 hmem
  obtain ⟨results, hresults⟩ := exists_mapM fun g hg => (hgroup g hg).imp fun _ h => h.1
  refine ⟨results, hresults, fun row hrow => ?_⟩
  obtain ⟨g, hg, hreduced⟩ := exists_of_mem_mapM hresults hrow
  obtain ⟨row', hrow', hkeyed⟩ := hgroup g hg
  cases hreduced.symm.trans hrow'
  exact hkeyed

/-- Storing the results of a column keeps them keys. -/
theorem isKeyed_of_mem_settle {types : List ColumnType} {results : List SummaryRow}
    (h : ∀ row ∈ results, row.IsKeyed) : ∀ row ∈ settle types results, row.IsKeyed := by
  intro row hrow
  obtain ⟨result, hresult, rfl⟩ := List.mem_map.1 hrow
  refine ⟨(h result hresult).key, fun c hc => ?_⟩
  rw [← List.map_uncurry_zip_eq_zipWith] at hc
  obtain ⟨e, he, rfl⟩ := List.mem_map.1 hc
  exact Column.isKeyed_storeCell _ ((h result hresult).values e.2 (List.of_mem_zip he).2)

end Rows

/-! ### Summaries -/

section Summary

variable {stat : StatConfig} {settings : Settings} {table t : Table} {mapping : Mapping}
  {layer : Option Int} {g : Geometry}
  (ht : table.Inferred) (hname : stat.ByName)
  (hpresent : ∀ c name, mapping.column? c = some name → table.contains name = true)

include hpresent

/-- The key columns of a summary are in the table. -/
theorem contains_of_summaryKeys {column : String} {others : List String}
    (h : groupColumns table mapping column = .ok others) (along : Axis) :
    ∀ k ∈ (mapping.column? along.other.channel).toList ++
        others.filter fun k => !(mapping.column? along.other.channel).toList.contains k,
      table.contains k = true := by
  intro k hk
  rcases List.mem_append.1 hk with hk | hk
  · exact hpresent _ k (Option.mem_toList.1 hk)
  · exact contains_of_groupColumns hpresent h k (List.mem_filter.1 hk).1

include ht hname

/-- No fault ends a summary. -/
theorem contained_summary :
    Contained (summary .standard stat settings table mapping (.member (.geometry g)) layer) := by
  unfold summary
  refine (failsOnly_valueAxis hpresent g settings.axis).bind fun along _ => ?_
  cases mapping.column? along.channel with
  | none => exact .throw (Failure.reported_layer rfl _ _)
  | some column =>
    refine (StatConfig.contained_reduction hname).bind fun reduce hreduce => ?_
    refine (failsOnly_groupColumns hpresent column).bind fun others hothers => ?_
    refine (contained_reducedColumns hpresent).bind fun reduced hreduced => ?_
    have hkinds := kind_of_reducedColumns hpresent hreduced
    have hcontains : ∀ name ∈ reduced, table.contains name = true := fun name hname => by
      obtain ⟨kind, hkind, -⟩ := hkinds name hname
      exact Table.contains_of_kind? (Table.kind_eq_ok.1 hkind)
    refine (FailsOnly.of_exists (exists_allSeries ht.toKeyed
      (contains_of_summaryKeys hpresent hothers along))).bind fun keyColumns hkeyColumns => ?_
    refine (FailsOnly.of_exists (exists_allSeries ht.toKeyed hcontains)).bind
      fun columns hcolumns => ?_
    have hkeyed := isKeyed_of_allSeries ht.toKeyed hkeyColumns
    -- the columns of an inferred table are keys, so the rows can be grouped
    refine .ite (fun _ => ?_) fun hnot => absurd (List.all_eq_true.2 hkeyed) hnot
    obtain ⟨results, hresults, -⟩ := exists_rows
      (fun _ => StatConfig.exists_reduce hname hreduce) hkeyed
      (reducible_of_allSeries ht hkinds hcolumns)
    refine (FailsOnly.of_exists ⟨results, mapError_eq_ok.2 hresults⟩).bind fun rows _ => ?_
    exact (failsOnly_kinds hkeyColumns).bind fun kinds _ =>
      failsOnly_ofRows (fun _ => Failure.reported_misuse rfl) _ _ _

/-- A summary is a table of keys. -/
theorem keyed_of_summary
    (h : summary .standard stat settings table mapping (.member (.geometry g)) layer = .ok t) :
    t.Keyed := by
  unfold summary at h
  obtain ⟨along, -, h⟩ := bind_eq_ok.1 h
  split at h
  · exact nomatch h
  · next column _ =>
    obtain ⟨reduce, hreduce, h⟩ := bind_eq_ok.1 h
    obtain ⟨others, hothers, h⟩ := bind_eq_ok.1 h
    obtain ⟨reduced, hreduced, h⟩ := bind_eq_ok.1 h
    obtain ⟨keyColumns, hkeyColumns, h⟩ := bind_eq_ok.1 h
    obtain ⟨columns, hcolumns, h⟩ := bind_eq_ok.1 h
    dsimp only at h
    split at h
    · obtain ⟨rows, hrows, h⟩ := bind_eq_ok.1 h
      obtain ⟨kinds, -, h⟩ := bind_eq_ok.1 h
      obtain ⟨results, hresults, hkeyed⟩ := exists_rows
        (fun _ => StatConfig.exists_reduce hname hreduce)
        (isKeyed_of_allSeries ht.toKeyed hkeyColumns)
        (reducible_of_allSeries ht (kind_of_reducedColumns hpresent hreduced) hcolumns)
      cases hresults.symm.trans (mapError_eq_ok.1 hrows)
      -- a rule takes a cell of the key or of the reduced values, and both are keys
      refine Table.keyed_of_ofRows h fun rule hrule r hr => ?_
      have hr := isKeyed_of_mem_settle hkeyed r hr
      rcases List.mem_append.1 hrule with hrule | hrule
      · exact isKeyed_of_keyRules hrule hr.key
      · obtain ⟨i, e, -, rfl⟩ := List.mem_mapIdx.1 hrule
        exact Table.isKeyed_getD hr.values i
    · exact nomatch h

end Summary

end Stat

end PlotGrammar
