import PlotGrammar.Proofs.Stat.Numbering
import PlotGrammar.Proofs.Stat.Output
import PlotGrammar.Proofs.Stat.Reduction

/-!
# Samples, and tables made of them

Bins and curves see a table as observations, rows with a finite value, and divide these into
samples. From a table of keys this can always be done (`Stat.exists_divide`): the cells of the group
columns are keys, every sample has a value, and there is a sample as soon as there is a value.

What is computed from samples is assembled beside the group columns. The only fault that can happen
then is that a group column has the name of a computed one (`Stat.faults_assemble`), and what is
assembled is a table of keys again (`Stat.keyed_of_assemble`).
-/

namespace PlotGrammar

namespace Table

/-- A table has keys where every cell follows from a rule that gives keys. -/
theorem keyed_of_ofRows {ρ : Type} {rules : List (Rule ρ)} {rows : List ρ} {computedBy : String}
    {t : Table} (h : ofRows rules rows computedBy = .ok t)
    (hcells : ∀ rule ∈ rules, ∀ r ∈ rows, (rule.cell r).isKeyed = true) : t.Keyed := by
  have hfields := (fields_of_ofRows h).1
  refine ⟨fun f hf => ?_, fun f hf => ?_⟩
  · obtain ⟨rule, -, rfl⟩ := List.mem_map.1 (hfields ▸ hf)
    rfl
  · obtain ⟨rule, hrule, rfl⟩ := List.mem_map.1 (hfields ▸ hf)
    refine List.all_eq_true.2 fun c hc => ?_
    obtain ⟨r, hr, rfl⟩ := List.mem_map.1 hc
    exact hcells rule hrule r hr

/-- Columns are as long as their table is high. -/
theorem length_of_series {t : Table} {name : String} {column : Column}
    (h : t.series name = .ok column) : column.cells.length = t.height := by
  unfold series at h
  split at h
  · next found hfound =>
    cases h
    obtain ⟨f, hf, rfl⟩ := Option.map_eq_some_iff.1 hfound
    exact t.uniform f (List.mem_of_find?_eq_some hf)
  · exact nomatch h

/-- Among keys, whatever is looked up is one. -/
theorem isKeyed_getD {cells : List Cell} (h : ∀ c ∈ cells, c.isKeyed = true) (i : Nat) :
    (cells.getD i .missing).isKeyed = true := by
  rw [List.getD_eq_getElem?_getD]
  cases hc : cells[i]? with
  | none => rfl
  | some c => exact h c (List.mem_of_getElem? hc)

/-- The rows of columns of keys consist of keys. -/
theorem isKeyed_of_mem_rowsOf {height : Nat} {columns : List Column} {row : List Cell}
    (h : ∀ column ∈ columns, column.isKeyed = true)
    (hrow : row ∈ rowsOf height (columns.map Column.cells)) {c : Cell} (hc : c ∈ row) :
    c.isKeyed = true := by
  obtain ⟨i, -, rfl⟩ := List.mem_map.1 hrow
  rw [List.map_map] at hc
  obtain ⟨column, hcolumn, rfl⟩ := List.mem_map.1 hc
  exact isKeyed_getD (List.all_eq_true.1 (h column hcolumn)) i

end Table

/-- A double can be a key. -/
theorem Column.isKeyed_floatCell (c : Cell) : (floatCell c).isKeyed = true := by
  unfold floatCell
  cases c.toFloat? with
  | none => rfl
  | some x => exact Aggregate.isKeyed_ofFloat x

theorem Column.isKeyed_storeCell (type : ColumnType) {c : Cell} (h : c.isKeyed = true) :
    (storeCell type c).isKeyed = true := by
  unfold storeCell
  split
  · exact isKeyed_floatCell _
  · exact h

namespace Group

variable {κ ρ : Type} [DecidableEq κ] {key : ρ → κ} {rows : List ρ}

/-- A group is made of rows, and has one. -/
theorem exists_head?_of_mem {g : κ × List ρ} (h : g ∈ of key rows) :
    (∃ r, g.2.head? = some r) ∧ ∀ r ∈ g.2, r ∈ rows := by
  obtain ⟨k, hk, rfl⟩ := List.mem_map.1 h
  obtain ⟨r, hr, hkey⟩ := mem_keys.1 hk
  refine ⟨?_, fun r hr => (List.mem_filter.1 hr).1⟩
  have hmem : r ∈ rowsWith key rows k := List.mem_filter.2 ⟨hr, decide_eq_true hkey⟩
  obtain ⟨first, rest, hcons⟩ := List.exists_cons_of_ne_nil (List.ne_nil_of_mem hmem)
  exact ⟨first, congrArg List.head? hcons⟩

/-- Rows make a group. -/
theorem of_ne_nil (h : rows ≠ []) : of key rows ≠ [] := by
  obtain ⟨r, hr⟩ := List.exists_mem_of_ne_nil rows h
  have hk : key r ∈ keys key rows := mem_keys.2 ⟨r, hr, rfl⟩
  exact List.ne_nil_of_mem (List.mem_map_of_mem hk)

end Group

namespace Stat

/-! ### Observations and samples -/

section Samples

variable {height : Nat} {column : Column} {keys : List Column} {rows : List Observation}

/-- The values that are observed are the finite ones of the column. -/
theorem map_value_observations (h : column.cells.length = height) :
    (observations height column keys).map Observation.value =
      column.finiteFloats.filterMap id := by
  have hlength : column.finiteFloats.length =
      (Table.rowsOf height (keys.map Column.cells)).length := by
    rw [Table.length_rowsOf, Column.length_finiteFloats, h]
  -- the values are one component of the observations, which skip the rows without a value
  unfold observations
  rw [List.map_filterMap]
  refine Eq.trans ?_ (congrArg (List.filterMap id) (List.map_snd_zip (Nat.le_of_eq hlength)))
  rw [List.filterMap_map]
  refine congrArg (List.filterMap · _) (funext fun r => ?_)
  rw [Option.map_map]
  exact Option.map_id_apply

theorem isKeyed_of_mem_observations (h : ∀ k ∈ keys, k.isKeyed = true) {r : Observation}
    (hr : r ∈ observations height column keys) : ∀ c ∈ r.key, c.isKeyed = true := by
  obtain ⟨e, he, hsome⟩ := List.mem_filterMap.1 hr
  obtain ⟨v, -, rfl⟩ := Option.map_eq_some_iff.1 hsome
  exact fun c hc => Table.isKeyed_of_mem_rowsOf h (List.of_mem_zip he).1 hc

/-- A sample of a group has a value, and stands under the cells of one of its rows. -/
theorem exists_of_mem_samples {s : Sample} (h : s ∈ samples true rows) :
    s.values ≠ [] ∧ ∃ r ∈ rows, s.key = r.key := by
  obtain ⟨g, hg, hs⟩ := List.mem_filterMap.1 h
  obtain ⟨r, hr, rfl⟩ := Option.map_eq_some_iff.1 hs
  have hmem : r ∈ g.2 := List.mem_of_mem_head? hr
  refine ⟨?_, r, (Group.exists_head?_of_mem hg).2 r hmem, rfl⟩
  exact List.ne_nil_of_mem (List.mem_map_of_mem hmem)

theorem samples_ne_nil (h : rows ≠ []) : samples true rows ≠ [] := by
  have hgroups : Group.of (fun r : Observation => keyOf r.key) rows ≠ [] := Group.of_ne_nil h
  obtain ⟨g, hg⟩ := List.exists_mem_of_ne_nil _ hgroups
  obtain ⟨r, hr⟩ := (Group.exists_head?_of_mem hg).1
  refine List.ne_nil_of_mem (a := ⟨r.key, g.2.map Observation.value⟩) ?_
  exact List.mem_filterMap.2 ⟨g, hg, by rw [hr]; rfl⟩

end Samples

/-! ### Dividing rows -/

/-- The group columns of a table are columns that a mapping binds. -/
theorem contains_of_groupColumns {table : Table} {mapping : Mapping}
    (hpresent : ∀ c name, mapping.column? c = some name → table.contains name = true)
    {other : String} {keys : List String}
    (h : groupColumns table mapping other = .ok keys) : ∀ k ∈ keys, table.contains k = true := by
  unfold groupColumns at h
  refine foldlM_induction (P := fun keys => ∀ k ∈ keys, table.contains k = true)
    (fun keys e keys' he hkeys hstep => ?_) (fun k hk => absurd hk List.not_mem_nil) h
  -- only columns that are bound are added, of whichever kind they are
  have hadd : ∀ k ∈ keys ++ [e.2], table.contains k = true := by
    intro k hk
    rcases List.mem_append.1 hk with hk | hk
    · exact hkeys k hk
    · obtain rfl := List.mem_singleton.1 hk
      exact hpresent e.1 e.2 (Mapping.mem_columns.1 he)
  split at hstep
  · cases hstep
    exact hkeys
  · split at hstep
    · cases hstep
      exact hadd
    · obtain ⟨kind, -, hstep⟩ := bind_eq_ok.1 hstep
      cases hstep
      split
      · exact hkeys
      · exact hadd

section Divide

variable {table : Table} {input : Input} {division : Division}

/-- Columns that are in a table of keys are found. -/
theorem exists_allSeries (ht : table.Keyed) {names : List String}
    (h : ∀ name ∈ names, table.contains name = true) :
    ∃ columns, allSeries table names = .ok columns :=
  exists_mapM fun name hname => (ht.exists_column (h name hname)).imp fun _ h => h.1

/-- Columns of one table of keys are keyed, however they were looked up. -/
theorem isKeyed_of_allSeries (ht : table.Keyed) {names : List String} {columns : List Column}
    (h : allSeries table names = .ok columns) : ∀ column ∈ columns, column.isKeyed = true := by
  intro column hcolumn
  obtain ⟨name, -, hseries⟩ := exists_of_mem_mapM h hcolumn
  obtain ⟨found, hfound, hkeyed⟩ := ht.exists_column (contains_of_series hseries)
  cases hseries.symm.trans hfound
  exact hkeyed

/-- The rows that an input observes, under the cells of some columns. -/
def Input.observed (table : Table) (input : Input) (columns : List Column) : List Observation :=
  observations table.height input.column columns

/-- Group columns that are in a table of keys divide its rows. -/
theorem exists_divide (ht : table.Keyed) (hkeys : ∀ k ∈ input.keys, table.contains k = true) :
    ∃ division, input.divide table = .ok division := by
  obtain ⟨columns, hcolumns⟩ := exists_allSeries ht hkeys
  have hkeyed := isKeyed_of_allSeries ht hcolumns
  -- a column that is there has a kind
  obtain ⟨kinds, hkinds⟩ : ∃ kinds, input.keys.mapM table.kind = .ok kinds :=
    exists_mapM fun k hk => (Table.exists_kind_of_contains (hkeys k hk)).imp fun kind hkind =>
      Table.kind_eq_ok.2 hkind
  have hall : ((input.observed table columns).all fun r => r.key.all Cell.isKeyed) = true :=
    List.all_eq_true.2 fun r hr => List.all_eq_true.2 (isKeyed_of_mem_observations hkeyed hr)
  refine ⟨⟨columns, kinds, samples (!input.keys.isEmpty) (input.observed table columns)⟩, ?_⟩
  refine bind_eq_ok.2 ⟨columns, hcolumns, bind_eq_ok.2 ⟨kinds, hkinds, ?_⟩⟩
  exact if_pos hall

/-- The samples of a division are those of the observed rows, whose group cells are keys. -/
theorem divide_eq_ok (h : input.divide table = .ok division) :
    ∃ columns, allSeries table input.keys = .ok columns ∧
      division.samples = samples (!input.keys.isEmpty) (input.observed table columns) ∧
      ∀ r ∈ input.observed table columns, ∀ c ∈ r.key, c.isKeyed = true := by
  obtain ⟨columns, hcolumns, h⟩ := bind_eq_ok.1 h
  obtain ⟨kinds, -, h⟩ := bind_eq_ok.1 h
  dsimp only at h
  split at h
  · next hall =>
    cases h
    exact ⟨columns, hcolumns, rfl, fun r hr =>
      List.all_eq_true.1 (List.all_eq_true.1 hall r hr)⟩
  · exact nomatch h

/-- Samples stand under keys. -/
theorem isKeyed_of_divide (h : input.divide table = .ok division) {s : Sample}
    (hs : s ∈ division.samples) : ∀ c ∈ s.key, c.isKeyed = true := by
  obtain ⟨columns, -, hsamples, hkeyed⟩ := divide_eq_ok h
  rw [hsamples] at hs
  -- with keys a sample has the key of one of its observations, and without them its key is empty
  cases hgrouped : !input.keys.isEmpty with
  | true =>
    rw [hgrouped] at hs
    obtain ⟨-, r, hr, hkey⟩ := exists_of_mem_samples hs
    rw [hkey]
    exact hkeyed r hr
  | false =>
    rw [hgrouped] at hs
    obtain rfl := List.mem_singleton.1 hs
    exact fun c hc => absurd hc List.not_mem_nil

/-- If columns divide the rows of an input, every sample has values, and there is one exactly if the
input has values. -/
theorem samples_of_divide (h : input.divide table = .ok division)
    (hcolumn : table.series input.name = .ok input.column) (hkeys : input.keys ≠ []) :
    (∀ s ∈ division.samples, s.values ≠ []) ∧
      (division.samples = [] ↔ input.values = []) := by
  obtain ⟨columns, -, hsamples, -⟩ := divide_eq_ok h
  have hgrouped : (!input.keys.isEmpty) = true := by simpa using hkeys
  have hvalues : (input.observed table columns).map Observation.value = input.values :=
    map_value_observations (Table.length_of_series hcolumn)
  rw [hsamples, hgrouped, ← hvalues, List.map_eq_nil_iff]
  -- a sample is listed because a value has its key, so none is empty
  refine ⟨fun s hs => (exists_of_mem_samples hs).1, fun hnone => ?_, fun hnone => ?_⟩
  · exact Decidable.byContradiction fun hrows => samples_ne_nil hrows hnone
  · rw [hnone]
    rfl

end Divide

/-! ### Assembling a table -/

section Assemble

variable {ρ : Type} {stat : StatKind} {keys : List String} {division : Division}
  {computed : List (Table.Rule ρ)} {key : ρ → List Cell} {blocks : List (List ρ)} {t : Table}

/-- A key stays one when it is stored. -/
theorem KeyStore.isKeyed_cell (store : KeyStore) {c : Cell} (h : c.isKeyed = true) :
    (store.cell c).isKeyed = true := by
  cases store with
  | kept => exact h
  | whole =>
    change ((Aggregate.wholeCell? c).elim c Cell.int).isKeyed = true
    cases Aggregate.wholeCell? c with
    | none => exact h
    | some i => rfl
  | double => exact Column.isKeyed_floatCell c

theorem isKeyed_of_keyRules {names : List String} {columns : List Column} {kinds : List ColumnKind}
    {stores : List KeyStore} {rule : Table.Rule ρ}
    (hrule : rule ∈ keyRules names columns kinds stores key) {r : ρ}
    (h : ∀ c ∈ key r, c.isKeyed = true) : (rule.cell r).isKeyed = true := by
  obtain ⟨i, e, -, rfl⟩ := List.mem_mapIdx.1 hrule
  exact KeyStore.isKeyed_cell _ (Table.isKeyed_getD h i)

/-- Assembling a table is a fault exactly if there is something to assemble, and a group column has
the name of a computed one. -/
theorem faults_assemble :
    Faults (assemble stat keys division computed key blocks) ↔
      blocks ≠ [] ∧ ∃ k ∈ keys, k ∈ computed.map Table.Rule.name := by
  -- the test of the program, said as a statement
  have htest : (!blocks.isEmpty && keys.any fun k => computed.any fun r => r.name == k) = true ↔
      blocks ≠ [] ∧ ∃ k ∈ keys, k ∈ computed.map Table.Rule.name := by
    simp only [Bool.and_eq_true, Bool.not_eq_true', List.isEmpty_eq_false_iff, List.any_eq_true,
      beq_iff_eq, List.mem_map]
  rw [← htest]
  unfold assemble
  split
  · next hcaptured => exact ⟨fun _ => hcaptured, fun _ => faults_fault _⟩
  · next hfree =>
    refine ⟨fun h => absurd h (Contained.not_faults ?_), fun h => absurd h hfree⟩
    exact failsOnly_ofRows (fun _ => Failure.reported_misuse rfl) _ _ _

/-- What is assembled is a table of keys. -/
theorem keyed_of_assemble (h : assemble stat keys division computed key blocks = .ok t)
    (hkeys : ∀ block ∈ blocks, ∀ r ∈ block, ∀ c ∈ key r, c.isKeyed = true)
    (hcomputed : ∀ rule ∈ computed, ∀ r, (rule.cell r).isKeyed = true) : t.Keyed := by
  unfold assemble at h
  split at h
  · exact nomatch h
  · refine Table.keyed_of_ofRows h fun rule hrule r hr => ?_
    rcases List.mem_append.1 hrule with hrule | hrule
    · obtain ⟨block, hblock, hr⟩ := List.mem_flatten.1 hr
      exact isKeyed_of_keyRules hrule (hkeys block hblock r hr)
    · exact hcomputed rule hrule r

end Assemble

end Stat

end PlotGrammar
