import PlotGrammar.Proofs.Collection
import PlotGrammar.Proofs.Stat.Dependence

/-!
# Columns that nothing is bound to

A layer uses the columns that its mapping binds. `unbound_columns_unread` says that the others do
not matter, whatever they are called, whatever they hold and wherever they stand: neither to a
statistic (`Stat.run_congr`) nor to the scales (`ScaleRegistry.accumulateLayer_congr`). To the
scales this holds of tables that no bins were computed into, for the edges of bins are read along
with the column they belong to.

The columns that are bound have to agree in how they are stored, not in their cells alone. The sum
of a column of words runs over where the sum of the same integers as objects does not
(`sum_depends_on_storage`).
-/

namespace PlotGrammar

namespace ScaleRegistry

/-! ### What feeding a scale depends on -/

/-- A column of a table that no bins were computed into feeds its scale alone. -/
theorem feeding_of_not_binned {table : Table}
    (h : table.computedBy ≠ some StatKind.bin.name) (column : String) :
    feeding table column = [column] :=
  if_neg h

section Congr

variable {t t' : Table} {m m' : Mapping} {layer : Option Int}

/-- Feeding channels does the same if every call does. -/
theorem accumulateAll_congr
    (h : ∀ (r : ScaleRegistry) c, r.accumulate c t' m' layer = r.accumulate c t m layer)
    (r : ScaleRegistry) (channels : List Channel) :
    accumulateAll t' m' layer r channels = accumulateAll t m layer r channels := by
  induction channels generalizing r with
  | nil => rfl
  | cons c rest ih =>
    unfold accumulateAll
    rw [h]
    simp only [ih]

/-- A scale that is extended by one column depends on that column. -/
theorem extendBy_singleton_congr {name : String} (h : t'.series name = t.series name)
    (s : ScaleState) : extendBy t' s [name] = extendBy t s [name] := by
  unfold extendBy
  rw [h]
  rfl

variable (hm : ∀ c, m'.column? c = m.column? c)

include hm

/-- Calls for one table depend on the columns that are bound. -/
theorem accumulate_congr_columns (r : ScaleRegistry) (c : Channel) :
    r.accumulate c t m' layer = r.accumulate c t m layer := by
  unfold accumulate
  rw [hm]

/-- Feeding a layer of one table depends on the columns that are bound. -/
theorem accumulateLayer_congr_columns (r : ScaleRegistry) (t : Table) (layer : Option Int) :
    r.accumulateLayer t m' layer = r.accumulateLayer t m layer := by
  unfold accumulateLayer
  rw [Stat.columns_congr hm]
  exact accumulateAll_congr (fun r c => accumulate_congr_columns hm r c) r _

end Congr

section Tables

variable {t t' : Table} {m : Mapping} (hbinned : t.computedBy ≠ some StatKind.bin.name)
  (hcomputed : t'.computedBy = t.computedBy)
  (hshared : ∀ c name, m.column? c = some name → t.Shares t' name)

include hbinned hcomputed hshared

theorem accumulate_congr (layer : Option Int) (r : ScaleRegistry) (c : Channel) :
    r.accumulate c t' m layer = r.accumulate c t m layer := by
  unfold accumulate
  cases hc : m.column? c with
  | none => rfl
  | some column =>
    -- a table that is not binned is fed by its bound columns, each of which is shared
    have hcolumn := hshared c column hc
    have hextend : ∀ s, extendBy t' s (feeding t' column) = extendBy t s (feeding t column) := by
      intro s
      rw [feeding_of_not_binned hbinned, feeding_of_not_binned (hcomputed ▸ hbinned)]
      exact extendBy_singleton_congr hcolumn.series_eq s
    simp only [hcolumn.kind, hextend]

/-- Feeding a layer depends on the columns that are bound. -/
theorem accumulateLayer_congr (r : ScaleRegistry) (layer : Option Int) :
    r.accumulateLayer t' m layer = r.accumulateLayer t m layer :=
  accumulateAll_congr (accumulate_congr hbinned hcomputed hshared layer) r _

end Tables

end ScaleRegistry

/-- **Columns that nothing is bound to are not read.** Two tables of one height, which the same
statistic computed if one did, share every column that a mapping binds. Then every statistic that
computes a table gives the same one for both, or fails alike, and records the same; and if no bins
were computed into them, both feed the scales alike. -/
theorem unbound_columns_unread (kit : Toolkit) (stat : StatConfig) (defaults : Stat.Defaults)
    (t t' : Table) (m : Mapping) (geometry : Value) (layer : Option Int)
    (hheight : t'.height = t.height) (hcomputed : t'.computedBy = t.computedBy)
    (hshared : ∀ c name, m.column? c = some name → t.Shares t' name) :
    (stat.kind ≠ .identity →
        Stat.run kit stat defaults t' m geometry layer =
          Stat.run kit stat defaults t m geometry layer) ∧
      (t.computedBy ≠ some StatKind.bin.name → ∀ r : ScaleRegistry,
        r.accumulateLayer t' m layer = r.accumulateLayer t m layer) := by
  refine ⟨fun hstat => ?_, fun hbinned r => ?_⟩
  -- a stat other than the identity keeps no column beside those it reads
  · have hsame : Stat.SameInput t t' m m := ⟨hheight, hcomputed, fun _ => rfl, hshared⟩
    exact Stat.run_congr hsame kit (fun hidentity => absurd hidentity hstat) defaults geometry layer
  · exact ScaleRegistry.accumulateLayer_congr hbinned hcomputed hshared r layer

/-- Three measurements of two groups. -/
def groupedTable : Table where
  fields :=
    [⟨.text "v", .continuous, ⟨.int, [.int 1, .int 2, .int 4]⟩⟩,
      ⟨.text "g", .discrete, ⟨.text, [.text "a", .text "b", .text "a"]⟩⟩]
  height := 3
  computedBy := none
  uniform := by decide
  distinct := by decide

/-- The measurements beside a column of counts, in another order. -/
def annotatedTable : Table where
  fields :=
    [⟨.text "g", .discrete, ⟨.text, [.text "a", .text "b", .text "a"]⟩⟩,
      ⟨.text "count", .continuous, ⟨.int, [.int 7, .int 7, .int 7]⟩⟩,
      ⟨.text "v", .continuous, ⟨.int, [.int 1, .int 2, .int 4]⟩⟩]
  height := 3
  computedBy := none
  uniform := by decide
  distinct := by decide

/-- The measurements along an axis, coloured by their group. -/
def groupedMapping : Mapping :=
  (Mapping.empty.set .x (.column "v")).set .color (.column "g")

theorem groupedMapping_shared (c : Channel) (name : String)
    (h : groupedMapping.column? c = some name) : groupedTable.Shares annotatedTable name := by
  have hname : name = "v" ∨ name = "g" := by
    cases c with
    | x => exact Or.inl (Option.some.inj h).symm
    | color => exact Or.inr (Option.some.inj h).symm
    | _ => exact nomatch h
  rcases hname with rfl | rfl
  · exact ⟨by decide, by decide, rfl⟩
  · exact ⟨by decide, by decide, rfl⟩

/-- Bins of the measurements do not read the counts beside them. -/
theorem unbound_columns_unread_grouped :
    (∀ c name, groupedMapping.column? c = some name → groupedTable.Shares annotatedTable name) ∧
      Stat.run .standard { kind := .bin, bins := .int 2 } {} annotatedTable groupedMapping .null
          none =
        Stat.run .standard { kind := .bin, bins := .int 2 } {} groupedTable groupedMapping .null
          none ∧
      (Stat.run .standard { kind := .bin, bins := .int 2 } {} groupedTable groupedMapping .null
        none).outcome.toBool = true ∧
      ∀ r : ScaleRegistry, r.accumulateLayer annotatedTable groupedMapping none =
        r.accumulateLayer groupedTable groupedMapping none := by
  obtain ⟨hrun, hfeed⟩ := unbound_columns_unread .standard { kind := .bin, bins := .int 2 } {}
    groupedTable annotatedTable groupedMapping .null none rfl rfl groupedMapping_shared
  exact ⟨groupedMapping_shared, hrun (by decide), by decide +kernel, hfeed (by decide)⟩

/-- Two integers whose sum is beyond the signed words, stored as some type. -/
def largeTable (type : ColumnType) : Table where
  fields :=
    [⟨.text "v", .continuous, ⟨type, [.int 4611686018427387904, .int 4611686018427387904]⟩⟩]
  height := 2
  computedBy := none
  uniform := by simp
  distinct := by simp

/-- Columns of equal cells and of one kind need not have one sum: words run over, objects do
not. -/
theorem sum_depends_on_storage :
    ¬ ∀ (kit : Toolkit) (stat : StatConfig) (defaults : Stat.Defaults) (t t' : Table) (m : Mapping)
        (geometry : Value) (layer : Option Int), stat.kind = .summary → t'.height = t.height →
      t'.computedBy = t.computedBy →
      (∀ c name, m.column? c = some name → t.contains name = true ∧ t'.contains name = true ∧
        t'.kind? name = t.kind? name ∧
        (t'.column? name).map Column.cells = (t.column? name).map Column.cells) →
      (Stat.run kit stat defaults t' m geometry layer).outcome =
        (Stat.run kit stat defaults t m geometry layer).outcome := by
  intro h
  have hsame := h .standard { kind := .summary, aggregator := .text "sum" } {} (largeTable .int)
    (largeTable .object) (Mapping.empty.set .y (.column "v")) .null none rfl rfl rfl
    (by
      intro c name hc
      have hname : name = "v" := by
        cases c with
        | y => exact (Option.some.inj hc).symm
        | _ => exact nomatch hc
      rw [hname]
      exact ⟨by decide, by decide, by decide, rfl⟩)
  -- the sums of the two columns are read off the results
  have hsums := congrArg (fun result => (result.toOption.bind (·.column? "v")).map fun column =>
    column.cells.map Cell.key) hsame
  exact absurd hsums (by decide +kernel)

end PlotGrammar
