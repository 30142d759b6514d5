import PlotGrammar.Proofs.Stat.Breakdown
import PlotGrammar.Proofs.Stat.Dependence
import PlotGrammar.Proofs.Table.Groups

/-!
# Runs step by step

A run that has a result is a chain of steps, each of them with a result of its own. To compare two
runs is to compare their steps.

* `Stat.run_eq_ok_iff` takes a run to the statistic it runs, `Stat.bin_eq_ok_iff` and
  `Stat.density_eq_ok_iff` take bins and curves to their steps.
* `Stat.divide_eq_ok_iff` and `Stat.assemble_eq_ok_iff` say when rows can be divided and when a
  table can be assembled, and what comes of it. Whether there is a result is a matter of names alone
  (`Stat.exists_assemble_iff`).
* `Stat.axis_eq_ok_iff`: the axis depends on what the axes are bound to, and on the kinds of these
  columns.
-/

namespace PlotGrammar

namespace Table

/-- A table is computed from rows exactly if its columns have different names. -/
theorem ofRows_eq_ok_iff {ρ : Type} {rules : List (Rule ρ)} {rows : List ρ} {computedBy : String}
    {t : Table} :
    ofRows rules rows computedBy = .ok t ↔
      (rules.map Rule.name).Nodup ∧ t.fields = rules.map (Rule.field rows) ∧
        t.height = rows.length ∧ t.computedBy = some computedBy := by
  have hnames : rules.map Rule.name = (rules.map (Rule.field rows)).map Field.name := by
    rw [List.map_map]
    rfl
  -- the names of the rules are those of the fields, so one demand is made of both
  rw [hnames]
  unfold ofRows ofFields
  constructor
  · intro h
    split at h
    · next hnodup =>
      cases h
      exact ⟨hnodup, rfl, rfl, rfl⟩
    · cases h
  -- a table is its fields, height and stat, as the rest are proofs
  · rintro ⟨hnodup, hfields, hheight, hcomputed⟩
    rw [dif_pos hnodup]
    obtain ⟨fields, height, source, uniform, distinct⟩ := t
    cases hfields
    cases hheight
    cases hcomputed
    rfl

theorem exists_ofRows_iff {ρ : Type} {rules : List (Rule ρ)} {rows : List ρ} {computedBy : String} :
    (∃ t, ofRows rules rows computedBy = .ok t) ↔ (rules.map Rule.name).Nodup := by
  constructor
  · rintro ⟨t, h⟩
    exact (ofRows_eq_ok_iff.1 h).1
  · intro h
    have hnames : ((rules.map (Rule.field rows)).map Field.name).Nodup := by
      rw [List.map_map]
      exact h
    exact ⟨_, dif_pos hnames⟩

end Table

namespace Stat

variable {kit : Toolkit} {stat : StatConfig} {settings : Settings} {defaults : Defaults}
  {table table' result : Table} {mapping mapping' : Mapping} {geometry : Value} {layer : Option Int}

/-- A run reads the parameters and runs its statistic. -/
theorem run_eq_ok_iff :
    (run kit stat defaults table mapping geometry layer).outcome = .ok result ↔
      ∃ settings, stat.settings kit layer = .ok settings ∧
        (runWith kit stat settings defaults table mapping geometry layer).outcome = .ok result := by
  unfold run
  exact Logged.bind_eq_ok

/-! ### The axis -/

section Axis

variable {kind : StatKind} {along : Axis} {name : String}

/-- Two mappings bind the axes to the same columns, which are of the same kinds in two tables. -/
structure SameAxes (table table' : Table) (mapping mapping' : Mapping) : Prop where
  columns : ∀ a : Axis, mapping'.column? a.channel = mapping.column? a.channel
  kinds : ∀ (a : Axis) name, mapping.column? a.channel = some name →
    table'.kind? name = table.kind? name

namespace SameAxes

variable (h : SameAxes table table' mapping mapping')

include h

theorem boundAxes_eq : boundAxes mapping' = boundAxes mapping := by
  unfold boundAxes
  refine List.filter_congr fun a _ => ?_
  rw [h.columns]

theorem continuousAxes_eq_ok_iff {axes found : List Axis}
    (hbound : ∀ a ∈ axes, a ∈ boundAxes mapping) :
    continuousAxes table' mapping' axes = .ok found ↔
      continuousAxes table mapping axes = .ok found := by
  induction axes generalizing found with
  | nil => exact Iff.rfl
  | cons a rest ih =>
    obtain ⟨name, hname⟩ :=
      Option.isSome_iff_exists.1 (mem_boundAxes.1 (hbound a List.mem_cons_self))
    unfold continuousAxes
    rw [h.columns, hname, Option.getD_some, bind_eq_ok, bind_eq_ok]
    refine exists_congr fun kind => and_congr ?_ ?_
    · rw [Table.kind_eq_ok, Table.kind_eq_ok, h.kinds a name hname]
    · rw [bind_eq_ok, bind_eq_ok]
      refine exists_congr fun found' => and_congr_left fun _ => ?_
      exact ih fun a ha => hbound a (List.mem_cons_of_mem _ ha)

theorem axis_eq_ok_iff {asked : Option Axis} :
    axis kind asked table' mapping' geometry layer = .ok along ↔
      axis kind asked table mapping geometry layer = .ok along := by
  unfold axis
  cases asked with
  | some a =>
    unfold requiredAxis
    rw [h.boundAxes_eq]
  | none =>
    have hcontinuous : ∀ found, continuousAxes table' mapping' (boundAxes mapping) = .ok found ↔
        continuousAxes table mapping (boundAxes mapping) = .ok found := fun found =>
      h.continuousAxes_eq_ok_iff fun a ha => ha
    unfold chosenAxis
    rw [h.boundAxes_eq]
    dsimp only
    -- the kinds of columns are looked at only where both axes are bound
    generalize boundAxes mapping = axes at hcontinuous
    split
    · exact Iff.rfl
    · exact Iff.rfl
    · rw [bind_eq_ok, bind_eq_ok]
      exact exists_congr fun found => and_congr_left fun _ => hcontinuous found

theorem continuousColumn_eq_ok_iff (hbound : (mapping.column? along.channel).isSome = true) :
    continuousColumn kind table' mapping' along layer = .ok name ↔
      continuousColumn kind table mapping along layer = .ok name := by
  obtain ⟨found, hfound⟩ := Option.isSome_iff_exists.1 hbound
  unfold continuousColumn
  rw [h.columns, hfound, Option.getD_some, bind_eq_ok, bind_eq_ok]
  refine exists_congr fun k => and_congr ?_ ?_
  · rw [Table.kind_eq_ok, Table.kind_eq_ok, h.kinds along found hfound]
  · exact Iff.rfl

/-- A summary reduces the same axis, too. -/
theorem valueAxis_eq_ok_iff {asked : Option Axis} :
    valueAxis asked table' mapping' geometry = .ok along ↔
      valueAxis asked table mapping geometry = .ok along := by
  -- the kind of a bound column is the same in both tables
  have hkind : ∀ (a : Axis) kind, (mapping'.column? a.channel).mapM table'.kind = .ok kind ↔
      (mapping.column? a.channel).mapM table.kind = .ok kind := by
    intro a kind
    rw [h.columns]
    cases hname : mapping.column? a.channel with
    | none => exact Iff.rfl
    | some name =>
      simp only [Option.mapM_some, ← bind_pure_comp]
      rw [bind_eq_ok, bind_eq_ok]
      refine exists_congr fun k => and_congr_left fun _ => ?_
      rw [Table.kind_eq_ok, Table.kind_eq_ok, h.kinds a name hname]
  unfold valueAxis
  cases asked with
  | some a => exact Iff.rfl
  -- a free axis asks for the kinds of both columns, one after the other
  | none =>
    dsimp only
    rw [bind_eq_ok, bind_eq_ok]
    refine exists_congr fun onX => and_congr (hkind .x onX) ?_
    rw [bind_eq_ok, bind_eq_ok]
    exact exists_congr fun onY => and_congr_left fun _ => hkind .y onY

end SameAxes

end Axis

/-! ### Bins and curves -/

section Along

variable {kind : StatKind} {along : Axis} {found : Input} {division : Division}

/-- An input consists of a continuous column and of the columns that divide its rows. -/
theorem input_eq_ok_iff :
    (input kind table mapping along layer).outcome = .ok found ↔
      continuousColumn kind table mapping along layer = .ok found.name ∧
        table.series found.name = .ok found.column ∧
        groupColumns table mapping found.name = .ok found.keys := by
  refine ⟨input_eq_ok, fun ⟨hname, hcolumn, hkeys⟩ => ?_⟩
  unfold input
  refine Logged.bind_eq_ok.2 ⟨_, hname, Logged.bind_eq_ok.2 ⟨_, hkeys, Logged.bind_eq_ok.2
    ⟨_, hcolumn, ?_⟩⟩⟩
  dsimp only
  split
  · rfl
  · exact Logged.outcome_record_bind _ _

/-- Rows can be divided exactly if the group columns are there and hold keys in the rows that are
observed. -/
theorem divide_eq_ok_iff :
    found.divide table = .ok division ↔
      allSeries table found.keys = .ok division.columns ∧
        found.keys.mapM table.kind = .ok division.kinds ∧
        (∀ r ∈ found.observed table division.columns, ∀ c ∈ r.key, c.isKeyed = true) ∧
        division.samples = samples (!found.keys.isEmpty)
          (found.observed table division.columns) := by
  -- the demand is made of all keys at once, and stated key by key
  have hall : ∀ columns, ((found.observed table columns).all fun r =>
      r.key.all Cell.isKeyed) = true ↔
        ∀ r ∈ found.observed table columns, ∀ c ∈ r.key, c.isKeyed = true := by
    intro columns
    simp only [List.all_eq_true]
  constructor
  · intro h
    obtain ⟨columns, hcolumns, h⟩ := bind_eq_ok.1 h
    obtain ⟨kinds, hkinds, h⟩ := bind_eq_ok.1 h
    dsimp only at h
    split at h
    · next hkeyed =>
      cases h
      exact ⟨hcolumns, hkinds, (hall columns).1 hkeyed, rfl⟩
    · cases h
  · rintro ⟨hcolumns, hkinds, hkeyed, hsamples⟩
    refine bind_eq_ok.2 ⟨_, hcolumns, bind_eq_ok.2 ⟨_, hkinds, ?_⟩⟩
    obtain ⟨columns, kinds, divided⟩ := division
    dsimp only at hkeyed hsamples
    subst hsamples
    exact if_pos ((hall columns).2 hkeyed)

/-- A column divides nothing if there is none. -/
theorem divide_of_isEmpty (h : found.keys = []) :
    found.divide table = .ok ⟨[], [], [⟨[], (found.observed table []).map Observation.value⟩]⟩ := by
  refine divide_eq_ok_iff.2 ⟨by rw [h]; rfl, by rw [h]; rfl, fun r hr c hc => ?_, by rw [h]; rfl⟩
  obtain ⟨e, he, hr⟩ := List.mem_filterMap.1 hr
  obtain ⟨v, -, rfl⟩ := Option.map_eq_some_iff.1 hr
  obtain ⟨i, -, hi⟩ := List.mem_map.1 (List.of_mem_zip he).1
  dsimp only at hc
  rw [← hi] at hc
  exact absurd hc List.not_mem_nil

/-- Bins are counted in steps. -/
theorem bin_eq_ok_iff :
    (bin settings defaults table mapping geometry layer).outcome = .ok result ↔
      table.computedBy ≠ some StatKind.bin.name ∧ ∃ along found edges division,
        axis .bin settings.axis table mapping geometry layer = .ok along ∧
        (input .bin table mapping along layer).outcome = .ok found ∧
        binEdges settings defaults found.values = .ok edges ∧
        found.divide table = .ok division ∧
        assemble .bin found.keys division (binRules found.name) BinRow.key
          (division.samples.map (binBlock edges)) = .ok result := by
  unfold bin
  split
  · next hbinned => exact ⟨fun h => (nomatch h), fun h => absurd hbinned h.1⟩
  · next hfresh =>
    rw [and_iff_right hfresh]
    constructor
    · intro h
      obtain ⟨along, halong, h⟩ := Logged.bind_eq_ok.1 h
      obtain ⟨found, hfound, h⟩ := Logged.bind_eq_ok.1 h
      obtain ⟨edges, hedges, h⟩ := Logged.bind_eq_ok.1 h
      obtain ⟨division, hdivision, h⟩ := Logged.bind_eq_ok.1 h
      exact ⟨along, found, edges, division, halong, hfound, hedges, hdivision, h⟩
    · rintro ⟨along, found, edges, division, halong, hfound, hedges, hdivision, h⟩
      exact Logged.bind_eq_ok.2 ⟨along, halong, Logged.bind_eq_ok.2 ⟨found, hfound,
        Logged.bind_eq_ok.2 ⟨edges, hedges, Logged.bind_eq_ok.2 ⟨division, hdivision, h⟩⟩⟩⟩

/-- Densities are estimated in steps. -/
theorem density_eq_ok_iff {kernel : Value} :
    (density kit kernel settings defaults table mapping geometry layer).outcome = .ok result ↔
      ∃ along found weighing division blocks,
        axis .density settings.axis table mapping geometry layer = .ok along ∧
        (input .density table mapping along layer).outcome = .ok found ∧
        kit.kernel? kernel = some weighing ∧ found.divide table = .ok division ∧
        (curveBlocks weighing settings defaults division.samples).outcome = .ok blocks ∧
        assemble .density found.keys division (curveRules found.name) CurveRow.key blocks =
          .ok result := by
  unfold density
  constructor
  · intro h
    obtain ⟨along, halong, h⟩ := Logged.bind_eq_ok.1 h
    obtain ⟨found, hfound, h⟩ := Logged.bind_eq_ok.1 h
    split at h
    · cases h
    · next weighing hweighing =>
      obtain ⟨division, hdivision, h⟩ := Logged.bind_eq_ok.1 h
      obtain ⟨blocks, hblocks, h⟩ := Logged.bind_eq_ok.1 h
      exact ⟨along, found, weighing, division, blocks, halong, hfound, hweighing, hdivision,
        hblocks, h⟩
  · rintro ⟨along, found, weighing, division, blocks, halong, hfound, hweighing, hdivision, hblocks,
      h⟩
    refine Logged.bind_eq_ok.2 ⟨along, halong, Logged.bind_eq_ok.2 ⟨found, hfound, ?_⟩⟩
    rw [hweighing]
    exact Logged.bind_eq_ok.2 ⟨division, hdivision, Logged.bind_eq_ok.2 ⟨blocks, hblocks, h⟩⟩

end Along

/-! ### Assembling -/

section Assemble

variable {ρ : Type} {kind : StatKind} {names : List String} {division : Division}
  {computed : List (Table.Rule ρ)} {key : ρ → List Cell} {blocks : List (List ρ)}

/-- The rules of an assembled table: those for the group columns, and those for computed ones. -/
def assembledRules (names : List String) (division : Division) (computed : List (Table.Rule ρ))
    (key : ρ → List Cell) (rows : List ρ) : List (Table.Rule ρ) :=
  keyRules names division.columns division.kinds
    (keyStores KeyStore.ofAmounts division.columns (rows.map key)) key ++ computed

theorem assemble_eq_ok_iff :
    assemble kind names division computed key blocks = .ok result ↔
      (blocks ≠ [] → ∀ k ∈ names, k ∉ computed.map Table.Rule.name) ∧
        Table.ofRows (assembledRules names division computed key blocks.flatten) blocks.flatten
          kind.name = .ok result := by
  have htest : (!blocks.isEmpty && names.any fun k => computed.any fun r => r.name == k) = true ↔
      ¬ (blocks ≠ [] → ∀ k ∈ names, k ∉ computed.map Table.Rule.name) := by
    simp only [Bool.and_eq_true, Bool.not_eq_true', List.isEmpty_eq_false_iff, List.any_eq_true,
      beq_iff_eq, List.mem_map]
    push Not
    rfl
  unfold assemble
  split
  · next hcaptured => exact ⟨fun h => (nomatch h), fun h => absurd h.1 (htest.1 hcaptured)⟩
  · next hfree => exact ⟨fun h => ⟨not_not.1 fun hno => hfree (htest.2 hno), h⟩, fun h => h.2⟩

/-- **A table can be assembled** exactly if its columns have different names. -/
theorem exists_assemble_iff (hcolumns : division.columns.length = names.length)
    (hkinds : division.kinds.length = names.length) :
    (∃ result, assemble kind names division computed key blocks = .ok result) ↔
      (names ++ computed.map Table.Rule.name).Nodup := by
  have hnames : (assembledRules names division computed key blocks.flatten).map Table.Rule.name =
      names ++ computed.map Table.Rule.name := by
    unfold assembledRules
    rw [List.map_append, names_keyRules hcolumns hkinds]
  constructor
  · rintro ⟨result, h⟩
    rw [← hnames]
    exact (Table.ofRows_eq_ok_iff.1 (assemble_eq_ok_iff.1 h).2).1
  · intro h
    obtain ⟨result, hresult⟩ : ∃ result, Table.ofRows (assembledRules names division computed key
        blocks.flatten) blocks.flatten kind.name = .ok result :=
      Table.exists_ofRows_iff.2 (hnames.symm ▸ h)
    refine ⟨result, assemble_eq_ok_iff.2 ⟨fun _ k hk hcomputed => ?_, hresult⟩⟩
    exact List.disjoint_of_nodup_append h hk hcomputed

end Assemble

end Stat

end PlotGrammar
