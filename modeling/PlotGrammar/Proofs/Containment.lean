import PlotGrammar.Proofs.Acceptance
import PlotGrammar.Proofs.Stat.Breakdown

/-!
# Faults that escape a build

A build reports problems, and a fault ends it without a result. Of a plot that is described in the
ordinary way (`Plot.Ordinary`: the tables infer the kinds of their columns, and statistics name the
reductions and kernels they use) most steps of a build are never a fault:

* Preparing a layer is one only where its statistic is (`Build.faults_prepare`). What a statistic
  gives is a table of keys, and all columns that the layer then refers to are in it
  (`Build.Ready.keyed`, `Build.Ready.present`).
* Feeding the scales from such tables is none, for their columns can be read
  (`ScaleRegistry.readable_of_keyed`, `Build.FedLayers.not_faults`).

So a fault escapes exactly where something breaks off the statistic of a layer that is bound as it
should be (`Build.faults_run`, with `Stat.Breakdown` for what does). A plot whose layers compute no
bins and no curves has a result, if its parameters have doubles (`Build.exists_result_of_kinds`).
-/

namespace PlotGrammar

/-! ### Feeding keys -/

namespace ScaleRegistry

section Reading

variable {table : Table} {mapping : Mapping} {layer : Option Int} {r r' : ScaleRegistry}

/-- Every column that a mapping binds can be read, along with the others that feed its scale. -/
def Readable (table : Table) (mapping : Mapping) : Prop :=
  ∀ c column kind, mapping.column? c = some column → table.kind? column = some kind →
    (readAll table kind (feeding table column)).2 = .ok ()

/-- A call for columns that can be read is no fault. -/
theorem Fed.not_faults {c : Channel} {outcome : Except Failure Unit}
    (h : Fed r c table mapping layer r' outcome) (hreadable : Readable table mapping) :
    ¬ Faults outcome := by
  cases h with
  | frozen => exact Failure.Reported.not_faults trivial
  | unbound => exact not_faults_ok ()
  | absent | mismatch => exact (Failure.reported_layer rfl _ _).not_faults
  | read column kind _ hc hk =>
    rw [hreadable c column kind hc hk]
    exact not_faults_ok ()

theorem FedAll.not_faults {channels : List Channel} {result : Except Failure (List LayerProblem)}
    {attempts : List Attempt} (h : FedAll table mapping layer r channels r' result attempts)
    (hreadable : Readable table mapping) : ¬ Faults result := by
  -- call by call: each is fed columns that can be read, so none of them faults
  induction h with
  | done => exact not_faults_ok []
  | ended rest hcall =>
    rintro ⟨f, hf⟩
    cases hf
    exact hcall.not_faults hreadable (faults_fault f)
  | next hcall ho hrest ih =>
    rintro ⟨f, hf⟩
    rcases bind_eq_error.1 hf with hf | ⟨_, -, hf⟩
    · exact ih ⟨f, hf⟩
    · exact nomatch hf

/-- A scale of any kind can use a column of keys. -/
theorem exists_usable {column : Column} (h : column.isKeyed = true) (kind : ColumnKind) :
    ∃ cells, ScaleState.usable kind column = .ok cells := by
  cases kind with
  | discrete => exact ⟨_, if_pos h⟩
  | continuous | temporal => exact ⟨_, rfl⟩

/-- What feeds a scale is in the table. -/
theorem contains_of_mem_feeding {column name : String} (h : table.contains column = true)
    (hname : name ∈ feeding table column) : table.contains name = true := by
  unfold feeding at hname
  split at hname
  · rcases List.mem_cons.1 hname with rfl | hname
    · exact h
    · exact (List.mem_filter.1 hname).2
  · obtain rfl := List.mem_singleton.1 hname
    exact h

variable (ht : table.Keyed)

include ht

/-- The columns of a table of keys can all be read. -/
theorem readAll_eq_ok {names : List String} (h : ∀ name ∈ names, table.contains name = true)
    (kind : ColumnKind) : (readAll table kind names).2 = .ok () := by
  induction names with
  | nil => rfl
  | cons name rest ih =>
    obtain ⟨column, hcolumn, hkeyed⟩ := ht.exists_column (h name List.mem_cons_self)
    obtain ⟨cells, hcells⟩ := exists_usable hkeyed kind
    have hread : columnCells table kind name = .ok cells :=
      bind_eq_ok.2 ⟨column, hcolumn, mapError_eq_ok.2 hcells⟩
    unfold readAll
    rw [hread]
    exact ih fun name hname => h name (List.mem_cons_of_mem _ hname)

/-- The columns of a table of keys that a mapping binds can be read. -/
theorem readable_of_keyed
    (hpresent : ∀ c name, mapping.column? c = some name → table.contains name = true) :
    Readable table mapping := by
  intro c column kind hc _
  exact readAll_eq_ok ht (fun name => contains_of_mem_feeding (hpresent c column hc)) kind

end Reading

end ScaleRegistry

namespace Build

open ScaleRegistry (Attempt Readable)

/-- Feeding layers whose columns can be read is no fault. -/
theorem FedLayers.not_faults {r r' : ScaleRegistry} {items : List Item}
    {result : Except Failure (List Problem)} {attempts : List Attempt}
    (h : FedLayers r items r' result attempts)
    (hitems : ∀ item ∈ items, ∀ p, item.outcome = .ok p → Readable p.data p.mapping) :
    ¬ Faults result := by
  -- layer by layer, of which only those that were prepared are fed
  induction h with
  | done => exact not_faults_ok []
  | passed ho hrest ih => exact ih fun item hitem => hitems item (List.mem_cons_of_mem _ hitem)
  | ended rest ho hown =>
    have hreadable := hitems _ List.mem_cons_self _ ho
    rintro ⟨f, hf⟩
    cases hf
    exact hown.not_faults hreadable (faults_fault f)
  | next ho hown hrest ih =>
    have ih := ih fun item hitem => hitems item (List.mem_cons_of_mem _ hitem)
    rintro ⟨f, hf⟩
    rcases bind_eq_error.1 hf with hf | ⟨_, -, hf⟩
    · exact ih ⟨f, hf⟩
    · exact nomatch hf

/-! ### Preparing layers -/

section Prepare

variable {kit : Toolkit} {defaults : Stat.Defaults} {data : Table} {root : Mapping} {index : Nat}
  {layer : Layer}

/-- Nothing but the run of a statistic is a fault when it is followed by the drawing. -/
theorem faults_transform {stat : StatConfig} {table : Table} {mapping : Mapping}
    {geometry : Geometry} :
    Faults (transform kit defaults stat table mapping geometry index).outcome ↔
      Faults (Stat.run kit stat defaults table mapping (.member (.geometry geometry))
        (some index)).outcome := by
  constructor
  · intro h
    rw [outcome_transform] at h
    rcases faults_bind.1 h with h | ⟨result, hrun, h'⟩
    · exact h
    · -- once the statistic has run, everything has a result
      obtain ⟨p, hp⟩ := exists_transform_iff.2 ⟨result, hrun⟩
      rw [← outcome_transform, hp] at h
      exact absurd h (not_faults_ok p)
  · intro h
    rw [outcome_transform]
    exact faults_bind.2 (Or.inl h)

theorem faults_problemOrResult {α : Type} {x : Logged α} :
    Faults x.problemOrResult.outcome ↔ Faults x.outcome := by
  unfold Logged.problemOrResult
  -- the outcome of the stat is passed on, but for a single problem, which is reported
  split
  · next a ha =>
    rw [ha]
    exact iff_of_false (not_faults_ok _) (not_faults_ok a)
  · next p hp =>
    rw [hp]
    exact iff_of_false (not_faults_ok _) (Failure.Reported.not_faults trivial)
  · next e _ he =>
    rw [he]
    exact ⟨fun ⟨f, hf⟩ => ⟨f, by cases hf; rfl⟩, fun ⟨f, hf⟩ => ⟨f, by cases hf; rfl⟩⟩

/-- The preparation of a layer is a fault exactly if nothing is wrong before its statistic runs, and
this is one. -/
theorem faults_prepare :
    Faults (prepare kit defaults data root index layer).outcome ↔
      bindingProblems data root index layer = [] ∧
        Faults (Stat.run kit layer.stat defaults (layer.table data) (layer.resolved root)
          (.member (.geometry layer.geometry)) (some index)).outcome := by
  rw [outcome_prepare]
  -- the stat runs only if the layer has no problem with its bindings
  split
  · next hnone =>
    rw [and_iff_right hnone, ← faults_transform, ← faults_problemOrResult]
    refine faults_bind.trans (or_iff_left ?_)
    rintro ⟨done, -, h⟩
    exact not_faults_ok _ h
  · next hsome => exact iff_of_false (not_faults_ok _) fun h => hsome h.1

/-- The preparation of layers is a fault exactly if that of one of them is. -/
theorem faults_prepareAll {layers : List Layer} :
    Faults (prepareAll kit defaults data root index layers).outcome ↔
      ∃ i layer, layers[i]? = some layer ∧
        Faults (prepare kit defaults data root (index + i) layer).outcome := by
  induction layers generalizing index with
  | nil =>
    refine iff_of_false (not_faults_ok _) ?_
    rintro ⟨i, layer, hi, -⟩
    simp at hi
  | cons first rest ih =>
    unfold prepareAll
    rw [Logged.faults_bind]
    constructor
    · rintro (h | ⟨outcome, -, h⟩)
      · exact ⟨0, first, rfl, h⟩
      -- preparing stops at the first fault, and what comes before it is counted in its place
      · rcases Logged.faults_bind.1 h with h | ⟨items, -, h⟩
        · obtain ⟨i, layer, hi, h⟩ := ih.1 h
          rw [Nat.add_assoc, Nat.add_comm 1 i] at h
          exact ⟨i + 1, layer, hi, h⟩
        · exact absurd h (not_faults_ok _)
    · rintro ⟨i, layer, hi, h⟩
      cases hfirst : (prepare kit defaults data root index first).outcome with
      | error e =>
        obtain ⟨f, rfl⟩ := fault_of_prepare hfirst
        exact Or.inl (faults_fault f)
      | ok outcome =>
        -- the first layer is prepared, so it is a later one that is a fault
        refine Or.inr ⟨outcome, rfl, Logged.faults_bind.2 (Or.inl (ih.2 ?_))⟩
        cases i with
        | zero =>
          cases hi
          rw [Nat.add_zero, hfirst] at h
          exact absurd h (not_faults_ok _)
        | succ i =>
          rw [← Nat.add_assoc, Nat.add_right_comm] at h
          exact ⟨i, layer, hi, h⟩

end Prepare

end Build

/-! ### Ordinary plots -/

/-- A plot whose tables infer the kinds of their columns, and whose statistics name the reductions
and kernels they use. -/
structure Plot.Ordinary (plot : Plot) : Prop where
  data : plot.data.Inferred
  tables : ∀ layer ∈ plot.layers, ∀ table ∈ layer.data, table.Inferred
  stats : ∀ layer ∈ plot.layers, layer.stat.ByName

instance (plot : Plot) : Decidable plot.Ordinary :=
  decidable_of_iff (plot.data.Inferred ∧
      (∀ layer ∈ plot.layers, ∀ table ∈ layer.data, table.Inferred) ∧
      ∀ layer ∈ plot.layers, layer.stat.ByName)
    ⟨fun ⟨hdata, htables, hstats⟩ => ⟨hdata, htables, hstats⟩,
      fun h => ⟨h.data, h.tables, h.stats⟩⟩

/-- The table that a layer of an ordinary plot reads has inferred kinds. -/
theorem Plot.Ordinary.table {plot : Plot} (h : plot.Ordinary) {layer : Layer}
    (hlayer : layer ∈ plot.layers) : (layer.table plot.data).Inferred := by
  unfold Layer.table
  cases htable : layer.data with
  | none => exact h.data
  | some table => exact h.tables layer hlayer table htable

theorem exists_wholeNumber {least : Int} {v : Value} (h : isAtLeast least v = true) :
    ∃ n, Stat.wholeNumber v = .ok n ∧ least ≤ n := by
  cases v with
  | bool b => exact ⟨_, rfl, of_decide_eq_true h⟩
  | int i => exact ⟨_, rfl, of_decide_eq_true h⟩
  | _ => exact nomatch h

namespace BuildConfig

/-- The options give at least one bin, and at least two points. -/
structure InRange (config : BuildConfig) : Prop where
  bins : isAtLeast 1 config.defaultBins = true
  points : isAtLeast 2 config.densityPoints = true

theorem InRange.defaults {config : BuildConfig} (h : config.InRange) : config.defaults.InRange :=
  ⟨exists_wholeNumber h.bins, exists_wholeNumber h.points⟩

/-- Options that can be built are in range. -/
theorem inRange_of_make {options : List (Value × Value)} {config : BuildConfig}
    (h : make options = .ok config) : config.InRange := by
  unfold make at h
  extract_lets -underBinder afterNames at h
  split at h
  · dsimp -zeta only [afterNames] at h
    extract_lets -underBinder read standard at h
    -- what is read is given and checked, or the default
    have hread : ∀ name default least refusal v, isAtLeast least default = true →
        read name default least refusal = .ok v → isAtLeast least v = true := by
      intro name default least refusal v hdefault hv
      dsimp -zeta only [read] at hv
      split at hv
      · cases hv
        exact hdefault
      · split at hv
        · next hleast =>
          cases hv
          exact hleast
        · exact nomatch hv
    obtain ⟨maxWorkers, -, h⟩ := bind_eq_ok.1 h
    obtain ⟨defaultBins, hbins, h⟩ := bind_eq_ok.1 h
    obtain ⟨densityPoints, hpoints, h⟩ := bind_eq_ok.1 h
    cases h
    exact ⟨hread _ _ _ _ _ rfl hbins, hread _ _ _ _ _ rfl hpoints⟩
  · exact nomatch h

end BuildConfig

/-- The parts of a plot make the plot. -/
theorem Plot.make_parts (plot : Plot) :
    Plot.make (.part plot.data) (.part plot.mapping) (plot.layers.map .part) = .ok plot := by
  -- a plot removes no channel, so its mapping is accepted again
  have hremoves : removesNothing plot.mapping = true := by
    refine List.all_eq_true.2 fun c _ => ?_
    have hc := plot.keeps c
    cases hb : plot.mapping.binding c with
    | none => rfl
    | some b =>
      cases b with
      | removed => exact absurd hb hc
      | _ => rfl
  have hlayers : (plot.layers.map Presented.part).mapM (Presented.required .plotLayers) =
      (.ok plot.layers : Except Failure (List Layer)) := by
    induction plot.layers with
    | nil => rfl
    | cons layer rest ih =>
      rw [List.map_cons, List.mapM_cons, ih]
      rfl
  have hparts : ∀ layers, ofParts plot.data plot.mapping layers =
      .ok ⟨plot.data, plot.mapping, layers, keeps_of_removesNothing hremoves⟩ := fun layers =>
    dif_pos hremoves
  refine bind_eq_ok.2 ⟨plot.data, rfl, bind_eq_ok.2 ⟨plot.mapping, rfl, ?_⟩⟩
  refine bind_eq_ok.2 ⟨_, hparts [], bind_eq_ok.2 ⟨plot.layers, hlayers, ?_⟩⟩
  exact hparts plot.layers

namespace Build

open ScaleRegistry (Readable)

variable {config : BuildConfig} {plot : Plot}

/-- What an ordinary layer is prepared with is a table of keys that has all columns it refers to. -/
theorem Ready.keyed {defaults : Stat.Defaults} {index : Nat} {layer : Layer} {p : Prepared}
    (h : Ready .standard defaults plot.data plot.mapping index layer p) (hplot : plot.Ordinary)
    (hlayer : layer ∈ plot.layers) : p.data.Keyed :=
  Stat.keyed_of_run (hplot.table hlayer) (hplot.stats layer hlayer) h.columns
    (transform_eq_ok.1 h.stat).1

/-- Where the columns of prepared layers can be read, only preparing a layer is a fault. -/
theorem faults_run_iff_preparations {kit : Toolkit}
    (h : ∀ items, (preparations kit config plot).outcome = .ok items → ∀ item ∈ items, ∀ p,
      item.outcome = .ok p → Readable p.data p.mapping) :
    Faults (run kit config plot).outcome ↔ Faults (preparations kit config plot).outcome := by
  rw [outcome_run]
  refine faults_bind.trans (or_iff_left ?_)
  -- feeding what can be read cannot fault, and listing problems cannot either
  rintro ⟨items, hitems, hfaults⟩
  rcases faults_bind.1 hfaults with hfed | ⟨found, -, hlisted⟩
  · exact (fedLayers_feed .empty items).not_faults (h items hitems) hfed
  · split at hlisted
    · exact not_faults_ok _ hlisted
    · obtain ⟨f, hf⟩ := hlisted
      exact nomatch hf

/-- **A build of an ordinary plot ends with a fault exactly if something breaks off the statistic of
a layer that is bound as it should be.** -/
theorem faults_run (hplot : plot.Ordinary) (hconfig : config.InRange) :
    Faults (run .standard config plot).outcome ↔
      ∃ i layer, plot.layers[i]? = some layer ∧
        bindingProblems plot.data plot.mapping i layer = [] ∧
        Stat.Breakdown layer.stat config.defaults (layer.table plot.data)
          (layer.resolved plot.mapping) (.member (.geometry layer.geometry)) (some i) := by
  have hreadable : ∀ items, (preparations .standard config plot).outcome = .ok items →
      ∀ item ∈ items, ∀ p, item.outcome = .ok p → Readable p.data p.mapping := by
    -- what a layer is prepared with is a table of keys
    intro items hitems item hitem p hp
    obtain ⟨hlayer, hprepare⟩ := mem_of_prepareAll hitems hitem
    rw [hp] at hprepare
    have hready := prepare_eq_ok.1 hprepare
    exact ScaleRegistry.readable_of_keyed (hready.keyed hplot (List.mem_of_getElem? hlayer))
      fun c name => hready.present
  rw [faults_run_iff_preparations hreadable]
  unfold preparations
  rw [faults_prepareAll]
  refine exists_congr fun i => exists_congr fun layer => and_congr_right fun hlayer => ?_
  have hmem := List.mem_of_getElem? hlayer
  rw [faults_prepare, Nat.zero_add]
  refine and_congr_right fun hbound => ?_
  exact Stat.faults_run (hplot.table hmem) (hplot.stats layer hmem)
    (bindingProblems_eq_nil.1 hbound).1 hconfig.defaults

/-- A build as a value has a result exactly if no fault ends the build. -/
theorem exists_specOrProblems {kit : Toolkit} :
    (∃ result, (specOrProblems (run kit config plot)).outcome = .ok result) ↔
      ¬ Faults (run kit config plot).outcome := by
  unfold specOrProblems
  cases hrun : (run kit config plot).outcome with
  | ok spec => exact iff_of_true ⟨_, rfl⟩ (not_faults_ok spec)
  | error e =>
    rcases run_eq_error hrun with ⟨f, rfl⟩ | ⟨ps, -, rfl⟩
    · exact iff_of_false (fun ⟨_, h⟩ => nomatch h) fun h => h (faults_fault f)
    · exact iff_of_true ⟨_, rfl⟩ fun ⟨_, h⟩ => nomatch h

/-- Building a plot from its parts is building the plot. -/
theorem outcome_runParts {kit : Toolkit} :
    (runParts kit config (.part plot.data) (.part plot.mapping)
      (plot.layers.map .part)).outcome = (specOrProblems (run kit config plot)).outcome := by
  unfold runParts
  rw [Plot.make_parts]
  rfl

/-- An ordinary plot without bins and curves has a result, if no parameter is an integer beyond all
doubles and the first one out of range, if there is one, can be written out. -/
theorem exists_result_of_kinds (hplot : plot.Ordinary) (hconfig : config.InRange)
    (h : ∀ layer ∈ plot.layers, ¬ layer.stat.MeetsBeyond ∧
      (∀ cause, layer.stat.Refuses .standard cause → cause.isWritable = true) ∧
      layer.stat.kind ≠ .bin ∧ layer.stat.kind ≠ .density) :
    ∃ result, (runParts .standard config (.part plot.data) (.part plot.mapping)
      (plot.layers.map .part)).outcome = .ok result := by
  rw [outcome_runParts, exists_specOrProblems, faults_run hplot hconfig]
  rintro ⟨i, layer, hi, -, hbreak⟩
  obtain ⟨hfits, hworded, hbin, hdensity⟩ := h layer (List.mem_of_getElem? hi)
  -- the three ways to break down are ruled out one by one
  cases hbreak with
  | oversized hover => exact hfits hover
  | unwritten hrefuses hcause =>
    rw [hworded _ hrefuses] at hcause
    exact nomatch hcause
  | broken _ _ hbreaks => exact hbreaks.kind.elim hbin hdensity

end Build

end PlotGrammar
