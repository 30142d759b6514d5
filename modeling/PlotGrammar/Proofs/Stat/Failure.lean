import PlotGrammar.Proofs.Stat.Parameters
import PlotGrammar.Stat.Run

/-!
# How a statistic fails

A statistic checks its parameters, looks for its axis and its columns, and computes. Whatever it
stumbles over, it ends with one problem or one fault (`Stat.settles_run`), never with the end of a
build. There is one lemma for each function that `Stat.run` is made of, and each follows the steps
of its function.

The functions that compute, as opposed to those that look at what was asked for, end with faults
only. Their lemmas hold for every sort of failures that faults belong to.
-/

namespace PlotGrammar

/-! ### Steps that only a fault ends -/

namespace StatConfig

variable {P : Failure → Prop} (hoverflow : P (.fault .overflow))

include hoverflow

theorem failsOnly_finite (v : Value) : FailsOnly P (finite v) := by
  unfold finite
  split
  · dsimp only
    split
    · exact .ok _
    · exact .ok _
    · exact .error hoverflow
  · dsimp only
    split
    · exact .ok _
    · exact .ok _
    · exact .error hoverflow
  · exact .ok _

theorem failsOnly_positive (v : Value) : FailsOnly P (positive v) :=
  (failsOnly_finite hoverflow v).bind fun _ _ => .pure _

end StatConfig

section Fault

variable {P : Failure → Prop} (hfault : ∀ f, P (.fault f))

include hfault

theorem Table.failsOnly_series (t : Table) (name : String) : FailsOnly P (t.series name) := by
  unfold Table.series
  split
  · exact .ok _
  · exact .error (hfault _)

namespace Stat

theorem failsOnly_faulty {α : Type} (x : Except Fault α) : FailsOnly P (faulty x) :=
  .mapError fun f _ => hfault f

theorem failsOnly_allSeries (table : Table) (names : List String) :
    FailsOnly P (allSeries table names) :=
  .mapM fun name _ => table.failsOnly_series hfault name

theorem failsOnly_toFloat (n : Number) : FailsOnly P (toFloat n) := by
  unfold toFloat
  split
  · exact .ok _
  · exact .error (hfault _)

theorem failsOnly_binning (settings : Settings) (defaults : Defaults) :
    FailsOnly P (binning settings defaults) := by
  unfold binning
  split
  · refine (failsOnly_toFloat hfault _).bind fun width _ => ?_
    exact (FailsOnly.optionMapM fun n _ => failsOnly_toFloat hfault n).bind fun _ _ => .pure _
  · exact (failsOnly_faulty hfault _).bind fun count _ => .pure _

theorem failsOnly_binEdges (settings : Settings) (defaults : Defaults) (values : List Float) :
    FailsOnly P (binEdges settings defaults values) := by
  unfold binEdges
  extract_lets -underBinder afterChoice
  -- whatever way of choosing the edges is settled, the same steps follow
  have hchoice : ∀ how, FailsOnly P (afterChoice how) := by
    intro how
    refine (failsOnly_faulty hfault _).bind fun steps _ => ?_
    refine (failsOnly_faulty hfault _).bind fun _ _ => ?_
    refine (failsOnly_faulty hfault _).bind fun edges _ => ?_
    dsimp only
    split
    · exact .pure _
    · exact .throw_bind (hfault _) _
  split
  · exact (FailsOnly.pure _).bind fun how _ => hchoice how
  · exact (failsOnly_binning hfault _ _).bind fun how _ => hchoice how

theorem failsOnly_bandwidth (settings : Settings) (values : List Float) :
    FailsOnly P (bandwidth settings values) := by
  unfold bandwidth
  dsimp only
  split
  · exact .ok _
  · exact .error (hfault _)

theorem failsOnly_massOf (width : Number) (values : Nat) : FailsOnly P (massOf width values) := by
  unfold massOf
  split
  · exact failsOnly_toFloat hfault _
  · exact .error (hfault _)

theorem failsOnly_curveBlock (weighing : Weighing) (settings : Settings) (defaults : Defaults)
    (s : Sample) : FailsOnly P (curveBlock weighing settings defaults s) := by
  unfold curveBlock
  split
  · exact .pure _
  -- the stages in turn, each of which fails as a fault if it fails
  · refine (failsOnly_bandwidth hfault _ _).bind fun base _ => ?_
    refine (failsOnly_faulty hfault _).bind fun points _ => ?_
    refine (failsOnly_toFloat hfault _).bind fun width _ => ?_
    refine (failsOnly_faulty hfault _).bind fun kernel _ => ?_
    refine (failsOnly_massOf hfault _ _).bind fun mass _ => ?_
    dsimp only
    split
    · exact .throw_bind (hfault _) _
    · exact .pure _

section Repeated

variable {ρ : Type} (hrepeated : ∀ names, P (.misuse (.repeatedNames names)))

omit hfault in
include hrepeated in
/-- A table with repeated names is no table. -/
theorem failsOnly_ofRows (rules : List (Table.Rule ρ)) (rows : List ρ) (computedBy : String) :
    FailsOnly P (Table.ofRows rules rows computedBy) := by
  unfold Table.ofRows Table.ofFields
  split
  · exact .ok _
  · exact .error (hrepeated _)

include hrepeated in
theorem failsOnly_assemble (stat : StatKind) (keys : List String) (division : Division)
    (computed : List (Table.Rule ρ)) (key : ρ → List Cell) (blocks : List (List ρ)) :
    FailsOnly P (assemble stat keys division computed key blocks) := by
  unfold assemble
  split
  · exact .error (hfault _)
  · exact failsOnly_ofRows hrepeated _ _ _

end Repeated

end Stat

end Fault

namespace Table

theorem settles_kind (t : Table) (name : String) : Settles (t.kind name) := by
  unfold kind
  split
  · exact .ok _
  · exact .layer _ _ _

end Table

namespace StatConfig

theorem settles_optional {α : Type} {v : Value} {read : Value → Except Failure (Option α)}
    {refusal : Failure} (hread : ∀ v, Settles (read v)) (hrefusal : refusal.Single) :
    Settles (optional v read refusal) := by
  unfold optional
  split
  · exact .ok _
  · refine (hread _).bind fun a => ?_
    cases a with
    | none => exact .throw hrefusal
    | some a => exact .pure _

theorem settles_known {α : Type} (given : Value) (entries : List (Value × α)) :
    Settles (known given entries) := by
  unfold known
  split
  · exact FailsOnly.mapError fun f _ => Failure.single_fault f
  · exact .fault _

/-- Reading the parameters fails for one of them. -/
theorem settles_settings (kit : Toolkit) (layer : Option Int) (stat : StatConfig) :
    Settles (stat.settings kit layer) := by
  have hcause : ∀ cause, (Failure.layer cause layer none).Single :=
    fun _ => Failure.single_layer _ _ _
  have hpositive : ∀ v, Settles (positive v) := failsOnly_positive (Failure.single_fault _)
  have hfinite : ∀ v, Settles (finite v) := failsOnly_finite (Failure.single_fault _)
  unfold settings
  -- option by option: each is read, or refused with one problem
  refine (settles_optional (fun _ => .ok _) (hcause _)).bind fun bins => ?_
  refine (settles_optional hpositive (hcause _)).bind fun binWidth => ?_
  -- what follows a test is named, for it stands in both branches
  extract_lets -underBinder afterBins
  have hbins : ∀ u, Settles (afterBins u) := by
    intro u
    dsimp -zeta only [afterBins]
    refine (settles_optional hfinite (hcause _)).bind fun boundary => ?_
    refine (settles_optional hpositive (hcause _)).bind fun bandwidth => ?_
    refine (hpositive _).bind fun adjust? => ?_
    extract_lets -underBinder afterAdjust
    have hadjust : ∀ n, Settles (afterAdjust n) := by
      intro n
      dsimp -zeta only [afterAdjust]
      refine (settles_optional (fun _ => .ok _) (hcause _)).bind fun points => ?_
      extract_lets -underBinder afterSummary
      have hsummary : ∀ u, Settles (afterSummary u) := by
        intro u
        dsimp -zeta only [afterSummary]
        extract_lets -underBinder afterDensity afterKey
        have hdensity : ∀ u, Settles (afterDensity u) := fun u =>
          (settles_optional (fun _ => .ok _) (hcause _)).bind fun axis => .pure _
        have hkey : ∀ u, Settles (afterKey u) := by
          intro u
          dsimp -zeta only [afterKey]
          split
          · exact hdensity ()
          · exact (settles_known _ _).bind fun _ => .throw_bind (hcause _) _
        split
        · split
          · exact hkey ()
          · exact .throw_bind (Failure.single_fault _) _
        · exact hdensity ()
      split
      · split
        · split
          · exact hsummary ()
          · exact (settles_known _ _).bind fun _ => .throw_bind (hcause _) _
        · exact hsummary ()
      · exact hsummary ()
    split
    · exact (Settles.pure _).bind fun n => hadjust n
    · exact .throw_bind (hcause _) _
  split
  · exact .throw_bind (hcause _) _
  · exact hbins ()

theorem settles_reduction (kit : Toolkit) (layer : Option Int) (stat : StatConfig) :
    Settles (stat.reduction kit layer) := by
  unfold reduction
  split
  · exact .ok _
  · split
    · split
      · exact .ok _
      · exact .layer _ _ _
    · exact .fault _

end StatConfig

namespace Stat

section Orientation

variable (stat : StatKind) (table : Table) (mapping : Mapping) (geometry : Value)
  (layer : Option Int)

theorem settles_preferredAxis : Settles (preferredAxis geometry) := by
  unfold preferredAxis
  split
  · exact .ok _
  · refine Settles.bind ?_ fun _ => .pure _
    unfold Geometry.ofValue
    split
    · exact .ok _
    · exact .error (Failure.single_misuse _)

theorem settles_continuousAxes (axes : List Axis) :
    Settles (continuousAxes table mapping axes) := by
  induction axes with
  | nil => exact .ok _
  | cons a rest ih => exact (table.settles_kind _).bind fun _ => ih.bind fun _ => .pure _

theorem settles_requiredAxis (asked : Channel) :
    Settles (requiredAxis stat mapping layer asked) := by
  unfold requiredAxis
  split
  · exact .ok _
  · exact .layer _ _ _

theorem settles_chosenAxis : Settles (chosenAxis stat table mapping geometry layer) := by
  unfold chosenAxis
  split
  · exact .throw (Failure.single_layer _ _ _)
  · exact .pure _
  · refine (settles_continuousAxes table mapping _).bind fun found => ?_
    split
    · exact .pure _
    · exact settles_preferredAxis geometry

theorem settles_axis (asked : Option Axis) :
    Settles (axis stat asked table mapping geometry layer) := by
  unfold axis
  split
  · exact settles_requiredAxis _ _ _ _
  · exact settles_chosenAxis _ _ _ _ _

theorem settles_orientation (stat : StatConfig) :
    Settles (orientation stat table mapping geometry layer) := by
  unfold orientation
  split
  · exact settles_chosenAxis _ _ _ _ _
  · split
    · exact settles_requiredAxis _ _ _ _
    · exact .fault _

end Orientation

section Run

variable (table : Table) (mapping : Mapping) (geometry : Value) (layer : Option Int)
  (settings : Settings) (defaults : Defaults)

theorem settles_continuousColumn (stat : StatKind) (along : Axis) :
    Settles (continuousColumn stat table mapping along layer) := by
  unfold continuousColumn
  refine (table.settles_kind _).bind fun kind => ?_
  split
  · exact .pure _
  · exact .throw (Failure.single_layer _ _ _)

theorem settles_groupColumns (other : String) : Settles (groupColumns table mapping other) := by
  unfold groupColumns
  refine Settles.foldlM (fun keys e => ?_) _ _
  split
  · exact .pure _
  · split
    · exact .pure _
    · exact (table.settles_kind _).bind fun _ => .pure _

theorem settles_input (stat : StatKind) (along : Axis) :
    Settles (input stat table mapping along layer).outcome := by
  unfold input
  refine Settles.logged (settles_continuousColumn _ _ _ _ _) fun name => ?_
  refine Settles.logged (settles_groupColumns _ _ _) fun keys => ?_
  refine Settles.logged (table.failsOnly_series Failure.single_fault _) fun column => ?_
  dsimp only
  split
  · exact .pure _
  · exact .pure _

theorem settles_divide (input : Input) : Settles (input.divide table) := by
  unfold Input.divide
  refine Settles.bind (failsOnly_allSeries Failure.single_fault _ _) fun columns => ?_
  refine (Settles.mapM table.settles_kind _).bind fun kinds => ?_
  dsimp only
  split
  · exact .pure _
  · exact .throw_bind (Failure.single_fault _) _

theorem settles_bin : Settles (bin settings defaults table mapping geometry layer).outcome := by
  unfold bin
  split
  · exact .layer _ _ _
  · refine Settles.logged (settles_axis _ _ _ _ _ _) fun along => ?_
    refine Settles.logged (settles_input _ _ _ _ _) fun input => ?_
    refine Settles.logged (failsOnly_binEdges Failure.single_fault _ _ _) fun edges => ?_
    refine Settles.logged (settles_divide _ _) fun division => ?_
    exact failsOnly_assemble Failure.single_fault (fun _ => trivial) _ _ _ _ _ _

theorem settles_density (kit : Toolkit) (kernel : Value) :
    Settles (density kit kernel settings defaults table mapping geometry layer).outcome := by
  unfold density
  -- nothing before the blocks fails but with one problem, and the blocks fail as faults
  refine Settles.logged (settles_axis _ _ _ _ _ _) fun along => ?_
  refine Settles.logged (settles_input _ _ _ _ _) fun input => ?_
  split
  · exact .fault _
  · next weighing _ =>
    refine Settles.logged (settles_divide _ _) fun division => ?_
    have hblocks := Settles.loggedFilterMapM
      (f := fun s => liftM (curveBlock weighing settings defaults s))
      (failsOnly_curveBlock Failure.single_fault weighing settings defaults) division.samples
    refine Settles.logged hblocks fun blocks => ?_
    exact failsOnly_assemble Failure.single_fault (fun _ => trivial) _ _ _ _ _ _

theorem settles_valueAxis (asked : Option Axis) :
    Settles (valueAxis asked table mapping geometry) := by
  unfold valueAxis
  split
  · exact .pure _
  · refine (Settles.optionMapM table.settles_kind _).bind fun onX => ?_
    refine (Settles.optionMapM table.settles_kind _).bind fun onY => ?_
    split
    · exact (settles_preferredAxis _).bind fun _ => .pure _
    · exact .pure _
    · exact .pure _

theorem settles_reducedColumns (counting : Bool) (keys : List String) :
    Settles (reducedColumns counting table mapping keys layer) := by
  unfold reducedColumns
  refine Settles.foldlM (fun reduced e => ?_) _ _
  split
  · exact .pure _
  · split
    · exact .pure _
    · refine (table.settles_kind _).bind fun kind => ?_
      split
      · exact .pure _
      · exact .throw (Failure.single_layer _ _ _)

theorem settles_summary (kit : Toolkit) (stat : StatConfig) :
    Settles (summary kit stat settings table mapping geometry layer) := by
  unfold summary
  -- each step settles, in the order in which they are taken
  refine (settles_valueAxis _ _ _ _).bind fun axis => ?_
  split
  · exact .throw (Failure.single_layer _ _ _)
  · refine (stat.settles_reduction _ _).bind fun reduce => ?_
    refine (settles_groupColumns _ _ _).bind fun others => ?_
    refine (settles_reducedColumns _ _ _ _ _).bind fun reduced => ?_
    refine Settles.bind (failsOnly_allSeries Failure.single_fault _ _) fun keyColumns => ?_
    refine Settles.bind (failsOnly_allSeries Failure.single_fault _ _) fun reducedColumns => ?_
    extract_lets -underBinder afterKeys
    have hkeys : ∀ u, Settles (afterKeys u) := by
      intro u
      refine Settles.bind (failsOnly_faulty Failure.single_fault _) fun rows => ?_
      refine (Settles.mapM table.settles_kind _).bind fun kinds => ?_
      exact failsOnly_ofRows (fun _ => trivial) _ _ _
    split
    · exact hkeys ()
    · exact .throw_bind (Failure.single_fault _) _

/-- A statistic fails with one problem or one fault. -/
theorem settles_run (kit : Toolkit) (stat : StatConfig) :
    Settles (run kit stat defaults table mapping geometry layer).outcome := by
  unfold run
  refine Settles.logged (stat.settles_settings kit layer) fun settings => ?_
  unfold runWith
  split
  · exact .pure _
  · exact settles_bin _ _ _ _ _ _
  · exact settles_summary _ _ _ _ _ _ _
  · exact settles_density _ _ _ _ _ _ _ _

end Run

end Stat

end PlotGrammar
