import PlotGrammar.Proofs.Stat.Admission
import PlotGrammar.Proofs.Stat.Faults
import PlotGrammar.Proofs.Stat.Summary

/-!
# What breaks off a statistic

A statistic of a table whose kinds are inferred reads its parameters, looks for its input and
computes. It ends with a fault in these cases and in no other (`Stat.faults_run`):

* a parameter is an integer beyond all doubles (`StatConfig.MeetsBeyond`);
* the first parameter that is out of range is, or holds, an integer too long to be written out, so
  that it cannot be reported;
* the bins that are asked for cannot be laid over the values (`Stat.Indivisible`);
* the curve that is asked for is too much for a sample (`Stat.Overburdens`);
* a column that divides the rows has the name of a column that is computed (`Stat.Captured`).

`Stat.Breaks` lists the last three, which concern the input that has been found (`Stat.Finds`), and
`Stat.Breakdown` all of them. In all other cases there is a result, which is a table of keys
(`Stat.keyed_of_run`), or a problem to report.
-/

namespace PlotGrammar

namespace Stat

/-! ### Looking for the input -/

section Input

variable {table : Table} {mapping : Mapping} {layer : Option Int} {stat : StatKind}

theorem contained_requiredAxis (asked : Channel) :
    Contained (requiredAxis stat mapping layer asked) := by
  unfold requiredAxis
  split
  · exact .ok _
  · exact .error (Failure.reported_layer rfl _ _)

theorem contains_of_continuousColumn {along : Axis} {name : String}
    (h : continuousColumn stat table mapping along layer = .ok name) :
    table.contains name = true := by
  unfold continuousColumn at h
  obtain ⟨kind, hkind, h⟩ := bind_eq_ok.1 h
  split at h
  · cases h
    exact Table.contains_of_kind? (Table.kind_eq_ok.1 hkind)
  · exact nomatch h

variable (hpresent : ∀ c name, mapping.column? c = some name → table.contains name = true)

include hpresent

theorem contained_axis (g : Geometry) (asked : Option Axis) :
    Contained (axis stat asked table mapping (.member (.geometry g)) layer) := by
  unfold axis
  cases asked with
  | some a => exact contained_requiredAxis a.channel
  | none =>
    -- an axis is chosen among bound channels, whose columns are all there
    have hbound : ∀ a ∈ boundAxes mapping, (mapping.column? a.channel).isSome = true :=
      fun a ha => mem_boundAxes.1 ha
    dsimp only
    unfold chosenAxis
    split
    · exact .throw (Failure.reported_layer rfl _ _)
    · exact .pure _
    · refine (failsOnly_continuousAxes hpresent hbound).bind fun found _ => ?_
      split
      · exact .pure _
      · exact failsOnly_preferredAxis g

theorem contained_input (ht : table.Keyed) {along : Axis}
    (hbound : (mapping.column? along.channel).isSome = true) :
    Contained (input stat table mapping along layer).outcome := by
  obtain ⟨bound, hb⟩ := Option.isSome_iff_exists.1 hbound
  unfold input
  have hcolumn : Contained (continuousColumn stat table mapping along layer) := by
    unfold continuousColumn
    rw [hb, Option.getD_some]
    refine (failsOnly_kind (hpresent _ _ hb)).bind fun kind _ => ?_
    exact .ite (fun _ => .pure _) fun _ => .throw (Failure.reported_layer rfl _ _)
  -- the column, its keys and its cells are looked up in turn, and each of them is there
  refine .logged hcolumn fun name hname => ?_
  refine .logged (failsOnly_groupColumns hpresent name) fun keys _ => ?_
  obtain ⟨column, hseries, -⟩ := ht.exists_column (contains_of_continuousColumn hname)
  rw [hseries]
  refine .logged (.ok column) fun column _ => ?_
  dsimp only
  split
  · exact .ok _
  · exact .ok _

end Input

/-! ### Bins and curves -/

/-- The columns that a statistic computes beside those that divide the rows. -/
def computedNames : StatKind → String → List String
  | .bin, column => [column, startName column, stopName column, countName, densityName]
  | .density, column => [column, densityName, countName, scaledName]
  | .identity, _ | .summary, _ => []

/-- A statistic finds the input it runs along: bins are not counted once more, there is an axis, and
the column that is bound to it is continuous. -/
structure Finds (stat : StatKind) (settings : Settings) (table : Table) (mapping : Mapping)
    (geometry : Value) (layer : Option Int) (found : Input) : Prop where
  fresh : stat = .bin → table.computedBy ≠ some StatKind.bin.name
  input : ∃ along, axis stat settings.axis table mapping geometry layer = .ok along ∧
    (input stat table mapping along layer).outcome = .ok found

/-- There are values, and a column that divides them has the name of a computed one. -/
def Captured (stat : StatKind) (found : Input) : Prop :=
  found.values ≠ [] ∧ ∃ k ∈ found.keys, k ∈ computedNames stat found.name

/-- A standard kernel weighs each distance. -/
theorem exists_each {name : Value} {weighing : Weighing}
    (h : Toolkit.standard.kernel? name = some weighing) : ∃ weigh, weighing = .each weigh := by
  obtain ⟨e, he, rfl⟩ := Option.map_eq_some_iff.1 h
  have hall : ∀ e ∈ Toolkit.standard.kernels, ∃ weigh, e.2 = .each weigh := by
    simp [Toolkit.standard]
  exact hall e (List.mem_of_find?_eq_some he)

/-- What breaks off a statistic that has found its input. -/
inductive Breaks (stat : StatKind) (settings : Settings) (defaults : Defaults) (table : Table)
    (found : Input) : Prop
  /-- The bins that are asked for cannot be laid over the values. -/
  | indivisible {how : Histogram.Binning Float} (hstat : stat = .bin) (hvalues : found.values ≠ [])
      (hhow : binning settings defaults = .ok how) (h : Indivisible how found.values)
  /-- A column that divides the rows has the name of a computed one. -/
  | captured (h : Captured stat found)
  /-- The curve that is asked for is too much for the values of a sample. -/
  | overburdened {division : Division} {s : Sample} (hstat : stat = .density)
      (hdivision : found.divide table = .ok division) (hs : s ∈ division.samples)
      (hvalues : s.values ≠ []) (h : Overburdens settings defaults s.values.length)

section Run

variable {table : Table} {mapping : Mapping} {layer : Option Int} {g : Geometry}
  {settings : Settings} {defaults : Defaults} {stat : StatKind} {along : Axis} {found : Input}

/-- Where samples have been computed, assembling the result is a fault exactly if a name has been
captured. -/
theorem faults_assemble_divided {ρ : Type} {division : Division}
    {computed : List (Table.Rule ρ)} {key : ρ → List Cell} {blocks : List (List ρ)}
    (hfound : (input stat table mapping along layer).outcome = .ok found)
    (hdivision : found.divide table = .ok division)
    (hnames : computed.map Table.Rule.name = computedNames stat found.name)
    (hblocks : found.keys ≠ [] → (blocks ≠ [] ↔ division.samples ≠ [])) :
    Faults (assemble stat found.keys division computed key blocks) ↔ Captured stat found := by
  rw [faults_assemble, hnames]
  unfold Captured
  refine and_congr_left fun ⟨k, hk, _⟩ => ?_
  -- a name that is captured is a key, so there are samples exactly if there are values
  have hkeys : found.keys ≠ [] := List.ne_nil_of_mem hk
  exact (hblocks hkeys).trans
    (not_congr (samples_of_divide hdivision (input_eq_ok hfound).2.1 hkeys).2)

variable (ht : table.Keyed)
  (hpresent : ∀ c name, mapping.column? c = some name → table.contains name = true)
  (hs : Ranged settings) (hd : defaults.InRange)

include ht hpresent

theorem exists_divide_input
    (hfound : (input stat table mapping along layer).outcome = .ok found) :
    ∃ division, found.divide table = .ok division :=
  exists_divide ht (contains_of_groupColumns hpresent (input_eq_ok hfound).2.2)

include hs hd

/-- For an input that has been found, counting bins is a fault exactly if something breaks it
off. -/
theorem faults_binned (hfound : (input .bin table mapping along layer).outcome = .ok found) :
    Faults (do
        let edges ← binEdges settings defaults found.values
        let division ← found.divide table
        assemble .bin found.keys division (binRules found.name) BinRow.key
          (division.samples.map (binBlock edges)) : Logged Table).outcome ↔
      Breaks .bin settings defaults table found := by
  obtain ⟨division, hdivision⟩ := exists_divide_input ht hpresent hfound
  have hassemble : ∀ edges, Faults (do
      let division ← found.divide table
      assemble .bin found.keys division (binRules found.name) BinRow.key
        (division.samples.map (binBlock edges)) : Logged Table).outcome ↔ Captured .bin found := by
    intro edges
    rw [hdivision]
    refine faults_assemble_divided hfound hdivision rfl fun _ => ?_
    exact not_congr List.map_eq_nil_iff
  rw [Logged.faults_bind]
  constructor
  · rintro (h | ⟨edges, -, h⟩)
    · obtain ⟨hvalues, how, hhow, h⟩ := (faults_binEdges hs hd).1 h
      exact .indivisible rfl hvalues hhow h
    · exact .captured ((hassemble edges).1 h)
  · intro h
    cases h with
    | indivisible _ hvalues hhow h =>
      exact Or.inl ((faults_binEdges hs hd).2 ⟨hvalues, _, hhow, h⟩)
    | captured h =>
      -- the names are compared last: where there are no edges, that is already the fault
      have hedges := faults_or_exists
        (failsOnly_binEdges Failure.not_reported_fault settings defaults found.values)
      rcases hedges with hfault | ⟨edges, hedges⟩
      · exact Or.inl hfault
      · exact Or.inr ⟨edges, hedges, (hassemble edges).2 h⟩
    | overburdened hstat => exact nomatch hstat

/-- Counting bins is a fault exactly if something breaks it off for the input that is found. -/
theorem faults_bin :
    Faults (bin settings defaults table mapping (.member (.geometry g)) layer).outcome ↔
      ∃ found, Finds .bin settings table mapping (.member (.geometry g)) layer found ∧
        Breaks .bin settings defaults table found := by
  unfold bin
  split
  · next hbinned =>
    exact ⟨fun h => absurd h (Failure.reported_layer rfl _ _).not_faults,
      fun ⟨_, h, _⟩ => absurd hbinned (h.fresh rfl)⟩
  · next hbinned =>
    -- there is an axis and an input to be found before anything can break
    refine (Contained.faults_logged (contained_axis hpresent g _)).trans ?_
    constructor
    · rintro ⟨along, halong, h⟩
      have hbound := isSome_of_axis halong
      obtain ⟨found, hfound, h⟩ := (contained_input hpresent ht hbound).faults_logged.1 h
      exact ⟨found, ⟨fun _ => hbinned, along, halong, hfound⟩,
        (faults_binned ht hpresent hs hd hfound).1 h⟩
    · rintro ⟨found, ⟨-, along, halong, hfound⟩, h⟩
      have hbound := isSome_of_axis halong
      refine ⟨along, halong, (contained_input hpresent ht hbound).faults_logged.2 ?_⟩
      exact ⟨found, hfound, (faults_binned ht hpresent hs hd hfound).2 h⟩

omit ht hpresent in
/-- The curve of a sample is a fault exactly if the sample has values and they overburden. -/
theorem faults_curveBlock_sample {kernel : Kernel} {s : Sample} :
    Faults (curveBlock (.each kernel) settings defaults s) ↔
      s.values ≠ [] ∧ Overburdens settings defaults s.values.length := by
  by_cases hvalues : s.values = []
  · have hnone : curveBlock (.each kernel) settings defaults s = .ok none := by
      obtain ⟨key, values⟩ := s
      obtain rfl : values = [] := hvalues
      rfl
    rw [hnone]
    exact ⟨fun h => absurd h (not_faults_ok _), fun h => absurd hvalues h.1⟩
  · rw [faults_curveBlock hs hd hvalues, and_iff_right hvalues]

/-- The curves of samples, one after the other. -/
def curveBlocks (weighing : Weighing) (settings : Settings) (defaults : Defaults)
    (samples : List Sample) : Logged (List (List CurveRow)) :=
  samples.filterMapM fun s =>
    (curveBlock weighing settings defaults s : Except Failure (Option (List CurveRow)))

omit ht hpresent hs hd in
theorem failsOnly_curveBlocks {P : Failure → Prop} (hfault : ∀ f, P (.fault f))
    (weighing : Weighing) (samples : List Sample) :
    FailsOnly P (curveBlocks weighing settings defaults samples).outcome :=
  .loggedFilterMapM fun s _ => failsOnly_curveBlock hfault weighing settings defaults s

omit ht hpresent in
theorem faults_curveBlocks {kernel : Kernel} {samples : List Sample} :
    Faults (curveBlocks (.each kernel) settings defaults samples).outcome ↔
      ∃ s ∈ samples, s.values ≠ [] ∧ Overburdens settings defaults s.values.length := by
  unfold curveBlocks
  rw [Logged.faults_filterMapM fun s _ =>
    faults_or_exists (failsOnly_curveBlock Failure.not_reported_fault _ _ _ s)]
  exact exists_congr fun s => and_congr_right fun _ => faults_curveBlock_sample hs hd

omit ht hpresent in
/-- Every sample with values has a curve. -/
theorem curveBlocks_ne_nil {kernel : Kernel} {samples : List Sample}
    {blocks : List (List CurveRow)}
    (h : (curveBlocks (.each kernel) settings defaults samples).outcome = .ok blocks)
    (hvalues : ∀ s ∈ samples, s.values ≠ []) : blocks ≠ [] ↔ samples ≠ [] := by
  constructor
  · intro hne
    obtain ⟨block, hblock⟩ := List.exists_mem_of_ne_nil _ hne
    obtain ⟨s, hmem, -⟩ := Logged.exists_of_mem_filterMapM h hblock
    exact List.ne_nil_of_mem hmem
  · intro hne
    obtain ⟨s, hmem⟩ := List.exists_mem_of_ne_nil _ hne
    -- a block was computed for this sample, so it was not too heavy to compute
    have hlight : ¬ Overburdens settings defaults s.values.length := by
      intro hburden
      have hfault : Faults (curveBlocks (.each kernel) settings defaults samples).outcome :=
        (faults_curveBlocks hs hd).2 ⟨s, hmem, hvalues s hmem, hburden⟩
      rw [h] at hfault
      exact not_faults_ok _ hfault
    obtain ⟨rows, hrows⟩ := exists_curveBlock hs hd (hvalues s hmem) hlight
    exact Logged.ne_nil_of_filterMapM h hmem hrows

/-- For an input that has been found, estimating densities is a fault exactly if something breaks it
off. -/
theorem faults_estimated {kernel : Kernel}
    (hfound : (input .density table mapping along layer).outcome = .ok found) :
    Faults (do
        let division ← found.divide table
        let blocks ← curveBlocks (.each kernel) settings defaults division.samples
        assemble .density found.keys division (curveRules found.name) CurveRow.key blocks :
          Logged Table).outcome ↔
      Breaks .density settings defaults table found := by
  obtain ⟨division, hdivision⟩ := exists_divide_input ht hpresent hfound
  -- with curves at hand only a captured name is in the way, as some sample has a curve
  have hassemble : ∀ blocks,
      (curveBlocks (.each kernel) settings defaults division.samples).outcome = .ok blocks →
      (Faults (assemble .density found.keys division (curveRules found.name) CurveRow.key blocks) ↔
        Captured .density found) := fun blocks hblocks =>
    faults_assemble_divided hfound hdivision rfl fun hkeys => curveBlocks_ne_nil hs hd hblocks
      (samples_of_divide hdivision (input_eq_ok hfound).2.1 hkeys).1
  rw [hdivision]
  change Faults (curveBlocks (.each kernel) settings defaults division.samples >>= fun blocks =>
    liftM (assemble .density found.keys division (curveRules found.name) CurveRow.key
      blocks) : Logged Table).outcome ↔ _
  rw [Logged.faults_bind]
  constructor
  -- it is the curves that break down, or the table they are put in
  · rintro (h | ⟨blocks, hblocks, h⟩)
    · obtain ⟨s, hmem, hvalues, h⟩ := (faults_curveBlocks hs hd).1 h
      exact .overburdened rfl hdivision hmem hvalues h
    · exact .captured ((hassemble blocks hblocks).1 h)
  · intro h
    cases h with
    | indivisible hstat => exact nomatch hstat
    | captured h =>
      rcases faults_or_exists (failsOnly_curveBlocks Failure.not_reported_fault _ _) with
        hfault | ⟨blocks, hblocks⟩
      · exact Or.inl hfault
      · exact Or.inr ⟨blocks, hblocks, (hassemble blocks hblocks).2 h⟩
    | overburdened _ hsame hmem hvalues h =>
      cases hdivision.symm.trans hsame
      exact Or.inl ((faults_curveBlocks hs hd).2 ⟨_, hmem, hvalues, h⟩)

/-- Estimating densities is a fault exactly if something breaks it off for the input that is
found. -/
theorem faults_density {kernel : Value}
    (hknown : (Toolkit.standard.kernel? kernel).isSome = true) :
    Faults (density .standard kernel settings defaults table mapping (.member (.geometry g))
        layer).outcome ↔
      ∃ found, Finds .density settings table mapping (.member (.geometry g)) layer found ∧
        Breaks .density settings defaults table found := by
  obtain ⟨weighing, hweighing⟩ := Option.isSome_iff_exists.1 hknown
  obtain ⟨weigh, rfl⟩ := exists_each hweighing
  unfold density
  -- a standard kernel is always found, so nothing but the input and the curves can break
  refine (Contained.faults_logged (contained_axis hpresent g _)).trans ?_
  rw [hweighing]
  constructor
  · rintro ⟨along, halong, h⟩
    have hbound := isSome_of_axis halong
    obtain ⟨found, hfound, h⟩ := (contained_input hpresent ht hbound).faults_logged.1 h
    exact ⟨found, ⟨fun h => (nomatch h), along, halong, hfound⟩,
      (faults_estimated ht hpresent hs hd hfound).1 h⟩
  · rintro ⟨found, ⟨-, along, halong, hfound⟩, h⟩
    have hbound := isSome_of_axis halong
    refine ⟨along, halong, (contained_input hpresent ht hbound).faults_logged.2 ?_⟩
    exact ⟨found, hfound, (faults_estimated ht hpresent hs hd hfound).2 h⟩

end Run

/-! ### Running -/

/-- What breaks off a statistic. -/
inductive Breakdown (stat : StatConfig) (defaults : Defaults) (table : Table) (mapping : Mapping)
    (geometry : Value) (layer : Option Int) : Prop
  /-- A parameter is an integer beyond all doubles. -/
  | oversized (h : stat.MeetsBeyond)
  /-- The first parameter that is out of range cannot be written out. -/
  | unwritten {cause : LayerCause} (h : stat.Refuses .standard cause)
      (hcause : cause.isWritable = false)
  /-- Something breaks it off after it has found its input. -/
  | broken {settings : Settings} {found : Input}
      (hsettings : stat.settings .standard layer = .ok settings)
      (hfound : Finds stat.kind settings table mapping geometry layer found)
      (h : Breaks stat.kind settings defaults table found)

/-- Only bins and curves are broken off. -/
theorem Breaks.kind {kind : StatKind} {settings : Settings} {defaults : Defaults} {table : Table}
    {found : Input} (h : Breaks kind settings defaults table found) :
    kind = .bin ∨ kind = .density := by
  cases h with
  | indivisible hstat => exact Or.inl hstat
  | overburdened hstat => exact Or.inr hstat
  | captured h =>
    obtain ⟨-, k, -, hk⟩ := h
    cases kind with
    | bin => exact Or.inl rfl
    | density => exact Or.inr rfl
    | identity | summary => exact absurd hk List.not_mem_nil

section Breakdown

variable {stat : StatConfig} {settings : Settings} {defaults : Defaults} {table t : Table}
  {mapping : Mapping} {layer : Option Int} {g : Geometry}
  (ht : table.Inferred) (hname : stat.ByName)
  (hpresent : ∀ c name, mapping.column? c = some name → table.contains name = true)

include ht hname hpresent

/-- With parameters in range, only bins and curves end with a fault. -/
theorem faults_runWith (hsettings : stat.settings .standard layer = .ok settings)
    (hd : defaults.InRange) :
    Faults (runWith .standard stat settings defaults table mapping (.member (.geometry g))
        layer).outcome ↔
      ∃ found, Finds stat.kind settings table mapping (.member (.geometry g)) layer found ∧
        Breaks stat.kind settings defaults table found := by
  have hread := StatConfig.readAs_of_settings hsettings
  -- the two other statistics lay no bins and draw no curves, so nothing breaks them
  have hnone : ∀ kind : StatKind, kind ≠ .bin → kind ≠ .density →
      ¬ ∃ found, Finds kind settings table mapping (.member (.geometry g)) layer found ∧
        Breaks kind settings defaults table found := fun kind hbin hdensity ⟨_, _, h⟩ =>
    h.kind.elim hbin hdensity
  unfold runWith
  cases hkind : stat.kind with
  | identity =>
    exact iff_of_false (not_faults_ok _) (hnone _ (fun h => (nomatch h)) fun h => (nomatch h))
  | summary =>
    exact iff_of_false (contained_summary ht hname hpresent).not_faults
      (hnone _ (fun h => (nomatch h)) fun h => (nomatch h))
  | bin => exact faults_bin ht.toKeyed hpresent hread.ranged hd
  | density => exact faults_density ht.toKeyed hpresent hread.ranged hd (hread.kernel hkind)

/-- **A statistic of an inferred table ends with a fault exactly if something breaks it off.** -/
theorem faults_run (hd : defaults.InRange) :
    Faults (run .standard stat defaults table mapping (.member (.geometry g)) layer).outcome ↔
      Breakdown stat defaults table mapping (.member (.geometry g)) layer := by
  unfold run
  rw [Logged.faults_bind, Logged.outcome_lift, StatConfig.faults_settings
    Toolkit.named_standard (StatConfig.isKey_of_characters hname.kernel)]
  constructor
  -- either reading the settings faults, or running with the settings read
  · rintro ((h | ⟨cause, h, hcause⟩) | ⟨settings, hsettings, h⟩)
    · exact .oversized h
    · exact .unwritten h hcause
    · obtain ⟨found, hfound, h⟩ := (faults_runWith ht hname hpresent hsettings hd).1 h
      exact .broken hsettings hfound h
  · intro h
    cases h with
    | oversized h => exact Or.inl (Or.inl h)
    | unwritten h hcause => exact Or.inl (Or.inr ⟨_, h, hcause⟩)
    | broken hsettings hfound h =>
      exact Or.inr ⟨_, hsettings, (faults_runWith ht hname hpresent hsettings hd).2
        ⟨_, hfound, h⟩⟩

/-! ### Results -/

omit ht hname hpresent in
theorem isKeyed_of_floatRule {ρ : Type} (name : String) (value : ρ → Float) (r : ρ) :
    ((floatRule name value).cell r).isKeyed = true :=
  Aggregate.isKeyed_ofFloat (value r)

omit ht hname hpresent in
theorem keyed_of_bin
    (h : (bin settings defaults table mapping (.member (.geometry g)) layer).outcome = .ok t) :
    t.Keyed := by
  unfold bin at h
  split at h
  · exact nomatch h
  obtain ⟨along, -, h⟩ := Logged.bind_eq_ok.1 h
  obtain ⟨found, -, h⟩ := Logged.bind_eq_ok.1 h
  obtain ⟨edges, -, h⟩ := Logged.bind_eq_ok.1 h
  obtain ⟨division, hdivision, h⟩ := Logged.bind_eq_ok.1 h
  -- a row of a bin has the key of its sample, and the columns computed hold doubles
  refine keyed_of_assemble h (fun block hblock r hr => ?_) ?_
  · obtain ⟨s, hs, rfl⟩ := List.mem_map.1 hblock
    obtain ⟨b, -, rfl⟩ := List.mem_map.1 hr
    exact isKeyed_of_divide hdivision hs
  · simp only [binRules, List.forall_mem_cons, isKeyed_of_floatRule]
    simp

omit ht hname hpresent in
/-- The rows of a curve stand under the key of its sample. -/
theorem key_of_curveBlock {weighing : Weighing} {s : Sample} {rows : List CurveRow}
    (h : curveBlock weighing settings defaults s = .ok (some rows)) :
    ∀ r ∈ rows, r.key = s.key := by
  -- every point of a curve is written with the key of its sample
  unfold curveBlock at h
  split at h
  · exact nomatch h
  obtain ⟨base, -, h⟩ := bind_eq_ok.1 h
  obtain ⟨points, -, h⟩ := bind_eq_ok.1 h
  obtain ⟨width, -, h⟩ := bind_eq_ok.1 h
  obtain ⟨kernel, -, h⟩ := bind_eq_ok.1 h
  obtain ⟨mass, -, h⟩ := bind_eq_ok.1 h
  dsimp only at h
  split at h
  · exact nomatch h
  · cases h
    intro r hr
    obtain ⟨p, -, rfl⟩ := List.mem_map.1 hr
    rfl

omit ht hname hpresent in
theorem keyed_of_density {kit : Toolkit} {kernel : Value}
    (h : (density kit kernel settings defaults table mapping (.member (.geometry g))
      layer).outcome = .ok t) : t.Keyed := by
  unfold density at h
  obtain ⟨along, -, h⟩ := Logged.bind_eq_ok.1 h
  obtain ⟨found, -, h⟩ := Logged.bind_eq_ok.1 h
  split at h
  · exact nomatch h
  obtain ⟨division, hdivision, h⟩ := Logged.bind_eq_ok.1 h
  obtain ⟨blocks, hblocks, h⟩ := Logged.bind_eq_ok.1 h
  -- a row of a curve has the key of its sample, and the columns computed hold doubles
  refine keyed_of_assemble h (fun block hblock r hr => ?_) ?_
  · obtain ⟨s, hs, hrows⟩ := Logged.exists_of_mem_filterMapM hblocks hblock
    rw [key_of_curveBlock hrows r hr]
    exact isKeyed_of_divide hdivision hs
  · simp only [curveRules, List.forall_mem_cons, isKeyed_of_floatRule]
    simp

/-- Whatever a statistic makes of an inferred table is a table of keys. -/
theorem keyed_of_run
    (h : (run .standard stat defaults table mapping (.member (.geometry g)) layer).outcome =
      .ok t) : t.Keyed := by
  unfold run at h
  obtain ⟨settings, hsettings, h⟩ := Logged.bind_eq_ok.1 h
  unfold runWith at h
  split at h
  · cases h
    exact ht.toKeyed
  · exact keyed_of_bin h
  · exact keyed_of_summary ht hname hpresent h
  · exact keyed_of_density h

end Breakdown

end Stat

end PlotGrammar
