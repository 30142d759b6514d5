import PlotGrammar.Proofs.Numbering
import Mathlib.Data.List.Forall2

/-!
# Failing layers are isolated

A build that fails reports problems of four sorts, one after the other. `Build.Isolated` compares
them with those of other plots: the plot with one of the layers alone, and the plot without the
layers that do not pass their preparation. `Build.failing_layers_isolated` says that every build
that fails compares so.

The problems of preparation name the layer they are about, with one exception: where bins or curves
run along a column that has the name of a column they compute, the result would have this name
twice, and the problem is that of a table and names no layer (`Build.repeated_names_not_numbered`).
-/

namespace PlotGrammar

namespace Build

variable {kit : Toolkit} {config : BuildConfig} {plot : Plot}

/-! ### The problems of a build -/

/-- The plot with one of its layers alone. -/
def only (plot : Plot) (layer : Layer) : Plot :=
  { plot with layers := [layer] }

/-- The plot without the layers that do not pass their preparation. -/
def passing (kit : Toolkit) (config : BuildConfig) (plot : Plot) : Plot :=
  { plot with layers := plot.layers.filter (passes kit config.defaults plot.data plot.mapping) }

/-- Where the layers that pass their preparation are in the plot. -/
def positions (kit : Toolkit) (config : BuildConfig) (plot : Plot) : List Nat :=
  (plot.layers.zipIdx.filter fun e => passes kit config.defaults plot.data plot.mapping e.1).map
    (·.2)

/-- The problems of the preparation of all layers. -/
def preparationProblems (kit : Toolkit) (config : BuildConfig) (plot : Plot) :
    Except Failure (List Problem) :=
  (preparations kit config plot).outcome.map fun items => items.flatMap Item.problems

/-- Prepared layers under the numbers they have in a plot, and under those they have when the others
are left out. -/
theorem forall₂_renumbered {items items' : List Item} {positions : List Nat}
    (h : List.Forall₂ (fun a b => ∃ p, a.outcome = .ok p ∧ b.outcome = .ok p) items items')
    (hindices : items.map Item.index = positions)
    (hindices' : items'.map Item.index = List.range' 0 items'.length) :
    List.Forall₂ (Item.Renumbered fun k => (positions.getD k.toNat 0 : Nat)) items items' := by
  obtain ⟨hlength, hpairs⟩ := List.forall₂_iff_get.1 h
  refine List.forall₂_iff_get.2 ⟨hlength, fun k hk hk' => ?_⟩
  obtain ⟨p, ha, hb⟩ := hpairs k hk hk'
  have hnew : (items'.get ⟨k, hk'⟩).index = k := by
    have := congrArg (·[k]?) hindices'
    simpa [hk'] using this
  have hold : (items.get ⟨k, hk⟩).index = positions.getD k 0 := by
    rw [← hindices]
    simp [hk]
  refine ⟨p, ha, hb, ?_⟩
  rw [hnew, hold]
  rfl

/-- What the problems of the layers, of the scales in feeding them, and of the frozen scales have to
do with those of other plots. -/
structure Isolated (kit : Toolkit) (config : BuildConfig) (plot : Plot)
    (own : List (List Problem)) (scales domains : List Problem) : Prop where
  length : own.length = plot.layers.length
  /-- A layer has the problems that it has alone, under its own number. -/
  alone : ∀ (i : Nat) layer, plot.layers[i]? = some layer → ∃ found,
    preparationProblems kit config (only plot layer) = .ok found ∧
      own[i]? = some (found.map (Problem.renumber fun _ => i)) ∧
      (found = [] ↔ passes kit config.defaults plot.data plot.mapping layer = true) ∧
      (found ≠ [] → (run kit config (only plot layer)).outcome =
        .error (.build (rootProblems plot.data ++ found)))
  /-- They name this number, unless they are about names that a result would repeat. -/
  numbered : ∀ (i : Nat) found, own[i]? = some found → ∀ p ∈ found,
    p.number? = some (i : Int) ∨ ∃ names, p = .misuse (.repeatedNames names)
  /-- The scales have the problems that they have without the layers that do not pass, up to the
  numbers. -/
  shared : ∃ found, scales =
      found.map (Problem.renumber fun k => ((positions kit config plot).getD k.toNat 0 : Nat)) ∧
    ∀ all, all = rootProblems plot.data ++ found ++ domains →
      if all = [] then ∃ spec, (run kit config (passing kit config plot)).outcome = .ok spec
      else (run kit config (passing kit config plot)).outcome = .error (.build all)
  /-- The problems in feeding the scales are those of layers that pass, in the order of the
  layers. -/
  scalesOrder : scales.Pairwise NotAfter ∧
    ∀ p ∈ scales, ∃ i ∈ positions kit config plot, p.number? = some (i : Int)
  /-- The problems of the frozen scales are in channel order. -/
  domainsOrder : ∃ cause : Channel → Option LayerCause,
    domains = (Channel.all.filterMap fun c => (cause c).map fun k =>
        Problem.layer ⟨k, none, some c.name⟩) ∧
      ∀ c k, cause c = some k → k = .noLevels c ∨ k = .noFiniteValues c

section Assembly

variable {items : List Item}

/-- Where neither preparing nor feeding ends it, a build looks at all problems together. -/
theorem run_of_steps {found : List Problem}
    (hitems : (preparations kit config plot).outcome = .ok items)
    (hfound : (feed .empty items).2.outcome = .ok found) :
    (run kit config plot).outcome =
      if problems plot.data items found (fedRegistry items).freeze.2 = [] then
        .ok ⟨items.filterMap layerSpec?, (fedRegistry items).freeze.2⟩
      else .error (.build (problems plot.data items found (fedRegistry items).freeze.2)) := by
  rw [outcome_run, hitems]
  change (feed .empty items).2.outcome.bind _ = _
  rw [hfound]
  rfl

theorem preparations_only {layer : Layer} {outcome : Except (List Problem) Prepared}
    (h : (prepare kit config.defaults plot.data plot.mapping 0 layer).outcome = .ok outcome) :
    (preparations kit config (only plot layer)).outcome = .ok [⟨0, layer, outcome⟩] :=
  Logged.bind_eq_ok.2 ⟨outcome, h, rfl⟩

/-- A plot of one layer that does not pass has the problems of this layer, after that of its
root. -/
theorem run_only {layer : Layer} {found : List Problem} (hne : found ≠ [])
    (h : (prepare kit config.defaults plot.data plot.mapping 0 layer).outcome =
      .ok (.error found)) :
    (run kit config (only plot layer)).outcome =
      .error (.build (rootProblems plot.data ++ found)) := by
  have hproblems : problems (only plot layer).data [⟨0, layer, .error found⟩] []
      (fedRegistry [⟨0, layer, .error found⟩]).freeze.2 = rootProblems plot.data ++ found := by
    unfold problems
    rw [List.flatMap_cons, List.flatMap_nil, List.append_nil, List.append_nil]
    exact List.append_nil _
  refine (run_of_steps (preparations_only h) rfl).trans ?_
  rw [hproblems, if_neg fun hnil => hne (List.append_eq_nil_iff.1 hnil).2]

theorem alone_of_preparations (hitems : (preparations kit config plot).outcome = .ok items)
    {i : Nat} {layer : Layer} (hi : plot.layers[i]? = some layer) :
    ∃ found, preparationProblems kit config (only plot layer) = .ok found ∧
      (items.map Item.problems)[i]? = some (found.map (Problem.renumber fun _ => i)) ∧
      (found = [] ↔ passes kit config.defaults plot.data plot.mapping layer = true) ∧
      (found ≠ [] → (run kit config (only plot layer)).outcome =
        .error (.build (rootProblems plot.data ++ found))) := by
  obtain ⟨-, hlayers⟩ := prepareAll_eq_ok hitems
  obtain ⟨outcome, hitem, houtcome⟩ := hlayers i layer hi
  -- the verdict on a layer does not depend on its number, so it is the same at place 0
  rcases verdict kit config.defaults plot.data plot.mapping layer with
    ⟨p, hp⟩ | ⟨ps, hne, -, hps⟩ | ⟨f, hf⟩
  · -- a layer that is prepared at its place is prepared alone
    rw [hp] at houtcome
    cases houtcome
    refine ⟨[], ?_, ?_, iff_of_true rfl (passes_of_outcome (hp 0)), fun h => absurd rfl h⟩
    · unfold preparationProblems
      rw [preparations_only (hp 0)]
      rfl
    · rw [List.getElem?_map, hitem]
      rfl
  · -- its problems are the same ones under the number 0, which is turned back into its own
    rw [hps] at houtcome
    cases houtcome
    have hne' : ps.map (Problem.renumber fun _ => ((0 : Nat) : Int)) ≠ [] := by simpa using hne
    refine ⟨_, ?_, ?_, iff_of_false hne' ?_, fun hfound => run_only hfound (hps 0)⟩
    · unfold preparationProblems
      rw [preparations_only (hps 0)]
      exact congrArg Except.ok (List.append_nil _)
    · rw [List.getElem?_map, hitem, List.map_map, Nat.zero_add]
      refine congrArg some (List.map_congr_left fun p _ => ?_)
      exact (Problem.renumber_renumber (fun _ => i) (fun _ => ((0 : Nat) : Int)) p).symm
    · rw [passes_of_outcome (hps 0)]
      exact Bool.false_ne_true
  · rw [hf] at houtcome
    exact nomatch houtcome

theorem numbered_of_preparations (hitems : (preparations kit config plot).outcome = .ok items)
    {item : Item} (hitem : item ∈ items) {p : Problem} (hp : p ∈ item.problems) :
    p.number? = some (item.index : Int) ∨ ∃ names, p = .misuse (.repeatedNames names) := by
  obtain ⟨-, hprepare⟩ := mem_of_prepareAll hitems hitem
  unfold Item.problems at hp
  rcases verdict kit config.defaults plot.data plot.mapping item.layer with
    ⟨q, hq⟩ | ⟨ps, -, hnumber, hps⟩ | ⟨f, hf⟩
  · rw [← Except.ok.inj ((hq item.index).symm.trans hprepare)] at hp
    exact absurd hp List.not_mem_nil
  · rw [← Except.ok.inj ((hps item.index).symm.trans hprepare)] at hp
    obtain ⟨q, hq, rfl⟩ := List.mem_map.1 hp
    rcases hnumber q hq with hzero | ⟨names, rfl⟩
    · left
      rw [Problem.number?_renumber, hzero]
      rfl
    · exact Or.inr ⟨names, rfl⟩
  · rw [hf] at hprepare
    exact nomatch hprepare

theorem flatMap_problems_eq_nil {items : List Item}
    (h : ∀ item ∈ items, ∃ p, item.outcome = .ok p) :
    items.flatMap Item.problems = [] := by
  refine List.flatMap_eq_nil_iff.2 fun item hitem => ?_
  obtain ⟨p, hp⟩ := h item hitem
  unfold Item.problems
  rw [hp]

/-- The scales and their problems are those of the plot without the layers that do not pass. -/
theorem shared_of_preparations (hitems : (preparations kit config plot).outcome = .ok items)
    {scales : List Problem} (hscales : (feed .empty items).2.outcome = .ok scales) :
    ∃ found, scales =
        found.map (Problem.renumber fun k => ((positions kit config plot).getD k.toNat 0 : Nat)) ∧
      ∀ all, all = rootProblems plot.data ++ found ++
          (fedRegistry items).freeze.2.filterMap scaleProblem? →
        if all = [] then ∃ spec, (run kit config (passing kit config plot)).outcome = .ok spec
        else (run kit config (passing kit config plot)).outcome = .error (.build all) := by
  -- the plot of the layers that pass is prepared to the same items under new numbers
  obtain ⟨items', hitems', hsame, hindices⟩ := prepareAll_filter_passes hitems 0
  have hnumbers : items'.map Item.index = List.range' 0 items'.length := by
    rw [indices_of_prepareAll hitems', ← (prepareAll_eq_ok hitems').1]
  obtain ⟨hregistry, houtcome⟩ := feed_renumber (forall₂_renumbered hsame hindices hnumbers) .empty
  rw [feed_filter_passed] at hregistry houtcome
  rw [houtcome] at hscales
  obtain ⟨found, hfound, hscales⟩ := bind_eq_ok.1 hscales
  refine ⟨found, (Except.ok.inj hscales).symm, fun all hall => ?_⟩
  -- no layer that is left has problems of its own
  have hnone : items'.flatMap Item.problems = [] := by
    refine flatMap_problems_eq_nil fun item hitem => ?_
    obtain ⟨k, hk, rfl⟩ := List.getElem_of_mem hitem
    obtain ⟨hlength, hpairs⟩ := List.forall₂_iff_get.1 hsame
    obtain ⟨p, -, hp⟩ := hpairs k (hlength ▸ hk) hk
    exact ⟨p, hp⟩
  -- with none of their own, the problems are those of the root, the feeding and the scales
  have hproblems : problems (passing kit config plot).data items' found
      (fedRegistry items').freeze.2 = all := by
    unfold problems fedRegistry
    rw [hall, hnone, List.append_nil, ← hregistry]
    rfl
  have hrun : (run kit config (passing kit config plot)).outcome =
      if all = [] then .ok ⟨items'.filterMap layerSpec?, (fedRegistry items').freeze.2⟩
      else .error (.build all) := by
    have hprepared : (preparations kit config (passing kit config plot)).outcome = .ok items' :=
      hitems'
    refine (run_of_steps hprepared hfound).trans ?_
    rw [hproblems]
  split
  · next hnil => exact ⟨_, hrun.trans (if_pos hnil)⟩
  · next hne => exact hrun.trans (if_neg hne)

theorem domains_of_feed (items : List Item) :
    ∃ cause : Channel → Option LayerCause,
      (fedRegistry items).freeze.2.filterMap scaleProblem? =
          (Channel.all.filterMap fun c => (cause c).map fun k =>
            Problem.layer ⟨k, none, some c.name⟩) ∧
        ∀ c k, cause c = some k → k = .noLevels c ∨ k = .noFiniteValues c := by
  refine ⟨fun c => ((fedRegistry items).states c).bind fun s =>
    if (s.freeze c).valid then none
    else some (if (s.freeze c).isDiscrete then .noLevels c else .noFiniteValues c), ?_, ?_⟩
  · -- the frozen scales come in channel order, so their problems do
    rw [(reflects_fedRegistry items).freeze_eq]
    unfold ScaleRegistry.snapshot
    rw [List.filterMap_filterMap]
    refine congrArg (List.filterMap · Channel.all) (funext fun c => ?_)
    dsimp only
    cases (fedRegistry items).states c with
    | none => rfl
    | some s =>
      rw [Option.map_some, Option.bind_some, Option.bind_some]
      unfold scaleProblem?
      rw [ScaleRegistry.channel_freeze]
      split <;> rfl
  -- only these two causes are ever reported of a scale
  · intro c k hk
    obtain ⟨s, -, hk⟩ := Option.bind_eq_some_iff.1 hk
    split at hk
    · exact nomatch hk
    · cases hk
      split
      · exact Or.inl rfl
      · exact Or.inr rfl

end Assembly

/-- **Failing layers are isolated.** A build that fails reports the empty root, then the problems of
the preparation layer by layer, then those of feeding the scales, then those of the frozen scales.
The problems of a layer are those it has alone. The problems of the scales are those of the plot
without the layers that do not pass their preparation. -/
theorem failing_layers_isolated (kit : Toolkit) (config : BuildConfig) (plot : Plot)
    (ps : List Problem) (h : (run kit config plot).outcome = .error (.build ps)) :
    ∃ own scales domains, ps = rootProblems plot.data ++ own.flatten ++ scales ++ domains ∧
      Isolated kit config plot own scales domains := by
  rw [outcome_run] at h
  -- preparing and feeding end with faults only, so the list is put together after both
  rcases bind_eq_error.1 h with h | ⟨items, hitems, h⟩
  · obtain ⟨f, hf⟩ := fault_of_prepareAll h
    exact nomatch hf
  rcases bind_eq_error.1 h with h | ⟨scales, hscales, h⟩
  · obtain ⟨f, hf⟩ := (fedLayers_feed .empty items).fault_of_error rfl h
    exact nomatch hf
  split at h
  · exact nomatch h
  cases h
  have hindices := indices_of_prepareAll hitems
  refine ⟨items.map Item.problems, scales, _, rfl, ?_, fun i layer hi =>
    alone_of_preparations hitems hi, fun i found hfound p hp => ?_,
    shared_of_preparations hitems hscales, ⟨pairwise_of_feed hscales ?_, fun p hp => ?_⟩,
    domains_of_feed items⟩
  -- one list of problems for each layer
  · rw [List.length_map]
    exact (prepareAll_eq_ok hitems).1
  · rw [List.getElem?_map] at hfound
    obtain ⟨item, hitem, rfl⟩ := Option.map_eq_some_iff.1 hfound
    have hlt : i < plot.layers.length := by
      rw [← (prepareAll_eq_ok hitems).1]
      exact (List.getElem?_eq_some_iff.1 hitem).1
    -- no layer is skipped while preparing, so the item at a place has its number
    have hindex : item.index = i := by
      have := congrArg (·[i]?) hindices
      simpa [hitem, List.getElem?_range', hlt] using this
    rw [← hindex]
    exact numbered_of_preparations hitems (List.mem_of_getElem? hitem) hp
  · rw [← List.pairwise_map, hindices]
    exact List.pairwise_lt_range'
  · obtain ⟨item, hitem, hpassed, hnumber⟩ := number?_of_mem_feed hscales hp
    obtain ⟨items', -, -, hpositions⟩ := prepareAll_filter_passes hitems 0
    refine ⟨item.index, ?_, hnumber⟩
    unfold positions
    rw [← hpositions]
    exact List.mem_map_of_mem (List.mem_filter.2 ⟨hitem, hpassed⟩)

/-- Three layers: one refers to a column that is not there, and one has a column on the vertical
axis that is of another kind than that of the layer before it. -/
def clashingPlot : Plot where
  data :=
    { fields := [⟨.text "v", .continuous, ⟨.int, [.int 1, .int 2]⟩⟩,
        ⟨.text "g", .discrete, ⟨.text, [.text "a", .text "b"]⟩⟩]
      height := 2
      computedBy := none
      uniform := by decide
      distinct := by decide }
  mapping := (Mapping.empty.set .x (.column "v")).set .y (.column "v")
  layers := [⟨.point, some (Mapping.empty.set .y (.column "w")), none, {}, [], .null⟩,
    ⟨.point, none, none, {}, [], .null⟩,
    ⟨.point, some (Mapping.empty.set .y (.column "g")), none, {}, [], .null⟩]
  keeps := by
    intro c
    cases c <;> simp [Mapping.set]

/-- The problems of a build that fails, if it does. -/
def reported? (outcome : Except Failure RenderSpec) : Option (List Problem) :=
  match outcome with
  | .error (.build ps) => some ps
  | _ => none

theorem reported?_eq_some {outcome : Except Failure RenderSpec} {ps : List Problem} :
    reported? outcome = some ps ↔ outcome = .error (.build ps) := by
  unfold reported?
  split
  · next qs => exact ⟨fun h => by cases h; rfl, fun h => by cases h; rfl⟩
  · next hne => exact ⟨fun h => (nomatch h), fun h => absurd h (hne ps)⟩

/-- The failing layers of the plot with the clash are isolated. -/
theorem failing_layers_isolated_clash :
    ∃ ps, (run .standard {} clashingPlot).outcome = .error (.build ps) ∧
      ∃ own scales domains,
        ps = rootProblems clashingPlot.data ++ own.flatten ++ scales ++ domains ∧
          Isolated .standard {} clashingPlot own scales domains := by
  have hsome : (reported? (run .standard {} clashingPlot).outcome).isSome = true := by
    decide +kernel
  obtain ⟨ps, hps⟩ := Option.isSome_iff_exists.1 hsome
  have h := reported?_eq_some.1 hps
  exact ⟨ps, h, failing_layers_isolated .standard {} clashingPlot ps h⟩

/-- A histogram of a column that has the name of the counts. -/
def countPlot : Plot where
  data :=
    { fields := [⟨.text "count", .continuous, ⟨.int, [.int 1, .int 2]⟩⟩]
      height := 2
      computedBy := none
      uniform := by decide
      distinct := by decide }
  mapping := Mapping.empty.set .x (.column "count")
  layers := [⟨.histogram, none, none, { kind := .bin, bins := .int 1 }, [], .null⟩]
  keeps := by
    intro c
    cases c <;> simp [Mapping.set]

/-- The problems a layer has alone do not always name it in the problems of the plot. -/
theorem repeated_names_not_numbered :
    ¬ ∀ (kit : Toolkit) (config : BuildConfig) (plot : Plot) (ps : List Problem),
      (run kit config plot).outcome = .error (.build ps) →
        ∀ (i : Nat) layer, plot.layers[i]? = some layer → ∀ found,
          preparationProblems kit config (only plot layer) = .ok found →
            ∀ p ∈ found.map (Problem.renumber fun _ => i),
              p ∈ ps ∧ p.number? = some (i : Int) := by
  intro hall
  have hreported : (reported? (run .standard {} countPlot).outcome).isSome = true := by
    decide +kernel
  have hfound : ((preparationProblems .standard {} countPlot).toOption.map fun found =>
      found.map Problem.number?) = some [none] := by decide +kernel
  obtain ⟨ps, hps⟩ := Option.isSome_iff_exists.1 hreported
  obtain ⟨found, hsome, hnumbers⟩ := Option.map_eq_some_iff.1 hfound
  have hprepared : preparationProblems .standard {} countPlot = .ok found := by
    cases h : preparationProblems .standard {} countPlot with
    | ok found' =>
      rw [h] at hsome
      exact congrArg Except.ok (Option.some.inj hsome)
    | error e =>
      rw [h] at hsome
      exact nomatch hsome
  have hnamed := hall .standard {} countPlot ps (reported?_eq_some.1 hps) 0 _ rfl found hprepared
  -- the only problem names no layer
  obtain ⟨p, rfl⟩ : ∃ p, found = [p] :=
    List.length_eq_one_iff.1 (by simpa using congrArg List.length hnumbers)
  have hnone : p.number? = none := by simpa using hnumbers
  obtain ⟨-, hnumber⟩ := hnamed _ List.mem_cons_self
  rw [Problem.number?_renumber, hnone] at hnumber
  exact nomatch hnumber

end Build

end PlotGrammar
