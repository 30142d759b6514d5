import PlotGrammar.Proofs.Feeding

/-!
# Building a plot

A build prepares the layers, feeds the scales and lists what is wrong. Only a fault keeps it from
going through all of this; `Build.outcome_run` is its outcome as a chain of these steps.

`Build.Built` is what every later result about a build that succeeds starts from: the items of the
layers, the calls that fed the scales, and that nothing went wrong with either. `Build.built_of_run`
derives it.
-/

namespace PlotGrammar

namespace Build

open ScaleRegistry (Attempt Reflects readingsFor feeding columnCells)

variable {kit : Toolkit} {config : BuildConfig} {plot : Plot}

/-! ### The layers of a plot -/

section PrepareAll

variable {defaults : Stat.Defaults} {data : Table} {root : Mapping} {layers : List Layer}

/-- Every layer is prepared by itself, under its own number. -/
theorem prepareAll_eq_ok {index : Nat} {items : List Item}
    (h : (prepareAll kit defaults data root index layers).outcome = .ok items) :
    items.length = layers.length ∧ ∀ i layer, layers[i]? = some layer →
      ∃ outcome, items[i]? = some ⟨index + i, layer, outcome⟩ ∧
        (prepare kit defaults data root (index + i) layer).outcome = .ok outcome := by
  -- induction on the layers, whose number grows by one from step to step
  induction layers generalizing index items with
  | nil =>
    cases h
    exact ⟨rfl, fun i layer hi => by simp at hi⟩
  | cons first rest ih =>
    unfold prepareAll at h
    obtain ⟨outcome, houtcome, h⟩ := Logged.bind_eq_ok.1 h
    obtain ⟨others, hothers, h⟩ := Logged.bind_eq_ok.1 h
    cases h
    obtain ⟨hlength, hlayers⟩ := ih hothers
    refine ⟨congrArg (· + 1) hlength, fun i layer hi => ?_⟩
    cases i with
    | zero =>
      cases hi
      exact ⟨outcome, rfl, houtcome⟩
    | succ i =>
      obtain ⟨o, hitem, ho⟩ := hlayers i layer hi
      -- the number that the rest starts at already counts the first layer
      rw [Nat.add_assoc, Nat.add_comm 1 i] at hitem ho
      exact ⟨o, hitem, ho⟩

/-- Only a fault ends the preparation of the layers. -/
theorem fault_of_prepareAll {index : Nat} {e : Failure}
    (h : (prepareAll kit defaults data root index layers).outcome = .error e) :
    ∃ f, e = .fault f := by
  induction layers generalizing index with
  | nil => exact nomatch h
  | cons first rest ih =>
    unfold prepareAll at h
    rcases Logged.bind_eq_error.1 h with h | ⟨_, -, h⟩
    · exact fault_of_prepare h
    · rcases Logged.bind_eq_error.1 h with h | ⟨_, -, h⟩
      · exact ih h
      · exact nomatch h

/-- Every item is a layer with the outcome of its preparation. -/
theorem mem_of_prepareAll {items : List Item}
    (h : (prepareAll kit defaults data root 0 layers).outcome = .ok items) {item : Item}
    (hitem : item ∈ items) :
    layers[item.index]? = some item.layer ∧
      (prepare kit defaults data root item.index item.layer).outcome = .ok item.outcome := by
  obtain ⟨hlength, hlayers⟩ := prepareAll_eq_ok h
  obtain ⟨i, hi, hget⟩ := List.getElem_of_mem hitem
  obtain ⟨layer, hlayer⟩ : ∃ layer, layers[i]? = some layer :=
    ⟨_, List.getElem?_eq_getElem (hlength ▸ hi)⟩
  obtain ⟨outcome, hsome, houtcome⟩ := hlayers i _ hlayer
  rw [List.getElem?_eq_getElem hi, hget] at hsome
  cases Option.some.inj hsome
  rw [Nat.zero_add] at houtcome ⊢
  exact ⟨hlayer, houtcome⟩

end PrepareAll

/-! ### The outcome of a build -/

/-- The preparation of the layers of a plot. -/
def preparations (kit : Toolkit) (config : BuildConfig) (plot : Plot) : Logged (List Item) :=
  prepareAll kit config.defaults plot.data plot.mapping 0 plot.layers

/-- The registry that the layers have fed. -/
def fedRegistry (items : List Item) : ScaleRegistry :=
  (feed .empty items).1

theorem outcome_run :
    (run kit config plot).outcome =
      (preparations kit config plot).outcome.bind fun items =>
        (feed .empty items).2.outcome.bind fun found =>
          if problems plot.data items found (fedRegistry items).freeze.2 = [] then
            .ok ⟨items.filterMap layerSpec?, (fedRegistry items).freeze.2⟩
          else .error (.build (problems plot.data items found (fedRegistry items).freeze.2)) := by
  unfold run fedRegistry
  rw [Logged.outcome_bind]
  refine congrArg (Except.bind _) (funext fun items => ?_)
  rw [Logged.outcome_bind]
  refine congrArg (Except.bind _) (funext fun found => ?_)
  dsimp only
  cases problems plot.data items found (feed .empty items).1.freeze.2 with
  | nil => rfl
  | cons first rest => rfl

theorem rootProblems_eq_nil {data : Table} : rootProblems data = [] ↔ data.isEmpty = false := by
  unfold rootProblems
  cases data.isEmpty with
  | true => exact ⟨fun h => (nomatch h), fun h => (nomatch h)⟩
  | false => exact ⟨fun _ => rfl, fun _ => rfl⟩

theorem scaleProblem?_eq_none {s : Scale} : scaleProblem? s = none ↔ s.valid = true := by
  unfold scaleProblem?
  cases s.valid with
  | true => exact ⟨fun _ => rfl, fun _ => rfl⟩
  | false => exact ⟨fun h => (nomatch h), fun h => (nomatch h)⟩

/-- Nothing is wrong when the root has rows, no layer and no call has a problem, and every scale has
a domain. -/
theorem problems_eq_nil {data : Table} {items : List Item} {found : List Problem}
    {scales : List Scale} :
    problems data items found scales = [] ↔
      data.isEmpty = false ∧ (∀ item ∈ items, item.problems = []) ∧ found = [] ∧
        ∀ s ∈ scales, s.valid = true := by
  unfold problems
  rw [List.append_eq_nil_iff, List.append_eq_nil_iff, List.append_eq_nil_iff, rootProblems_eq_nil,
    List.flatMap_eq_nil_iff, List.filterMap_eq_nil_iff, and_assoc, and_assoc]
  simp only [scaleProblem?_eq_none]

/-- What a build that succeeds has gone through: its layers were prepared, offered their columns to
the scales in the attempts, and none of these failed. -/
structure Built (kit : Toolkit) (config : BuildConfig) (plot : Plot) (spec : RenderSpec)
    (items : List Item) (attempts : List Attempt) : Prop where
  rows : plot.data.isEmpty = false
  prepared : (preparations kit config plot).outcome = .ok items
  ready : ∀ item ∈ items, ∃ p, item.outcome = .ok p
  layers : spec.layers = items.filterMap layerSpec?
  offered : ∀ item ∈ items, ∀ p, item.outcome = .ok p →
    ∀ c name, p.mapping.column? c = some name →
      ∃ a ∈ attempts, a.channel = c ∧ a.table = p.data ∧ a.mapping = p.mapping
  made : ∀ a ∈ attempts, ∃ item ∈ items, ∃ p name, item.outcome = .ok p ∧ a.table = p.data ∧
    a.mapping = p.mapping ∧ p.mapping.column? a.channel = some name
  accepted : ∀ a ∈ attempts, a.outcome = .ok ()
  reflects : ∃ r, Reflects r attempts ∧ spec.scales = r.snapshot
  valid : ∀ s ∈ spec.scales, s.valid = true

/-- The item of a layer that was prepared without problems has a result. -/
theorem exists_ok_of_problems {items : List Item}
    (h : (preparations kit config plot).outcome = .ok items)
    {item : Item} (hitem : item ∈ items) (hp : item.problems = []) :
    ∃ p, item.outcome = .ok p := by
  obtain ⟨-, hprepare⟩ := mem_of_prepareAll h hitem
  cases ho : item.outcome with
  | ok p => exact ⟨p, rfl⟩
  | error ps =>
    rw [ho] at hprepare
    unfold Item.problems at hp
    rw [ho] at hp
    exact absurd hp (ne_nil_of_prepare hprepare)

/-- Feeding a new registry gives scales that reflect its calls. -/
theorem reflects_fedRegistry (items : List Item) :
    Reflects (fedRegistry items) (feedAttempts .empty items) :=
  (fedLayers_feed .empty items).reflects Reflects.empty

theorem built_of_run {spec : RenderSpec} (h : (run kit config plot).outcome = .ok spec) :
    ∃ items, Built kit config plot spec items (feedAttempts .empty items) := by
  rw [outcome_run] at h
  obtain ⟨items, hitems, h⟩ := bind_eq_ok.1 h
  obtain ⟨found, hfound, h⟩ := bind_eq_ok.1 h
  split at h
  · next hnone =>
    cases h
    obtain ⟨hrows, hready, hnothing, hvalid⟩ := problems_eq_nil.1 hnone
    obtain ⟨hproblems, hoffered, hends⟩ := (fedLayers_feed _ _).of_ok hfound
    have hreflects := reflects_fedRegistry items
    -- no call has a problem, and a call without one has ended well
    refine ⟨items, hrows, hitems, fun item hitem => exists_ok_of_problems hitems hitem
      (hready item hitem), rfl, hoffered, fun a ha => (fedLayers_feed _ _).mem ha, fun a ha => ?_,
      ⟨fedRegistry items, hreflects, hreflects.freeze_eq⟩, hvalid⟩
    refine hends a ha ?_
    rw [hnothing, eq_comm, List.filterMap_eq_nil_iff] at hproblems
    exact Option.map_eq_none_iff.1 (hproblems a ha)
  · exact nomatch h

end Build

end PlotGrammar
