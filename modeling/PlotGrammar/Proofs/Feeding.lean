import PlotGrammar.Proofs.Collection
import PlotGrammar.Proofs.Preparation

/-!
# Feeding the scales of a plot

The layers that could be prepared feed one registry, one layer after the other and within a layer
one channel after the other. `Build.feedAttempts` lists the calls on channels that this comes to, so
that what `ScaleRegistry.Reflects` says of a run of calls holds of the registry of a build
(`Build.FedLayers.reflects`).

`Build.FedLayers` says once what feeding layers can do, and the facts are by induction on it. If
nothing ends the feeding, every column of a prepared layer has been offered to its scale, and the
problems are those of the calls (`Build.FedLayers.of_ok`).
-/

namespace PlotGrammar

namespace Build

open ScaleRegistry (Attempt Reflects FedAll attemptsAll)

/-- The calls on channels that feeding layers comes to. -/
def feedAttempts : ScaleRegistry → List Item → List Attempt
  | _, [] => []
  | r, item :: rest =>
    match item.outcome with
    | .error _ => feedAttempts r rest
    | .ok p =>
      let fed := r.accumulateLayer p.data p.mapping (some item.index)
      let own := attemptsAll p.data p.mapping (some item.index) r (p.mapping.columns.map (·.1))
      match fed.2.outcome with
      | .error _ => own
      | .ok _ => own ++ feedAttempts fed.1 rest

/-- Everything that feeding layers can do: the registry after it, how it ends, and the calls on
channels that it comes to. -/
inductive FedLayers : ScaleRegistry → List Item → ScaleRegistry → Except Failure (List Problem) →
    List Attempt → Prop
  /-- No layer is left. -/
  | done (r : ScaleRegistry) : FedLayers r [] r (.ok []) []
  /-- A layer with problems is passed over. -/
  | passed {r r' : ScaleRegistry} {item : Item} {rest : List Item} {ps : List Problem}
      {result : Except Failure (List Problem)} {attempts : List Attempt}
      (ho : item.outcome = .error ps) (hrest : FedLayers r rest r' result attempts) :
      FedLayers r (item :: rest) r' result attempts
  /-- The channels of a layer end the feeding. -/
  | ended {r r' : ScaleRegistry} {item : Item} {p : Prepared} {e : Failure} {own : List Attempt}
      (rest : List Item) (ho : item.outcome = .ok p)
      (hown : FedAll p.data p.mapping (some item.index) r (p.mapping.columns.map (·.1)) r'
        (.error e) own) :
      FedLayers r (item :: rest) r' (.error e) own
  /-- The channels of a layer are fed, and the feeding goes on. -/
  | next {r r' r'' : ScaleRegistry} {item : Item} {rest : List Item} {p : Prepared}
      {found : List LayerProblem} {result : Except Failure (List Problem)}
      {own others : List Attempt} (ho : item.outcome = .ok p)
      (hown : FedAll p.data p.mapping (some item.index) r (p.mapping.columns.map (·.1)) r'
        (.ok found) own)
      (hrest : FedLayers r' rest r'' result others) :
      FedLayers r (item :: rest) r'' (result.map (found.map Problem.layer ++ ·)) (own ++ others)

/-- Feeding layers does this. -/
theorem fedLayers_feed (r : ScaleRegistry) (items : List Item) :
    FedLayers r items (feed r items).1 (feed r items).2.outcome (feedAttempts r items) := by
  induction items generalizing r with
  | nil => exact .done r
  | cons item rest ih =>
    unfold feed feedAttempts
    cases ho : item.outcome with
    | error ps => exact .passed ho (ih r)
    | ok p =>
      have hown := ScaleRegistry.fedAll_accumulateAll p.data p.mapping (some item.index) r
        (p.mapping.columns.map (·.1))
      dsimp only [ScaleRegistry.accumulateLayer]
      generalize ScaleRegistry.accumulateAll p.data p.mapping (some item.index) r
        (p.mapping.columns.map (·.1)) = fed at hown ⊢
      obtain ⟨r', outcome, events⟩ := fed
      cases outcome with
      | error e => exact .ended rest ho hown
      | ok found => exact .next ho hown (ih r')

namespace FedLayers

variable {r r' : ScaleRegistry} {items : List Item} {result : Except Failure (List Problem)}
  {attempts : List Attempt}

/-- The registry that layers have fed holds what their calls have made of the scales. -/
theorem reflects (h : FedLayers r items r' result attempts) {before : List Attempt}
    (hr : Reflects r before) : Reflects r' (before ++ attempts) := by
  induction h generalizing before with
  | done r =>
    rw [List.append_nil]
    exact hr
  | passed ho hrest ih => exact ih hr
  | ended rest ho hown => exact hown.reflects hr
  | next ho hown hrest ih =>
    have := ih (hown.reflects hr)
    rwa [List.append_assoc] at this

/-- Every call is made for a column of a prepared layer. -/
theorem mem (h : FedLayers r items r' result attempts) {a : Attempt} (ha : a ∈ attempts) :
    ∃ item ∈ items, ∃ p name, item.outcome = .ok p ∧ a.table = p.data ∧ a.mapping = p.mapping ∧
      p.mapping.column? a.channel = some name := by
  induction h with
  | done => exact absurd ha List.not_mem_nil
  | passed ho hrest ih =>
    obtain ⟨item, hitem, hcall⟩ := ih ha
    exact ⟨item, List.mem_cons_of_mem _ hitem, hcall⟩
  | ended rest ho hown =>
    obtain ⟨ht, hm, hc⟩ := hown.mem ha
    obtain ⟨name, hname⟩ := Mapping.mem_columns_map_fst.1 hc
    exact ⟨_, List.mem_cons_self, _, name, ho, ht, hm, hname⟩
  | next ho hown hrest ih =>
    rcases List.mem_append.1 ha with ha | ha
    · obtain ⟨ht, hm, hc⟩ := hown.mem ha
      obtain ⟨name, hname⟩ := Mapping.mem_columns_map_fst.1 hc
      exact ⟨_, List.mem_cons_self, _, name, ho, ht, hm, hname⟩
    · obtain ⟨item, hitem, hcall⟩ := ih ha
      exact ⟨item, List.mem_cons_of_mem _ hitem, hcall⟩

/-- A feeding that nothing ends has offered every column of a prepared layer to its scale, and gives
the problems of all calls. -/
theorem of_ok (h : FedLayers r items r' result attempts) {found : List Problem}
    (hok : result = .ok found) :
    found = attempts.filterMap (fun a => a.problem?.map Problem.layer) ∧
      (∀ item ∈ items, ∀ p, item.outcome = .ok p →
        ∀ c name, p.mapping.column? c = some name →
          ∃ a ∈ attempts, a.channel = c ∧ a.table = p.data ∧ a.mapping = p.mapping) ∧
      ∀ a ∈ attempts, a.problem? = none → a.outcome = .ok () := by
  -- induction on the calls that have been made, layer by layer
  induction h generalizing found with
  | done =>
    cases hok
    exact ⟨rfl, fun item hitem => absurd hitem List.not_mem_nil,
      fun a ha => absurd ha List.not_mem_nil⟩
  | passed ho hrest ih =>
    obtain ⟨hfound, hoffered, hends⟩ := ih hok
    refine ⟨hfound, fun item hitem p hp => ?_, hends⟩
    rcases List.mem_cons.1 hitem with rfl | hitem
    · rw [ho] at hp
      exact nomatch hp
    · exact hoffered item hitem p hp
  | ended => exact nomatch hok
  | next ho hown hrest ih =>
    obtain ⟨others, hothers, hfound⟩ := bind_eq_ok.1 hok
    obtain ⟨hproblems, hoffered, hends⟩ := ih hothers
    obtain ⟨hownProblems, hchannels, hownEnds⟩ := hown.of_ok rfl
    cases hfound
    refine ⟨?_, fun item hitem q hq c name hc => ?_, fun a ha hp => ?_⟩
    · rw [hownProblems, hproblems, List.filterMap_append, List.map_filterMap]
    · rcases List.mem_cons.1 hitem with rfl | hitem
      · -- the columns of this layer have been offered by its own calls
        obtain rfl := Except.ok.inj (ho.symm.trans hq)
        have hmem := Mapping.mem_columns_map_fst.2 ⟨name, hc⟩
        rw [← hchannels] at hmem
        obtain ⟨a, ha, rfl⟩ := List.mem_map.1 hmem
        obtain ⟨ht, hm, -⟩ := hown.mem ha
        exact ⟨a, List.mem_append_left _ ha, rfl, ht, hm⟩
      -- those of a later layer have been offered after them
      · obtain ⟨a, ha, hcall⟩ := hoffered item hitem q hq c name hc
        exact ⟨a, List.mem_append_right _ ha, hcall⟩
    · rcases List.mem_append.1 ha with ha | ha
      · exact hownEnds a ha hp
      · exact hends a ha hp

/-- While the scales are not frozen, only a fault ends the feeding of layers. -/
theorem fault_of_error (h : FedLayers r items r' result attempts) (hr : r.frozen = none)
    {e : Failure} (herror : result = .error e) : ∃ f, e = .fault f := by
  induction h with
  | done => exact nomatch herror
  | passed ho hrest ih => exact ih hr herror
  | ended rest ho hown =>
    cases herror
    exact hown.fault_of_error hr rfl
  | next ho hown hrest ih =>
    rcases bind_eq_error.1 herror with herror | ⟨_, _, herror⟩
    · exact ih (hown.frozen_eq.trans hr) herror
    · exact nomatch herror

end FedLayers

end Build

end PlotGrammar
