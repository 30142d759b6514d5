import PlotGrammar.Proofs.Building

/-!
# What a specification promises

A specification has the layers of its plot, in their order. `Build.Built.scale` is the fact about
the scales that everything rests on: the column behind a channel of a layer is one of the readings
of the scale behind the channel, so it has the kind of this scale.

`Build.spec_wellFormed` collects what holds of every layer, and is what a renderer may rely on.
-/

namespace PlotGrammar

namespace Build

open ScaleRegistry (Attempt Reflects readingsFor feeding columnCells)

variable {kit : Toolkit} {config : BuildConfig} {plot : Plot} {spec : RenderSpec}
  {items : List Item} {attempts : List Attempt}

/-! ### The scale behind a channel -/

theorem scale?_congr {c d : Channel} (h : c.scaleChannel = d.scaleChannel) :
    spec.scale? c = spec.scale? d := by
  unfold RenderSpec.scale?
  rw [h]

theorem channel_of_scale? {c : Channel} {s : Scale} (h : spec.scale? c = some s) :
    s.channel = c.scaleChannel := by
  simpa using List.find?_some h

/-- Every scale is what the calls have given to it. -/
theorem Built.summarizes (h : Built kit config plot spec items attempts) {s : Scale}
    (hs : s ∈ spec.scales) : s.Summarizes (readingsFor s.channel attempts) := by
  obtain ⟨r, hr, hscales⟩ := h.reflects
  rw [hscales] at hs
  exact hr.summarizes hs

/-- A channel that is bound to a column has a scale; the column is of its kind, and the scale has
read the whole of it, with the edges of its bins. -/
theorem Built.scale (h : Built kit config plot spec items attempts) {item : Item} {p : Prepared}
    (hitem : item ∈ items) (hp : item.outcome = .ok p) {c : Channel} {name : String}
    (hc : p.mapping.column? c = some name) :
    ∃ s columns, spec.scale? c = some s ∧ s.channel = c.scaleChannel ∧ s.valid = true ∧
      p.data.kind? name = some s.kind ∧
      (feeding p.data name).mapM (columnCells p.data s.kind) = .ok columns ∧
      s.Summarizes (readingsFor c.scaleChannel attempts) ∧
      ⟨s.kind, columns.flatten⟩ ∈ readingsFor c.scaleChannel attempts := by
  obtain ⟨r, hr, hscales⟩ := h.reflects
  obtain ⟨a, ha, rfl, htable, hmapping⟩ := h.offered item hitem p hp c name hc
  rw [← hmapping] at hc
  obtain ⟨kind, columns, hk, hread, hreading⟩ := hr.reading_of_accepted ha (h.accepted a ha) hc
  have hmem : ⟨kind, columns.flatten⟩ ∈ readingsFor a.channel.scaleChannel attempts :=
    ScaleRegistry.mem_readingsFor.2 ⟨a, ha, rfl, hreading⟩
  -- the scale is there because something was read for its channel
  have hchannel : a.channel.scaleChannel ∈ spec.scales.map Scale.channel := by
    rw [hscales, hr.channels]
    refine List.mem_filter.2 ⟨Channel.mem_all _, ?_⟩
    cases hnil : readingsFor a.channel.scaleChannel attempts with
    | nil =>
      rw [hnil] at hmem
      exact absurd hmem List.not_mem_nil
    | cons x xs => rfl
  obtain ⟨s₀, hs₀, hs₀c⟩ := List.mem_map.1 hchannel
  -- it is found under its channel, and it is the only one there
  have hfind : (spec.scale? a.channel).isSome = true := by
    unfold RenderSpec.scale?
    rw [List.find?_isSome]
    exact ⟨s₀, hs₀, by simpa using hs₀c⟩
  obtain ⟨s, hs⟩ := Option.isSome_iff_exists.1 hfind
  have hsmem : s ∈ spec.scales := List.mem_of_find?_eq_some hs
  have hsc : s.channel = a.channel.scaleChannel := channel_of_scale? hs
  have hsum : s.Summarizes (readingsFor a.channel.scaleChannel attempts) := by
    rw [← hsc]
    exact h.summarizes hsmem
  obtain rfl : kind = s.kind := hsum.kind _ hmem
  rw [← htable]
  exact ⟨s, columns, hs, hsc, h.valid s hsmem, hk, hread, hsum, hmem⟩

/-- What a scale has read are whole columns of prepared layers, with the edges of their bins. -/
theorem Built.source_of_reading (h : Built kit config plot spec items attempts) {target : Channel}
    {x : Reading} (hx : x ∈ readingsFor target attempts) :
    ∃ item ∈ items, ∃ p c column columns, item.outcome = .ok p ∧ c.scaleChannel = target ∧
      p.mapping.column? c = some column ∧ p.data.kind? column = some x.kind ∧
      (feeding p.data column).mapM (columnCells p.data x.kind) = .ok columns ∧
      x.cells = columns.flatten := by
  obtain ⟨r, hr, -⟩ := h.reflects
  obtain ⟨a, ha, hchannel, hreading⟩ := ScaleRegistry.mem_readingsFor.1 hx
  obtain ⟨item, hitem, p, column, hout, htable, hmapping, hc⟩ := h.made a ha
  rw [← hmapping] at hc
  obtain ⟨kind, columns, hkind, hread, hgiven⟩ := hr.reading_of_accepted ha (h.accepted a ha) hc
  obtain rfl : x = ⟨kind, columns.flatten⟩ := Option.some.inj (hreading.symm.trans hgiven)
  rw [hmapping] at hc
  rw [htable] at hkind hread
  exact ⟨item, hitem, p, a.channel, column, columns, hout, hchannel, hc, hkind, hread, rfl⟩

/-! ### The layers of a specification -/

/-- A layer of a specification is what the preparation of a layer of the plot gave. -/
structure Draws (item : Item) (p : Prepared) (drawn : LayerSpec) : Prop where
  outcome : item.outcome = .ok p
  index : drawn.index = item.index
  geometry : drawn.geometry = item.layer.geometry
  stat : drawn.stat = item.layer.stat
  name : drawn.name = item.layer.name
  mapping : drawn.mapping = p.mapping
  data : drawn.data = p.data

theorem draws_layerSpec {item : Item} {p : Prepared} (h : item.outcome = .ok p) :
    ∃ drawn, layerSpec? item = some drawn ∧ Draws item p drawn := by
  unfold layerSpec?
  rw [h]
  exact ⟨_, rfl, h, rfl, rfl, rfl, rfl, rfl, rfl⟩

/-- No layer is left out, so that positions stay. -/
theorem getElem?_filterMap_layerSpec {items : List Item}
    (h : ∀ item ∈ items, ∃ p, item.outcome = .ok p) (i : Nat) :
    (items.filterMap layerSpec?)[i]? = items[i]?.bind layerSpec? := by
  -- every item gives a layer, so dropping those that give none moves nothing
  induction items generalizing i with
  | nil => rfl
  | cons item rest ih =>
    obtain ⟨p, hp⟩ := h item List.mem_cons_self
    obtain ⟨drawn, hdrawn, -⟩ := draws_layerSpec hp
    rw [List.filterMap_cons_some hdrawn]
    cases i with
    | zero => exact hdrawn.symm
    | succ i => exact ih (fun item' hitem => h item' (List.mem_cons_of_mem _ hitem)) i

theorem length_filterMap_layerSpec {items : List Item}
    (h : ∀ item ∈ items, ∃ p, item.outcome = .ok p) :
    (items.filterMap layerSpec?).length = items.length := by
  induction items with
  | nil => rfl
  | cons item rest ih =>
    obtain ⟨p, hp⟩ := h item List.mem_cons_self
    obtain ⟨drawn, hdrawn, -⟩ := draws_layerSpec hp
    rw [List.filterMap_cons_some hdrawn, List.length_cons, List.length_cons]
    rw [ih fun item' hitem => h item' (List.mem_cons_of_mem _ hitem)]

theorem Built.ready_of_mem (h : Built kit config plot spec items attempts) {item : Item}
    {p : Prepared} (hitem : item ∈ items) (hp : item.outcome = .ok p) :
    Ready kit config.defaults plot.data plot.mapping item.index item.layer p := by
  obtain ⟨-, hprepare⟩ := mem_of_prepareAll h.prepared hitem
  rw [hp] at hprepare
  exact prepare_eq_ok.1 hprepare

/-- The layer of a plot at a position and the layer of the specification there. -/
theorem Built.layer (h : Built kit config plot spec items attempts) {i : Nat} {layer : Layer}
    (hi : plot.layers[i]? = some layer) :
    ∃ item p drawn, item ∈ items ∧ item.index = i ∧ item.layer = layer ∧
      spec.layers[i]? = some drawn ∧ Draws item p drawn := by
  obtain ⟨-, hlayers⟩ := prepareAll_eq_ok h.prepared
  obtain ⟨outcome, hitem, -⟩ := hlayers i layer hi
  rw [Nat.zero_add] at hitem
  have hmem := List.mem_of_getElem? hitem
  obtain ⟨p, hp⟩ := h.ready _ hmem
  obtain ⟨drawn, hdrawn, hdraws⟩ := draws_layerSpec hp
  refine ⟨_, p, drawn, hmem, rfl, rfl, ?_, hdraws⟩
  rw [h.layers, getElem?_filterMap_layerSpec h.ready, hitem]
  exact hdrawn

/-- Every layer of a specification draws a layer that was prepared. -/
theorem Built.draws_of_mem (h : Built kit config plot spec items attempts) {drawn : LayerSpec}
    (hd : drawn ∈ spec.layers) : ∃ item ∈ items, ∃ p, Draws item p drawn := by
  rw [h.layers] at hd
  obtain ⟨item, hitem, hsome⟩ := List.mem_filterMap.1 hd
  obtain ⟨p, hp⟩ := h.ready item hitem
  obtain ⟨drawn', hdrawn, hdraws⟩ := draws_layerSpec hp
  obtain rfl : drawn' = drawn := Option.some.inj (hdrawn.symm.trans hsome)
  exact ⟨item, hitem, p, hdraws⟩

/-- Every layer that was prepared is drawn. -/
theorem Built.exists_draws (h : Built kit config plot spec items attempts) {item : Item}
    {p : Prepared} (hitem : item ∈ items) (hp : item.outcome = .ok p) :
    ∃ drawn ∈ spec.layers, Draws item p drawn := by
  obtain ⟨drawn, hdrawn, hdraws⟩ := draws_layerSpec hp
  refine ⟨drawn, ?_, hdraws⟩
  rw [h.layers]
  exact List.mem_filterMap.2 ⟨item, hitem, hdrawn⟩

/-- What a specification promises about the layer that it draws for a layer of the plot. -/
structure WellFormed (kit : Toolkit) (plot : Plot) (spec : RenderSpec) (i : Nat) (layer : Layer)
    (drawn : LayerSpec) : Prop where
  index : drawn.index = i
  geometry : drawn.geometry = layer.geometry
  stat : drawn.stat = layer.stat
  name : drawn.name = layer.name
  /-- The mapping holds no removal. -/
  keeps : ∀ c, drawn.mapping.binding c ≠ some .removed
  /-- The columns it refers to are in the table. -/
  present : ∀ c column, drawn.mapping.column? c = some column →
    drawn.data.contains column = true
  /-- After bins or curves both axes are bound to columns, and the one they ran along to the column
  they were computed from. -/
  axes : layer.stat.kind = .bin ∨ layer.stat.kind = .density →
    ∃ settings along column other, layer.stat.settings kit (some i) = .ok settings ∧
      Stat.axis layer.stat.kind settings.axis (layer.table plot.data) (layer.resolved plot.mapping)
        (.member (.geometry layer.geometry)) (some i) = .ok along ∧
      (layer.resolved plot.mapping).column? along.channel = some column ∧
      drawn.mapping.column? along.channel = some column ∧
      drawn.mapping.column? along.other.channel = some other
  /-- A channel that is bound to a column has a valid scale of the kind of this column. -/
  scaled : ∀ c column, drawn.mapping.column? c = some column →
    ∃ s, spec.scale? c = some s ∧ s.valid = true ∧ drawn.data.kind? column = some s.kind

/-- **A specification is well-formed.** It has a layer for every layer of the plot, in their order,
and each is fit to be drawn. -/
theorem spec_wellFormed (kit : Toolkit) (config : BuildConfig) (plot : Plot) (spec : RenderSpec)
    (h : (run kit config plot).outcome = .ok spec) :
    spec.layers.length = plot.layers.length ∧
      ∀ i layer, plot.layers[i]? = some layer →
        ∃ drawn, spec.layers[i]? = some drawn ∧ WellFormed kit plot spec i layer drawn := by
  obtain ⟨items, hb⟩ := built_of_run h
  refine ⟨?_, fun i layer hi => ?_⟩
  · rw [hb.layers, length_filterMap_layerSpec hb.ready]
    exact (prepareAll_eq_ok hb.prepared).1
  -- the layer that is drawn comes from the one at its place, which was ready
  · obtain ⟨item, p, drawn, hitem, rfl, rfl, hget, hdraws⟩ := hb.layer hi
    have hready := hb.ready_of_mem hitem hdraws.outcome
    refine ⟨drawn, hget, hdraws.index, hdraws.geometry, hdraws.stat, hdraws.name, ?_, ?_, ?_, ?_⟩
    · rw [hdraws.mapping]
      exact hready.keeps plot.keeps
    · rw [hdraws.mapping, hdraws.data]
      exact fun c column hc => hready.present hc
    · -- bins and curves are the statistics that compute a column for the other axis
      intro hk
      obtain ⟨computed, hcomputed⟩ :
          ∃ computed, Stat.computedName? item.layer.stat.kind = some computed := by
        rcases hk with hk | hk
        · exact ⟨_, by rw [hk]; rfl⟩
        · exact ⟨_, by rw [hk]; rfl⟩
      obtain ⟨settings, along, column, other, hsettings, halong, hran, hown, hother⟩ :=
        hready.axes hcomputed
      rw [hdraws.mapping]
      exact ⟨settings, along, column, other, hsettings, halong, hran.bound, hown, hother⟩
    -- every scale has been kept, and is valid, or there would have been a problem
    · rw [hdraws.mapping, hdraws.data]
      intro c column hc
      obtain ⟨s, -, hs, -, hvalid, hkind, -⟩ := hb.scale hitem hdraws.outcome hc
      exact ⟨s, hs, hvalid, hkind⟩

/-- A histogram of three numbers. -/
def histogramPlot : Plot where
  data :=
    { fields := [⟨.text "v", .continuous, ⟨.int, [.int 1, .int 2, .int 2]⟩⟩]
      height := 3
      computedBy := none
      uniform := by decide
      distinct := by decide }
  mapping := Mapping.empty.set .x (.column "v")
  layers := [⟨.histogram, none, none, { kind := .bin, bins := .int 2 }, [], .null⟩]
  keeps := by
    intro c
    cases c <;> simp [Mapping.set]

/-- The specification of a histogram is well-formed. -/
theorem spec_wellFormed_histogram :
    ∃ spec, (run .standard {} histogramPlot).outcome = .ok spec ∧
      spec.layers.length = histogramPlot.layers.length ∧
      ∀ i layer, histogramPlot.layers[i]? = some layer →
        ∃ drawn, spec.layers[i]? = some drawn ∧
          WellFormed .standard histogramPlot spec i layer drawn := by
  have hok : (run .standard {} histogramPlot).outcome.toBool = true := by decide +kernel
  cases h : (run .standard {} histogramPlot).outcome with
  | ok spec => exact ⟨spec, rfl, spec_wellFormed .standard {} histogramPlot spec h⟩
  | error e =>
    rw [h] at hok
    exact nomatch hok

end Build

end PlotGrammar
