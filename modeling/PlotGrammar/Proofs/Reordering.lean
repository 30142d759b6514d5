import PlotGrammar.Proofs.Containment
import PlotGrammar.Proofs.Isolation
import PlotGrammar.Proofs.Number.Rank

/-!
# The order of layers

Layers are painted in the order in which they stand in a plot, and their order decides nothing else:
`Build.order_only_paints` says that a plot that can be built can be built with its layers in any
other order, and what becomes of the specification.

A registry depends on the order of its calls. The first column fixes the kind of a scale, levels
stand where they were first seen, and of equal ends the earlier one stays. Three things keep this
from the result of a build that succeeds.

* A layer is prepared alike wherever it stands (`Build.Ready.renumbered`), so a plot stays
  acceptable (`Build.Acceptable.reorder`).
* No column was refused, so a scale has read every column that the layers bind to its channel
  (`Build.Built.mem_readings`), and all of them are of one kind.
* The levels of a scale and the ends of its range are those of the cells it has read, in whatever
  order (`Build.sameValues_of_built`). Two ends that take each other's place are not below each
  other, and for the amounts that scales read this means that they are equal, unless an integer
  that is no double meets a double (`Cell.key_eq_of_not_less`).
-/

namespace PlotGrammar

/-- The plot with its layers in another order: at each place stands the layer that was at the place
which the permutation gives for it. -/
def Plot.reorder (plot : Plot) (σ : Equiv.Perm (Fin plot.layers.length)) : Plot :=
  { plot with layers := List.ofFn fun i => plot.layers.get (σ i) }

/-- What a layer gives to the scale of a channel. -/
def LayerSpec.readings (drawn : LayerSpec) (target : Channel) : List Reading :=
  (Channel.all.filter fun c => c.scaleChannel = target).filterMap
    (ScaleRegistry.offer? drawn.data drawn.mapping)

namespace RenderSpec

/-- What all layers give to the scale of a channel. -/
def readings (spec : RenderSpec) (target : Channel) : List Reading :=
  spec.layers.flatMap fun drawn => drawn.readings target

/-- Where integers and doubles meet on the scale of a channel, the integers have up to 53 binary
digits. -/
def Exact (spec : RenderSpec) (target : Channel) : Prop :=
  ∀ a ∈ Reading.all (spec.readings target), ∀ b ∈ Reading.all (spec.readings target),
    a.exactBeside b = true

instance (spec : RenderSpec) (target : Channel) : Decidable (spec.Exact target) :=
  inferInstanceAs (Decidable (∀ a ∈ Reading.all (spec.readings target),
    ∀ b ∈ Reading.all (spec.readings target), a.exactBeside b = true))

/-- A scale of a specification and another one are of one channel and one kind, and both or neither
are valid. Their levels are the same, in whatever order, and the ends of their ranges are equal. -/
structure SameValues (spec : RenderSpec) (s s' : Scale) : Prop where
  channel : s'.channel = s.channel
  kind : s'.kind = s.kind
  valid : s'.valid = s.valid
  levels : s.kind = .discrete → ∀ k, k ∈ s'.domain.map Cell.key ↔ k ∈ s.domain.map Cell.key
  ends : s.kind ≠ .discrete → (s.kind = .continuous → spec.Exact s.channel) →
    s'.domain.map Cell.key = s.domain.map Cell.key

theorem mem_readings {spec : RenderSpec} {target : Channel} {x : Reading} :
    x ∈ spec.readings target ↔ ∃ drawn ∈ spec.layers, ∃ c, c.scaleChannel = target ∧
      ScaleRegistry.offer? drawn.data drawn.mapping c = some x := by
  simp [readings, LayerSpec.readings, Channel.mem_all]

/-- What layers give depends on the tables and the mappings that are among them. -/
theorem readings_subset {spec spec' : RenderSpec}
    (h : ∀ drawn' ∈ spec'.layers, ∃ drawn ∈ spec.layers, drawn'.data = drawn.data ∧
      drawn'.mapping = drawn.mapping) {target : Channel} {x : Reading}
    (hx : x ∈ spec'.readings target) : x ∈ spec.readings target := by
  obtain ⟨drawn', hdrawn', c, hchannel, hoffer⟩ := mem_readings.1 hx
  obtain ⟨drawn, hdrawn, hdata, hmapping⟩ := h drawn' hdrawn'
  rw [hdata, hmapping] at hoffer
  exact mem_readings.2 ⟨drawn, hdrawn, c, hchannel, hoffer⟩

end RenderSpec

/-! ### Levels and ends of the same cells -/

theorem mem_keys_firstSeen {cells : List Cell} {k : CellKey} :
    k ∈ (firstSeen cells).map Cell.key ↔ k ∈ cells.map Cell.key := by
  rw [List.mem_map, List.mem_map]
  constructor
  · rintro ⟨c, hc, hk⟩
    exact ⟨c, mem_of_mem_firstSeen hc, hk⟩
  · rintro ⟨c, hc, rfl⟩
    exact exists_mem_firstSeen hc

/-- Two ranges of the same cells have equal ends, if cells that are not below each other are
equal. -/
theorem Spans.keys_eq {low high low' high' : Cell} {cells cells' : List Cell}
    (h : Spans low high cells) (h' : Spans low' high' cells') (hmem : ∀ c, c ∈ cells' ↔ c ∈ cells)
    (hkey : ∀ a ∈ cells, ∀ b ∈ cells, a.less b = false → b.less a = false → a.key = b.key) :
    low'.key = low.key ∧ high'.key = high.key := by
  -- an end of one range is a cell of the other range, so it is not outside of it
  have hlow : low' ∈ cells := (hmem low').1 h'.low_mem
  have hhigh : high' ∈ cells := (hmem high').1 h'.high_mem
  constructor
  · exact hkey low' hlow low h.low_mem (h.low_le low' hlow) (h'.low_le low ((hmem low).2 h.low_mem))
  · exact hkey high' hhigh high h.high_mem (h'.le_high high ((hmem high).2 h.high_mem))
      (h.le_high high' hhigh)

theorem Cell.key_time_of_not_less {s t : Timestamp} (h : (time s).less (time t) = false)
    (h' : (time t).less (time s) = false) : (time s).key = (time t).key := by
  have hnanos : s.nanos = t.nanos := by
    simp only [less, decide_eq_false_iff_not] at h h'
    omega
  rw [show s = t from congrArg Timestamp.mk hnanos]

namespace ScaleState

variable {column : Column} {cells : List Cell} {c : Cell}

theorem isFinite_of_usable (h : usable .continuous column = .ok cells) (hc : c ∈ cells) :
    c.isFinite = true := by
  cases h
  exact (List.mem_filter.1 hc).2

theorem exists_time_of_usable (h : usable .temporal column = .ok cells) (hc : c ∈ cells) :
    ∃ t, c = .time t := by
  cases h
  obtain ⟨hread, hpresent⟩ := List.mem_filter.1 hc
  obtain ⟨d, -, rfl⟩ := List.mem_map.1 hread
  -- a cell that is no timestamp is read as missing
  cases hd : ((Column.timeFormat? column.cells).elim Column.timeAlone? Column.timeIn?) d with
  | none =>
    rw [hd] at hpresent
    exact nomatch hpresent
  | some t => exact ⟨t, rfl⟩

end ScaleState

namespace ScaleRegistry

theorem exists_cells_of_readAll {table : Table} {kind : ColumnKind} {names : List String} {c : Cell}
    (h : c ∈ (readAll table kind names).1) :
    ∃ name cells, columnCells table kind name = .ok cells ∧ c ∈ cells := by
  induction names with
  | nil => exact absurd h List.not_mem_nil
  | cons name rest ih =>
    unfold readAll at h
    cases hcells : columnCells table kind name with
    | error e =>
      rw [hcells] at h
      exact absurd h List.not_mem_nil
    | ok cells =>
      rw [hcells] at h
      rcases List.mem_append.1 h with h | h
      · exact ⟨name, cells, hcells, h⟩
      · exact ih h

/-- The cells that are offered to a scale belong on it. -/
theorem exists_usable_of_offer {table : Table} {mapping : Mapping} {channel : Channel} {x : Reading}
    (h : offer? table mapping channel = some x) {c : Cell} (hc : c ∈ x.cells) :
    ∃ column cells, ScaleState.usable x.kind column = .ok cells ∧ c ∈ cells := by
  obtain ⟨name, -, h⟩ := Option.bind_eq_some_iff.1 h
  obtain ⟨kind, -, rfl⟩ := Option.map_eq_some_iff.1 h
  obtain ⟨name, cells, hcells, hmem⟩ := exists_cells_of_readAll hc
  obtain ⟨column, -, husable⟩ := columnCells_eq_ok.1 hcells
  exact ⟨column, cells, husable, hmem⟩

end ScaleRegistry

namespace Build

open ScaleRegistry (Attempt Readable readingsFor offer?)

variable {kit : Toolkit} {config : BuildConfig} {plot plot' : Plot} {spec spec' : RenderSpec}
  {items items' : List Item} {attempts attempts' : List Attempt}

/-! ### Scales of the same layers -/

/-- A call that was accepted has given what was offered. -/
theorem Built.reading_eq_offer (h : Built kit config plot spec items attempts) {a : Attempt}
    (ha : a ∈ attempts) : a.reading? = offer? a.table a.mapping a.channel := by
  unfold Attempt.reading? Attempt.counts
  rw [h.accepted a ha]
  rfl

/-- A scale has read what the layers give to it. -/
theorem Built.mem_readings (h : Built kit config plot spec items attempts) {target : Channel}
    {x : Reading} : x ∈ readingsFor target attempts ↔ x ∈ spec.readings target := by
  rw [ScaleRegistry.mem_readingsFor, RenderSpec.mem_readings]
  constructor
  · -- a call is made for a column of a prepared layer, and this is drawn
    rintro ⟨a, ha, hchannel, hreading⟩
    obtain ⟨item, hitem, p, name, hp, htable, hmapping, -⟩ := h.made a ha
    obtain ⟨drawn, hdrawn, hdraws⟩ := h.exists_draws hitem hp
    rw [h.reading_eq_offer ha, htable, hmapping, ← hdraws.data, ← hdraws.mapping] at hreading
    exact ⟨drawn, hdrawn, a.channel, hchannel, hreading⟩
  · -- a column that a layer binds was offered in some call, and no call was refused
    rintro ⟨drawn, hdrawn, c, hchannel, hoffer⟩
    obtain ⟨item, hitem, p, hdraws⟩ := h.draws_of_mem hdrawn
    rw [hdraws.data, hdraws.mapping] at hoffer
    obtain ⟨column, hc, -⟩ := Option.bind_eq_some_iff.1 hoffer
    obtain ⟨a, ha, rfl, htable, hmapping⟩ := h.offered item hitem p hdraws.outcome c column hc
    refine ⟨a, ha, hchannel, ?_⟩
    rw [h.reading_eq_offer ha, htable, hmapping]
    exact hoffer

theorem Built.mem_all_readings (h : Built kit config plot spec items attempts) {target : Channel}
    {c : Cell} : c ∈ Reading.all (readingsFor target attempts) ↔
      c ∈ Reading.all (spec.readings target) := by
  simp only [Reading.all, List.mem_flatMap, h.mem_readings]

/-- The cells that a scale has read belong on it. -/
theorem Built.exists_usable (h : Built kit config plot spec items attempts) {s : Scale}
    (hs : s ∈ spec.scales) {c : Cell} (hc : c ∈ Reading.all (readingsFor s.channel attempts)) :
    ∃ column cells, ScaleState.usable s.kind column = .ok cells ∧ c ∈ cells := by
  obtain ⟨x, hx, hcx⟩ := List.mem_flatMap.1 hc
  obtain ⟨drawn, -, d, -, hoffer⟩ := RenderSpec.mem_readings.1 (h.mem_readings.1 hx)
  rw [← (h.summarizes hs).kind x hx]
  exact ScaleRegistry.exists_usable_of_offer hoffer hcx

/-- Two cells that a range was made of are equal if they are not below each other. -/
theorem Built.key_eq (h : Built kit config plot spec items attempts) {s : Scale}
    (hs : s ∈ spec.scales) (hrange : s.kind ≠ .discrete)
    (hexact : s.kind = .continuous → spec.Exact s.channel) {a b : Cell}
    (ha : a ∈ Reading.all (readingsFor s.channel attempts))
    (hb : b ∈ Reading.all (readingsFor s.channel attempts)) (hab : a.less b = false)
    (hba : b.less a = false) : a.key = b.key := by
  -- both cells are usable by the kind of the scale: finite numbers, or timestamps
  obtain ⟨column, cells, husable, hca⟩ := h.exists_usable hs ha
  obtain ⟨column', cells', husable', hcb⟩ := h.exists_usable hs hb
  cases hk : s.kind with
  | discrete => exact absurd hk hrange
  | continuous =>
    rw [hk] at husable husable'
    have hfinite : a.isFinite = true := ScaleState.isFinite_of_usable husable hca
    have hfinite' : b.isFinite = true := ScaleState.isFinite_of_usable husable' hcb
    have ha := h.mem_all_readings.1 ha
    have hb := h.mem_all_readings.1 hb
    exact Cell.key_eq_of_not_less hfinite hfinite' hab hba (hexact hk a ha b hb)
      (hexact hk b hb a ha)
  | temporal =>
    rw [hk] at husable husable'
    obtain ⟨t, rfl⟩ := ScaleState.exists_time_of_usable husable hca
    obtain ⟨t', rfl⟩ := ScaleState.exists_time_of_usable husable' hcb
    exact Cell.key_time_of_not_less hab hba

section Pair

variable (h : Built kit config plot spec items attempts)
  (h' : Built kit config plot' spec' items' attempts')
  (hsame : ∀ target x, x ∈ spec'.readings target ↔ x ∈ spec.readings target)

include h h' hsame

theorem channels_of_built : spec'.scales.map Scale.channel = spec.scales.map Scale.channel := by
  obtain ⟨r, hr, hscales⟩ := h.reflects
  obtain ⟨r', hr', hscales'⟩ := h'.reflects
  rw [hscales, hscales', hr.channels, hr'.channels]
  refine List.filter_congr fun c _ => congrArg not (Bool.eq_iff_iff.2 ?_)
  simp only [List.isEmpty_iff, List.eq_nil_iff_forall_not_mem, h.mem_readings, h'.mem_readings,
    hsame]

/-- Scales that have read the same have the same values. -/
theorem sameValues_of_built {s s' : Scale} (hs : s ∈ spec.scales) (hs' : s' ∈ spec'.scales)
    (hchannel : s'.channel = s.channel) : spec.SameValues s s' := by
  have hsum := h.summarizes hs
  have hsum' := h'.summarizes hs'
  rw [hchannel] at hsum'
  have hmem : ∀ x, x ∈ readingsFor s.channel attempts' ↔ x ∈ readingsFor s.channel attempts := by
    intro x
    rw [h.mem_readings, h'.mem_readings, hsame]
  have hcells : ∀ c, c ∈ Reading.all (readingsFor s.channel attempts') ↔
      c ∈ Reading.all (readingsFor s.channel attempts) := by
    intro c
    simp only [Reading.all, List.mem_flatMap, hmem]
  have hkind : s'.kind = s.kind := by
    -- whichever column came first: both scales have read it, and are of its kind
    obtain ⟨x, hx⟩ := List.exists_mem_of_ne_nil _ hsum.fed
    rw [← hsum.kind x hx, ← hsum'.kind x ((hmem x).2 hx)]
  have hvalid := h.valid s hs
  have hvalid' := h'.valid s' hs'
  refine ⟨hchannel, hkind, hvalid'.trans hvalid.symm, fun hdiscrete k => ?_,
    fun hrange hexact => ?_⟩
  · rw [hsum.levels hdiscrete, hsum'.levels (hkind.trans hdiscrete), mem_keys_firstSeen,
      mem_keys_firstSeen]
    simp only [List.mem_map, hcells]
  · obtain ⟨low, high, hdomain, hspans⟩ := hsum.range hrange hvalid
    obtain ⟨low', high', hdomain', hspans'⟩ := hsum'.range (hkind ▸ hrange) hvalid'
    obtain ⟨hlow, hhigh⟩ := hspans.keys_eq hspans' hcells fun a ha b hb =>
      h.key_eq hs hrange hexact ha hb
    rw [hdomain, hdomain']
    simp only [List.map_cons, List.map_nil, hlow, hhigh]

theorem scales_of_built : List.Forall₂ spec.SameValues spec.scales spec'.scales := by
  have hchannels := channels_of_built h h' hsame
  have hlength : spec.scales.length = spec'.scales.length := by
    simpa using (congrArg List.length hchannels).symm
  refine List.forall₂_iff_get.2 ⟨hlength, fun i hi hi' => ?_⟩
  refine sameValues_of_built h h' hsame (List.get_mem _ _) (List.get_mem _ _) ?_
  simpa [hi, hi'] using congrArg (·[i]?) hchannels

end Pair

/-! ### Layers in another order -/

/-- A layer is prepared alike wherever it stands. -/
theorem Ready.renumbered {defaults : Stat.Defaults} {data : Table} {root : Mapping} {i : Nat}
    {layer : Layer} {p : Prepared} (h : Ready kit defaults data root i layer p) (j : Nat) :
    Ready kit defaults data root j layer p :=
  prepare_eq_ok.1 (prepare_of_prepare (prepare_eq_ok.2 h) j)

theorem feeds_iff {c : Channel} {table : Table} {column : String} :
    Feeds kit config plot c table column ↔ ∃ layer ∈ plot.layers, ∃ p,
      Ready kit config.defaults plot.data plot.mapping 0 layer p ∧
      p.mapping.column? c = some column ∧ p.data = table := by
  constructor
  · rintro ⟨i, layer, p, hi, hp, hfed⟩
    exact ⟨layer, List.mem_of_getElem? hi, p, hp.renumbered 0, hfed⟩
  · rintro ⟨layer, hlayer, p, hp, hfed⟩
    obtain ⟨i, hi⟩ := List.getElem?_of_mem hlayer
    exact ⟨i, layer, p, hi, hp.renumbered i, hfed⟩

/-- The columns of a build that succeeded can be read. -/
theorem Built.readable (h : Built kit config plot spec items attempts) {item : Item} {p : Prepared}
    (hitem : item ∈ items) (hp : item.outcome = .ok p) : Readable p.data p.mapping := by
  intro c column kind hc hk
  obtain ⟨r, hr, -⟩ := h.reflects
  obtain ⟨a, ha, rfl, htable, hmapping⟩ := h.offered item hitem p hp c column hc
  rw [← hmapping] at hc
  obtain ⟨kind', hk', hread⟩ := (hr.explained a ha).accepted (h.accepted a ha) column hc
  rw [htable] at hk' hread
  obtain rfl : kind = kind' := Option.some.inj (hk.symm.trans hk')
  exact hread

theorem Built.getElem?_layers (h : Built kit config plot spec items attempts) {i : Nat}
    {layer : Layer} {p : Prepared} (hi : plot.layers[i]? = some layer)
    (hp : Ready kit config.defaults plot.data plot.mapping i layer p) :
    spec.layers[i]? = layerSpec? ⟨i, layer, .ok p⟩ := by
  obtain ⟨-, hlayers⟩ := prepareAll_eq_ok h.prepared
  obtain ⟨outcome, hitem, houtcome⟩ := hlayers i layer hi
  rw [Nat.zero_add] at hitem houtcome
  rw [prepare_eq_ok.2 hp] at houtcome
  rw [h.layers, getElem?_filterMap_layerSpec h.ready, hitem, ← Except.ok.inj houtcome]
  rfl

theorem Built.length_layers (h : Built kit config plot spec items attempts) :
    spec.layers.length = plot.layers.length := by
  rw [h.layers, length_filterMap_layerSpec h.ready]
  exact (prepareAll_eq_ok h.prepared).1

section Reorder

variable {σ : Equiv.Perm (Fin plot.layers.length)}

theorem length_reorder : (plot.reorder σ).layers.length = plot.layers.length :=
  List.length_ofFn

theorem getElem?_reorder (i : Fin plot.layers.length) :
    (plot.reorder σ).layers[(i : Nat)]? = plot.layers[(σ i : Nat)]? := by
  simp [Plot.reorder]

theorem mem_reorder {layer : Layer} : layer ∈ (plot.reorder σ).layers ↔ layer ∈ plot.layers := by
  unfold Plot.reorder
  rw [List.mem_ofFn]
  constructor
  · rintro ⟨i, rfl⟩
    exact List.get_mem _ _
  · intro h
    obtain ⟨i, rfl⟩ := List.mem_iff_get.1 h
    exact ⟨σ.symm i, by rw [Equiv.apply_symm_apply]⟩

theorem feeds_reorder {c : Channel} {table : Table} {column : String} :
    Feeds kit config (plot.reorder σ) c table column ↔ Feeds kit config plot c table column := by
  rw [feeds_iff, feeds_iff]
  exact exists_congr fun layer => and_congr_left fun _ => mem_reorder

/-- The order of its layers does not make a plot acceptable. -/
theorem Acceptable.reorder (h : Acceptable kit config plot) :
    Acceptable kit config (plot.reorder σ) where
  rows := h.rows
  ready := by
    intro i layer hi
    obtain ⟨j, hj⟩ := List.getElem?_of_mem (mem_reorder.1 (List.mem_of_getElem? hi))
    obtain ⟨p, hp⟩ := h.ready j layer hj
    exact ⟨p, hp.renumbered i⟩
  kinds := by
    simp only [feeds_reorder]
    exact h.kinds
  values := by
    simp only [feeds_reorder]
    exact h.values

theorem Built.not_faults_reorder (h : Built kit config plot spec items attempts) :
    ¬ Faults (run kit config (plot.reorder σ)).outcome := by
  have hready := (acceptable_of_built h).reorder (σ := σ) |>.ready
  have hreadable : ∀ items', (preparations kit config (plot.reorder σ)).outcome = .ok items' →
      ∀ item ∈ items', ∀ p, item.outcome = .ok p → Readable p.data p.mapping := by
    -- what the layer has been prepared with here is what it was prepared with there
    intro items' hitems' item hitem p hp
    obtain ⟨hlayer, hprepare⟩ := mem_of_prepareAll hitems' hitem
    rw [hp] at hprepare
    obtain ⟨j, hj⟩ := List.getElem?_of_mem (mem_reorder.1 (List.mem_of_getElem? hlayer))
    obtain ⟨item', hitem', hp'⟩ :=
      exists_item_of_ready h.prepared hj ((prepare_eq_ok.1 hprepare).renumbered j)
    exact h.readable hitem' hp'
  rw [faults_run_iff_preparations hreadable]
  unfold preparations
  rw [faults_prepareAll]
  rintro ⟨i, layer, hi, hfaults⟩
  obtain ⟨p, hp⟩ := hready i layer hi
  rw [Nat.zero_add, prepare_eq_ok.2 hp] at hfaults
  exact not_faults_ok _ hfaults

/-- The layer that is drawn at a place is the one of its layer of the plot, under its new number. -/
theorem getElem?_layers_reorder (h : Built kit config plot spec items attempts)
    (h' : Built kit config (plot.reorder σ) spec' items' attempts') (i : Fin plot.layers.length) :
    ∃ drawn, spec.layers[(σ i : Nat)]? = some drawn ∧
      spec'.layers[(i : Nat)]? = some { drawn with index := i } := by
  obtain ⟨layer, hlayer⟩ : ∃ layer, plot.layers[(σ i : Nat)]? = some layer :=
    ⟨_, List.getElem?_eq_getElem (σ i).isLt⟩
  obtain ⟨p, hp⟩ := (acceptable_of_built h).ready _ layer hlayer
  have hlayer' := (getElem?_reorder i).trans hlayer
  -- both are made of the one preparation that the layer has under any number
  exact ⟨_, h.getElem?_layers hlayer hp, h'.getElem?_layers hlayer' (hp.renumbered i)⟩

theorem mem_readings_reorder (h : Built kit config plot spec items attempts)
    (h' : Built kit config (plot.reorder σ) spec' items' attempts') (target : Channel)
    (x : Reading) : x ∈ spec'.readings target ↔ x ∈ spec.readings target := by
  have hlength := h'.length_layers.trans length_reorder
  -- every layer of one specification is drawn by the other, for the places are permuted
  constructor
  · refine RenderSpec.readings_subset fun drawn' hdrawn' => ?_
    obtain ⟨i, hi, hget⟩ := List.getElem_of_mem hdrawn'
    obtain ⟨drawn, hdrawn, hnew⟩ := getElem?_layers_reorder h h' ⟨i, hlength ▸ hi⟩
    rw [List.getElem?_eq_getElem hi, hget] at hnew
    cases Option.some.inj hnew
    exact ⟨drawn, List.mem_of_getElem? hdrawn, rfl, rfl⟩
  · refine RenderSpec.readings_subset fun drawn hdrawn => ?_
    obtain ⟨j, hj, hget⟩ := List.getElem_of_mem hdrawn
    obtain ⟨drawn', hdrawn', hnew⟩ :=
      getElem?_layers_reorder h h' (σ.symm ⟨j, h.length_layers ▸ hj⟩)
    rw [Equiv.apply_symm_apply, List.getElem?_eq_getElem hj, hget] at hdrawn'
    cases Option.some.inj hdrawn'
    exact ⟨_, List.mem_of_getElem? hnew, rfl, rfl⟩

end Reorder

/-- **The order of layers decides the order of painting and nothing else.** A plot that can be built
can be built with its layers in any other order. It has the same layers in this order, under new
numbers; scales of the same channels and kinds; the same levels; and ranges with equal ends, where
no integer beyond the doubles meets a double. -/
theorem order_only_paints (kit : Toolkit) (config : BuildConfig) (plot : Plot)
    (σ : Equiv.Perm (Fin plot.layers.length)) (spec : RenderSpec)
    (h : (run kit config plot).outcome = .ok spec) :
    ∃ spec', (run kit config (plot.reorder σ)).outcome = .ok spec' ∧
      spec'.layers.length = plot.layers.length ∧
      (∀ i : Fin plot.layers.length, ∃ drawn, spec.layers[(σ i : Nat)]? = some drawn ∧
        spec'.layers[(i : Nat)]? = some { drawn with index := i }) ∧
      List.Forall₂ spec.SameValues spec.scales spec'.scales := by
  obtain ⟨items, hb⟩ := built_of_run h
  have hfault : ∀ f, (run kit config (plot.reorder σ)).outcome ≠ .error (.fault f) :=
    fun f hf => hb.not_faults_reorder ⟨f, hf⟩
  obtain ⟨spec', h'⟩ := run_eq_ok_of_acceptable (acceptable_of_built hb).reorder hfault
  obtain ⟨items', hb'⟩ := built_of_run h'
  exact ⟨spec', h', hb'.length_layers.trans length_reorder, getElem?_layers_reorder hb hb',
    scales_of_built hb hb' (mem_readings_reorder hb hb')⟩

/-- A column of amounts beside one of groups. -/
def layeredFields : List Field :=
  [⟨.text "v", .continuous, ⟨.int, [.int 1, .int 2]⟩⟩,
    ⟨.text "g", .discrete, ⟨.text, [.text "a", .text "b"]⟩⟩]

/-- Points, and a line through data of its own. -/
def layeredPlot : Plot where
  data :=
    { fields := layeredFields
      height := 2
      computedBy := none
      uniform := by decide
      distinct := by decide }
  mapping := ((Mapping.empty.set .x (.column "v")).set .y (.column "v")).set .color (.column "g")
  layers := [⟨.point, none, none, {}, [], .null⟩,
    ⟨.line, none, some
      { fields := [⟨.text "v", .continuous, ⟨.int, [.int 4, .int 3]⟩⟩,
          ⟨.text "g", .discrete, ⟨.text, [.text "b", .text "c"]⟩⟩]
        height := 2
        computedBy := none
        uniform := by decide
        distinct := by decide }, {}, [], .null⟩]
  keeps := by
    intro c
    cases c <;> simp [Mapping.set]

/-- The line before the points. -/
def lineFirst : Equiv.Perm (Fin layeredPlot.layers.length) :=
  (Equiv.swap 0 1 : Equiv.Perm (Fin 2))

/-- The line may be painted before the points. -/
theorem order_only_paints_swapped :
    ∃ spec spec', (run .standard {} layeredPlot).outcome = .ok spec ∧ (∀ c, spec.Exact c) ∧
      (run .standard {} (layeredPlot.reorder lineFirst)).outcome = .ok spec' ∧
      spec'.layers.length = layeredPlot.layers.length ∧
      (∀ i : Fin layeredPlot.layers.length, ∃ drawn,
        spec.layers[(lineFirst i : Nat)]? = some drawn ∧
          spec'.layers[(i : Nat)]? = some { drawn with index := i }) ∧
      List.Forall₂ spec.SameValues spec.scales spec'.scales := by
  have hexact : ((run .standard {} layeredPlot).outcome.toOption.any fun spec =>
      Channel.all.all fun c => decide (spec.Exact c)) = true := by
    decide +kernel
  cases h : (run .standard {} layeredPlot).outcome with
  | error e =>
    rw [h] at hexact
    exact nomatch hexact
  | ok spec =>
    rw [h] at hexact
    obtain ⟨spec', h', hpainted⟩ :=
      order_only_paints .standard {} layeredPlot lineFirst spec h
    refine ⟨spec, spec', rfl, fun c => ?_, h', hpainted⟩
    exact of_decide_eq_true (List.all_eq_true.1 hexact c (Channel.mem_all c))

-- the levels are those of the line first
example : ((run .standard {} (layeredPlot.reorder lineFirst)).outcome.toOption.bind
    (·.scale? .color)).map (·.domain.map Cell.key) =
      some [.text "b", .text "c", .text "a"] := by
  decide +kernel

end Build

end PlotGrammar
