import PlotGrammar.Chart
import PlotGrammar.Proofs.Specification

/-!
# Encodings and scales

A unit of a chart reads columns of its layer and shows domains of the scales. Which columns it reads
is decided when the unit is drawn; which columns a scale has read was decided before, when the
layers fed the scales. `Chart.unit_agrees` says that the two fit together.

* `Chart.encode_eq_ok` is what one channel adds to the encodings, and `Chart.reads_of_unit` carries
  it through all channels: every encoding is the column of a channel, or one of the two edges of its
  bins (`Chart.Reads`).
* `Chart.exists_scale_of_feeding` is the other side: the scale of a channel holds the cells of every
  column that was read for it, and the edges of bins are among these columns
  (`Chart.mem_feeding_of_edge`).
* `Chart.covers_iff_keepsTimes` joins the two: the cells of a column that has fed a scale lie in its
  domain (`Chart.Covers`).

Two things can come between a unit and its scales, and the theorem says exactly when they do.

The axis along which bars span their bins is found by the names of columns, the horizontal one
first. A column that bears the name of an edge misleads this search, and the unit then reads an edge
that no column has (`Chart.exists_stray_field`). `Chart.SpansBins` rules this out; along the
vertical axis it always holds (`Chart.stop_of_binnedAxis_y`).

A discrete scale takes timestamps in nanoseconds for their counts, so that the timestamps themselves
are no levels, unless another column supplies them (`Chart.KeepsTimes`).
-/

namespace PlotGrammar

namespace Chart

/-! ### Where encodings come from -/

theorem mem_place {encodings : List (String × Encoding)} {name : String} {e : Encoding}
    {f : String × Encoding} (h : f ∈ place encodings name e) : f = (name, e) ∨ f ∈ encodings := by
  unfold place at h
  split at h
  · obtain ⟨g, hg, rfl⟩ := List.mem_map.1 h
    split
    · exact Or.inl rfl
    · exact Or.inr hg
  · rcases List.mem_append.1 h with h | h
    · exact Or.inr h
    · exact Or.inl (List.mem_singleton.1 h)

theorem mem_place_self (encodings : List (String × Encoding)) (name : String) (e : Encoding) :
    (name, e) ∈ place encodings name e := by
  unfold place
  split
  · next h =>
    obtain ⟨f, hf, hname⟩ := List.any_eq_true.1 h
    exact List.mem_map.2 ⟨f, hf, if_pos hname⟩
  · exact List.mem_append_right _ List.mem_cons_self

theorem mem_place_of_ne {encodings : List (String × Encoding)} {name : String} (e : Encoding)
    {f : String × Encoding} (h : f ∈ encodings) (hne : f.1 ≠ name) :
    f ∈ place encodings name e := by
  unfold place
  split
  · exact List.mem_map.2 ⟨f, h, if_neg (by simpa using hne)⟩
  · exact List.mem_append_left _ h

/-- An encoding of a channel that is bound to a column, under its name: it reads the column, or on
the axis of a binned bar where the bin starts and where it ends. -/
inductive Reads (layer : LayerSpec) (scales : List Scale) (c : Channel) (column : String) :
    String × Encoding → Prop
  | column (type : Option String) :
    Reads layer scales c column (encodingName c, ⟨column, type, none, shownDomain scales c⟩)
  | start (a : Axis) (ha : binnedAxis? layer = some a) (hc : a.channel = c)
      (type : Option String) :
    Reads layer scales c column
      (encodingName c, ⟨Stat.startName column, type, some column, shownDomain scales c⟩)
  | stop (a : Axis) (ha : binnedAxis? layer = some a) (hc : a.channel = c) :
    Reads layer scales c column
      (encodingName c ++ "2", ⟨Stat.stopName column, none, none, none⟩)

section Encode

variable {layer : LayerSpec} {scales : List Scale} {encodings encodings' : List (String × Encoding)}
  {c : Channel} {column : String}

/-- What encoding a channel adds: one encoding, and a second one where a bar spans its bin. -/
theorem encode_eq_ok (h : encode layer scales encodings (c, column) = .ok encodings') :
    (∃ a type, binnedAxis? layer = some a ∧ a.channel = c ∧ encodings' =
      place (place encodings (encodingName c ++ "2") ⟨Stat.stopName column, none, none, none⟩)
        (encodingName c) ⟨Stat.startName column, type, some column, shownDomain scales c⟩) ∨
    ∃ type, (binnedAxis? layer).map Axis.channel ≠ some c ∧ encodings' =
      place encodings (encodingName c) ⟨column, type, none, shownDomain scales c⟩ := by
  unfold encode at h
  -- both ways to find the type go on in one way, which is named here
  dsimp -zeta only at h
  extract_lets -underBinder afterType at h
  have hafter : ∀ type, afterType type = .ok encodings' →
      (∃ a type, binnedAxis? layer = some a ∧ a.channel = c ∧ encodings' =
        place (place encodings (encodingName c ++ "2") ⟨Stat.stopName column, none, none, none⟩)
          (encodingName c) ⟨Stat.startName column, type, some column, shownDomain scales c⟩) ∨
      ∃ type, (binnedAxis? layer).map Axis.channel ≠ some c ∧ encodings' =
        place encodings (encodingName c) ⟨column, type, none, shownDomain scales c⟩ := by
    intro type h
    dsimp only [afterType] at h
    split at h
    · next hbinned =>
      obtain ⟨a, ha, hc⟩ := Option.map_eq_some_iff.1 hbinned
      exact Or.inl ⟨a, type, ha, hc, (Except.ok.inj h).symm⟩
    · next hbinned => exact Or.inr ⟨type, hbinned, (Except.ok.inj h).symm⟩
  split at h
  · obtain ⟨type, -, h⟩ := bind_eq_ok.1 h
    exact hafter type h
  · obtain ⟨kind, -, h⟩ := bind_eq_ok.1 h
    obtain ⟨type, -, h⟩ := bind_eq_ok.1 h
    exact hafter type h

/-- Encoding a channel adds encodings of this channel only. -/
theorem reads_of_encode (h : encode layer scales encodings (c, column) = .ok encodings')
    {f : String × Encoding} (hf : f ∈ encodings') :
    f ∈ encodings ∨ Reads layer scales c column f := by
  rcases encode_eq_ok h with ⟨a, type, ha, hc, rfl⟩ | ⟨type, -, rfl⟩
  · rcases mem_place hf with rfl | hf
    · exact Or.inr (.start a ha hc type)
    · rcases mem_place hf with rfl | hf
      · exact Or.inr (.stop a ha hc)
      · exact Or.inl hf
  · rcases mem_place hf with rfl | hf
    · exact Or.inr (.column type)
    · exact Or.inl hf

end Encode

/-! ### The encodings of a unit -/

section Unit

variable {layer : LayerSpec} {scales : List Scale} {u : ChartUnit}

/-- The encodings of a unit come from the channels of its layer, one after the other. -/
theorem encodings_of_unit (h : (unit scales layer).outcome = .ok u) :
    (encodedColumns layer.mapping).foldlM (encode layer scales) [] = .ok u.encodings := by
  unfold unit at h
  split at h
  · exact nomatch h
  obtain ⟨properties, -, h⟩ := Logged.bind_eq_ok.1 h
  split at h
  · obtain ⟨found, hfound, h⟩ := Logged.bind_eq_ok.1 h
    cases h
    unfold Chart.encodings at hfound
    dsimp only at hfound
    split at hfound
    · rw [Logged.outcome_record_bind] at hfound
      exact hfound
    · exact hfound
  · exact nomatch h

/-- Every encoding of a unit is that of a channel that is bound to a column. -/
theorem reads_of_unit (h : (unit scales layer).outcome = .ok u) {f : String × Encoding}
    (hf : f ∈ u.encodings) :
    ∃ c column, layer.mapping.column? c = some column ∧ Reads layer scales c column f := by
  -- what is known of the encodings so far passes to those that a channel adds
  refine foldlM_induction (P := fun es => ∀ f ∈ es, ∃ c column,
    layer.mapping.column? c = some column ∧ Reads layer scales c column f) ?_
    (fun f hf => absurd hf List.not_mem_nil) (encodings_of_unit h) f hf
  rintro before ⟨c, column⟩ after hentry hbefore hstep f hf
  rcases reads_of_encode hstep hf with hf | hreads
  · exact hbefore f hf
  · exact ⟨c, column, Mapping.mem_columns.1 (List.mem_filter.1 hentry).1, hreads⟩

theorem encodingName_ne (c : Channel) : encodingName c ≠ "x2" := by
  cases c <;> decide

theorem encodingName_ne_append (c : Channel) : encodingName c ≠ encodingName c ++ "2" := by
  cases c <;> decide

/-- Where the bar of a unit spans its bin along the horizontal axis, one of its encodings reads
where the bin ends: no other channel takes its name. -/
theorem exists_stop_of_unit (h : (unit scales layer).outcome = .ok u) {column : String}
    (ha : binnedAxis? layer = some .x) (hc : layer.mapping.column? .x = some column) :
    ∃ f ∈ u.encodings, f.2.field = Stat.stopName column := by
  have hentry : (Channel.x, column) ∈ encodedColumns layer.mapping :=
    List.mem_filter.2 ⟨Mapping.mem_columns.2 hc, rfl⟩
  have hstop : ∃ f ∈ u.encodings, f.1 = "x2" ∧ f.2.field = Stat.stopName column := by
    -- the channel of the axis places it, and the channels after it leave it there
    refine foldlM_reaches (P := fun es => ∃ f ∈ es, f.1 = "x2" ∧
      f.2.field = Stat.stopName column) hentry (fun before after hstep => ?_) ?_
      (encodings_of_unit h)
    · rcases encode_eq_ok hstep with ⟨a, type, -, -, rfl⟩ | ⟨type, hnot, -⟩
      · exact ⟨_, mem_place_of_ne _ (mem_place_self _ _ _) (encodingName_ne_append _).symm, rfl,
          rfl⟩
      · rw [ha] at hnot
        exact absurd rfl hnot
    · rintro before ⟨d, column'⟩ after hd ⟨f, hf, hname, hfield⟩ hstep
      rcases encode_eq_ok hstep with ⟨a, type, ha', rfl, rfl⟩ | ⟨type, -, rfl⟩
      · -- only the horizontal axis spans bins here, and it has one column
        obtain rfl : a = .x := (Option.some.inj (ha.symm.trans ha')).symm
        obtain rfl : column = column' := Option.some.inj
          (hc.symm.trans (Mapping.mem_columns.1 (List.mem_filter.1 hd).1))
        exact ⟨_, mem_place_of_ne _ (mem_place_self _ _ _) (encodingName_ne_append _).symm, rfl,
          rfl⟩
      · refine ⟨f, mem_place_of_ne _ hf ?_, hname, hfield⟩
        rw [hname]
        exact (encodingName_ne d).symm
  obtain ⟨f, hf, -, hfield⟩ := hstop
  exact ⟨f, hf, hfield⟩

end Unit

/-! ### What a unit shows -/

/-- The channel whose scale an encoding is measured on, by the name of the encoding. -/
def measuredOn (name : String) : Channel :=
  match name with
  | "x" | "x2" => .x
  | "y" | "y2" => .y
  | "color" => .color
  | "fill" => .fill
  | "opacity" => .alpha
  | "size" => .size
  | "shape" => .shape
  | "strokeDash" => .linetype
  | _ => .group

theorem measuredOn_encodingName (c : Channel) : measuredOn (encodingName c) = c.scaleChannel := by
  cases c <;> rfl

theorem measuredOn_append (a : Axis) :
    measuredOn (encodingName a.channel ++ "2") = a.channel.scaleChannel := by
  cases a <;> rfl

/-- A domain that an encoding shows is that of the scale it is measured on. -/
def ShowsDomain (spec : RenderSpec) (name : String) (e : Encoding) : Prop :=
  ∀ cells, e.domain = some cells → (spec.scale? (measuredOn name)).map Scale.domain = some cells

/-- The cells of a column that belong on the scale of a channel lie in its domain. -/
def Covers (spec : RenderSpec) (c : Channel) (source : Column) : Prop :=
  ∃ s, spec.scale? c = some s ∧ ∀ cell ∈ ScaleState.measured s.kind source, s.Holds cell

/-- The scale of a channel has a timestamp from a column that does not count in nanoseconds. -/
def Supplies (spec : RenderSpec) (c : Channel) (t : Timestamp) : Prop :=
  ∃ layer ∈ spec.layers, ∃ d column name source, d.scaleChannel = c.scaleChannel ∧
    layer.mapping.column? d = some column ∧ name ∈ ScaleRegistry.feeding layer.data column ∧
    layer.data.column? name = some source ∧ source.type ≠ .time .nano ∧ .time t ∈ source.cells

/-- Where a column that counts in nanoseconds is to give levels, its timestamps are levels from
elsewhere: by itself it gives its counts. -/
def KeepsTimes (spec : RenderSpec) (c : Channel) (source : Column) : Prop :=
  (spec.scale? c).map Scale.kind = some .discrete → source.type = .time .nano →
    ∀ t, .time t ∈ source.cells → Supplies spec c t

/-- The table of a layer has both edges of the bins that its bars are to span. -/
def SpansBins (layer : LayerSpec) : Prop :=
  ∀ a column, binnedAxis? layer = some a → layer.mapping.column? a.channel = some column →
    layer.data.contains (Stat.stopName column) = true

theorem binnedAxis?_eq_some {layer : LayerSpec} {a : Axis} (h : binnedAxis? layer = some a) :
    layer.stat.kind = .bin ∧ ∀ column, layer.mapping.column? a.channel = some column →
      layer.data.contains (Stat.startName column) = true := by
  unfold binnedAxis? at h
  split at h
  · next hbin =>
    refine ⟨hbin.1, fun column hc => ?_⟩
    have hstart := List.find?_some h
    rw [hc] at hstart
    exact hstart
  · exact nomatch h

/-- The horizontal axis is looked at first. -/
theorem binnedAxis?_x {layer : LayerSpec} {a : Axis} {column : String}
    (h : binnedAxis? layer = some a) (hc : layer.mapping.column? .x = some column)
    (hstart : layer.data.contains (Stat.startName column) = true) : a = .x := by
  unfold binnedAxis? at h
  split at h
  · unfold Axis.all at h
    rw [List.find?_cons_of_pos] at h
    · exact (Option.some.inj h).symm
    · rw [show layer.mapping.column? Axis.x.channel = some column from hc]
      exact hstart
  · exact nomatch h

section Spec

open ScaleRegistry (readingsFor feeding columnCells)

variable {kit : Toolkit} {config : BuildConfig} {plot : Plot} {spec : RenderSpec}
  {items : List Build.Item} {attempts : List ScaleRegistry.Attempt} {item : Build.Item}
  {p : Build.Prepared} {layer : LayerSpec}

/-- The scale of a channel holds the cells of every column that has fed it with this channel. -/
theorem exists_scale_of_feeding (hb : Build.Built kit config plot spec items attempts)
    (hitem : item ∈ items) (hp : Build.Draws item p layer) {c : Channel} {column : String}
    (hc : layer.mapping.column? c = some column) (field : String)
    (hf : field ∈ feeding layer.data column) :
    ∃ s cells, spec.scale? c = some s ∧ columnCells layer.data s.kind field = .ok cells ∧
      ∀ cell ∈ cells, s.Holds cell := by
  rw [hp.mapping] at hc
  rw [hp.data] at hf ⊢
  obtain ⟨s, columns, hs, -, -, -, hread, hsum, hmem⟩ := hb.scale hitem hp.outcome hc
  obtain ⟨cells, hcells, hfield⟩ := mapM_ok_of_mem hread hf
  refine ⟨s, cells, hs, hfield, fun cell hcell => hsum.holds ?_⟩
  exact List.mem_flatMap.2 ⟨_, hmem, List.mem_flatten.2 ⟨cells, hcells, hcell⟩⟩

theorem mem_feeding_self (table : Table) (column : String) : column ∈ feeding table column := by
  unfold feeding
  split
  · exact List.mem_cons_self
  · exact List.mem_cons_self

/-- Where the table of bins has an edge of a column, the edge feeds the scale with the column. -/
theorem mem_feeding_of_edge {table : Table} (hbin : table.computedBy = some StatKind.bin.name)
    {column edge : String} (he : edge ∈ [Stat.startName column, Stat.stopName column])
    (hin : table.contains edge = true) : edge ∈ feeding table column := by
  unfold feeding
  rw [if_pos hbin]
  exact List.mem_cons_of_mem _ (List.mem_filter.2 ⟨he, hin⟩)

theorem shownDomain_eq (spec : RenderSpec) {c : Channel} {cells : List Cell}
    (h : shownDomain spec.scales c = some cells) :
    (spec.scale? c).map Scale.domain = some cells := by
  unfold shownDomain at h
  split at h
  · exact nomatch h
  · exact nomatch h
  · exact h

/-- A timestamp among the levels of a scale comes from a column that does not count in
nanoseconds. -/
theorem supplies_of_holds (hb : Build.Built kit config plot spec items attempts) {c : Channel}
    {s : Scale} (hs : spec.scale? c = some s) (hk : s.kind = .discrete) {t : Timestamp}
    (h : s.Holds (.time t)) : Supplies spec c t := by
  have hsum := hb.summarizes (List.mem_of_find?_eq_some hs)
  rw [Build.channel_of_scale? hs] at hsum
  unfold Scale.Holds at h
  rw [hk] at h
  obtain ⟨l, hl, hkey⟩ := h
  obtain rfl : l = .time t := Cell.key_eq_time.1 hkey
  -- the level was read, from some column of some layer
  rw [hsum.levels hk] at hl
  obtain ⟨x, hx, hlx⟩ := List.mem_flatMap.1 (mem_of_mem_firstSeen hl)
  obtain ⟨item, hitem, p, d, column, columns, hout, hchannel, hd, -, hread, hflat⟩ :=
    -- so the level is a cell of that column, with its times as the scale has them
    hb.source_of_reading hx
  rw [hsum.kind x hx, hk] at hread
  rw [hflat] at hlx
  obtain ⟨cells, hcells, hlc⟩ := List.mem_flatten.1 hlx
  obtain ⟨name, hname, hnamed⟩ := exists_of_mem_mapM hread hcells
  obtain ⟨source, hsource, husable⟩ := ScaleRegistry.columnCells_eq_ok.1 hnamed
  have hcells := ScaleState.usable_eq_ok husable
  rw [if_pos rfl] at hcells
  rw [hcells] at hlc
  obtain ⟨cell, hcell, hlevel⟩ := List.mem_map.1 hlc
  have hin : cell ∈ source.cells := (List.mem_filter.1 hcell).1
  obtain ⟨layer, hlayer, hdraws⟩ := hb.exists_draws hitem hout
  rw [← hdraws.mapping] at hd
  rw [← hdraws.data] at hname hsource
  -- in nanoseconds the cell would have become a count
  have htype : source.type ≠ .time .nano := by
    intro htype
    by_cases htime : ∃ t', cell = .time t'
    · obtain ⟨t', rfl⟩ := htime
      rw [Column.level_time htype] at hlevel
      exact nomatch hlevel
    · rw [Column.level_eq_self fun _ t' h => htime ⟨t', h⟩] at hlevel
      exact htime ⟨t, hlevel⟩
  rw [Column.level_eq_self fun h => absurd h htype] at hlevel
  rw [hlevel] at hin
  exact ⟨layer, hlayer, d, column, name, source, hchannel, hd, hname, hsource, htype, hin⟩

/-- Every such timestamp is a level. -/
theorem holds_of_supplies (hb : Build.Built kit config plot spec items attempts) {c : Channel}
    {s : Scale} (hs : spec.scale? c = some s) (hk : s.kind = .discrete) {t : Timestamp}
    (h : Supplies spec c t) : s.Holds (.time t) := by
  obtain ⟨layer, hlayer, d, column, name, source, hchannel, hd, hname, hsource, htype, ht⟩ := h
  obtain ⟨item, hitem, p, hp⟩ := hb.draws_of_mem hlayer
  obtain ⟨s', cells, hs', hread, hall⟩ := exists_scale_of_feeding hb hitem hp hd name hname
  rw [Build.scale?_congr hchannel, hs] at hs'
  obtain rfl := Option.some.inj hs'
  obtain ⟨source', hsource', husable⟩ := ScaleRegistry.columnCells_eq_ok.1 hread
  obtain rfl : source = source' := Option.some.inj (hsource.symm.trans hsource')
  refine hall _ ?_
  rw [ScaleState.usable_eq_ok husable, if_pos hk]
  refine List.mem_map.2 ⟨.time t, ?_, Column.level_eq_self fun h => absurd h htype⟩
  rw [hk]
  exact List.mem_filter.2 ⟨ht, rfl⟩

/-- A column that has fed a scale is covered by it, but for timestamps in nanoseconds that are to be
levels: these have to come from elsewhere. -/
theorem covers_iff_keepsTimes (hb : Build.Built kit config plot spec items attempts)
    (hitem : item ∈ items) (hp : Build.Draws item p layer) {c d : Channel} {column field : String}
    (hc : layer.mapping.column? c = some column) (hf : field ∈ feeding layer.data column)
    (hchannel : d.scaleChannel = c.scaleChannel) {source : Column}
    (hsource : layer.data.column? field = some source) :
    Covers spec d source ↔ KeepsTimes spec d source := by
  -- the scale that the drawn channel shares has read the cells of this very column
  obtain ⟨s, cells, hs, hread, hall⟩ := exists_scale_of_feeding hb hitem hp hc field hf
  rw [← Build.scale?_congr hchannel] at hs
  obtain ⟨source', hsource', husable⟩ := ScaleRegistry.columnCells_eq_ok.1 hread
  obtain rfl : source = source' := Option.some.inj (hsource.symm.trans hsource')
  have hcells := ScaleState.usable_eq_ok husable
  constructor
  · rintro ⟨s', hs', hcovers⟩ hkind htype t ht
    obtain rfl : s = s' := Option.some.inj (hs.symm.trans hs')
    rw [hs] at hkind
    have hk : s.kind = .discrete := Option.some.inj hkind
    refine supplies_of_holds hb hs hk (hcovers _ ?_)
    rw [hk]
    exact List.mem_filter.2 ⟨ht, rfl⟩
  · intro hkeeps
    refine ⟨s, hs, fun cell hcell => ?_⟩
    -- only levels can differ from the cells of the column, and only for timestamps in nanoseconds
    by_cases hk : s.kind = .discrete
    · rw [if_pos hk] at hcells
      by_cases hcounted : source.type = .time .nano ∧ ∃ t, cell = .time t
      · -- the scale has read the count of this timestamp, and the timestamp elsewhere
        obtain ⟨htype, t, rfl⟩ := hcounted
        rw [hk] at hcell
        refine holds_of_supplies hb hs hk (hkeeps ?_ htype t (List.mem_filter.1 hcell).1)
        rw [hs]
        exact congrArg some hk
      · have hself : source.level cell = cell :=
          Column.level_eq_self fun htype t ht => hcounted ⟨htype, t, ht⟩
        refine hall cell ?_
        rw [hcells, ← hself]
        exact List.mem_map_of_mem hcell
    · rw [if_neg hk] at hcells
      refine hall cell ?_
      rw [hcells]
      exact hcell

/-- What an encoding shows and reads, in view of the scale it is measured on. -/
theorem agrees_of_reads (hb : Build.Built kit config plot spec items attempts)
    (hitem : item ∈ items) (hp : Build.Draws item p layer) {c : Channel} {column : String}
    (hc : layer.mapping.column? c = some column) {f : String × Encoding}
    (hf : Reads layer spec.scales c column f) :
    ShowsDomain spec f.1 f.2 ∧ ∀ source, layer.data.column? f.2.field = some source →
      (Covers spec (measuredOn f.1) source ↔ KeepsTimes spec (measuredOn f.1) source) := by
  -- bars that span bins belong to a table of bins, whose edges were read with the column
  have hedge : ∀ a, binnedAxis? layer = some a → a.channel = c →
      ∀ edge ∈ [Stat.startName column, Stat.stopName column], ∀ source,
        layer.data.column? edge = some source → edge ∈ feeding layer.data column := by
    intro a ha _ edge he source hsource
    refine mem_feeding_of_edge ?_ he (Table.contains_of_column? hsource)
    rw [hp.data]
    refine (hb.ready_of_mem hitem hp.outcome).computedBy ?_
    rw [← hp.stat]
    exact (binnedAxis?_eq_some ha).1
  -- an edge is measured on the scale of its own channel
  have hown : (measuredOn (encodingName c)).scaleChannel = c.scaleChannel := by
    rw [measuredOn_encodingName, Channel.scaleChannel_scaleChannel]
  have hshown : ∀ cells, shownDomain spec.scales c = some cells →
      (spec.scale? (measuredOn (encodingName c))).map Scale.domain = some cells := by
    intro cells hcells
    rw [Build.scale?_congr hown]
    exact shownDomain_eq spec hcells
  -- the column itself and the start of a bin show a domain; the stop of a bin shows none
  cases hf with
  | column type =>
    refine ⟨hshown, fun source hsource => ?_⟩
    exact covers_iff_keepsTimes hb hitem hp hc (mem_feeding_self layer.data column) hown hsource
  | start a ha hac type =>
    refine ⟨hshown, fun source hsource => ?_⟩
    have hfed := hedge a ha hac _ List.mem_cons_self source hsource
    exact covers_iff_keepsTimes hb hitem hp hc hfed hown hsource
  | stop a ha hac =>
    refine ⟨fun cells hcells => (nomatch hcells), fun source hsource => ?_⟩
    have hfed := hedge a ha hac _ (List.mem_cons_of_mem _ List.mem_cons_self) source hsource
    refine covers_iff_keepsTimes hb hitem hp hc hfed ?_ hsource
    rw [← hac, measuredOn_append, Channel.scaleChannel_scaleChannel]

/-- Where bars are to span bins along the vertical axis, the table has both edges: the statistic ran
along this axis, for otherwise the horizontal one would have been found. -/
theorem stop_of_binnedAxis_y (hb : Build.Built kit config plot spec items attempts)
    (hitem : item ∈ items) (hp : Build.Draws item p layer) (ha : binnedAxis? layer = some .y)
    {column : String} (hc : layer.mapping.column? .y = some column) :
    layer.data.contains (Stat.stopName column) = true := by
  have hbin : item.layer.stat.kind = .bin := by
    rw [← hp.stat]
    exact (binnedAxis?_eq_some ha).1
  obtain ⟨-, along, own, -, -, -, hran, hown, -⟩ := (hb.ready_of_mem hitem hp.outcome).axes
    (show Stat.computedName? item.layer.stat.kind = some Stat.countName by rw [hbin]; rfl)
  obtain ⟨hstart, hstop⟩ := hran.edges hbin
  rw [← hp.mapping] at hown
  rw [← hp.data] at hstart hstop
  cases along with
  | x =>
    -- the edge of the horizontal axis is in the table, and this axis is looked at first
    exact nomatch binnedAxis?_x ha hown hstart
  | y =>
    obtain rfl : column = own := Option.some.inj (hc.symm.trans hown)
    exact hstop

end Spec

/-- **A drawn unit agrees with the scales.** For every unit of a built plot: its encodings read
columns of the table of the layer, exactly if the table has both edges of the bins that its bars are
to span; a domain that is shown is that of the scale; and the cells of a field lie in the domain of
the scale it is measured on, exactly if no timestamps are lost to counts of nanoseconds. -/
theorem unit_agrees (kit : Toolkit) (config : BuildConfig) (plot : Plot) (spec : RenderSpec)
    (layer : LayerSpec) (u : ChartUnit) (h : (Build.run kit config plot).outcome = .ok spec)
    (hl : layer ∈ spec.layers) (hu : (unit spec.scales layer).outcome = .ok u) :
    ((∀ f ∈ u.encodings, layer.data.contains f.2.field = true) ↔ SpansBins layer) ∧
      ∀ f ∈ u.encodings, ShowsDomain spec f.1 f.2 ∧
        ∀ source, layer.data.column? f.2.field = some source →
          (Covers spec (measuredOn f.1) source ↔ KeepsTimes spec (measuredOn f.1) source) := by
  obtain ⟨items, hb⟩ := Build.built_of_run h
  obtain ⟨item, hitem, p, hp⟩ := hb.draws_of_mem hl
  refine ⟨⟨fun hall a column ha hc => ?_, fun hspans f hf => ?_⟩, fun f hf => ?_⟩
  · cases a with
    | x =>
      -- the encoding of the far edge is there, so its field is a column
      obtain ⟨f, hf, hfield⟩ := exists_stop_of_unit hu ha hc
      rw [← hfield]
      exact hall f hf
    | y => exact stop_of_binnedAxis_y hb hitem hp ha hc
  · obtain ⟨c, column, hc, hreads⟩ := reads_of_unit hu hf
    cases hreads with
    | column type =>
      rw [hp.data]
      rw [hp.mapping] at hc
      exact (hb.ready_of_mem hitem hp.outcome).present hc
    | start a ha hac type =>
      rw [← hac] at hc
      exact (binnedAxis?_eq_some ha).2 column hc
    | stop a ha hac =>
      rw [← hac] at hc
      exact hspans a column ha hc
  · obtain ⟨c, column, hc, hreads⟩ := reads_of_unit hu hf
    exact agrees_of_reads hb hitem hp hc hreads

/-- The first layer of a plot as it is drawn, with the specification it belongs to. -/
def firstUnit? (plot : Plot) : Option (RenderSpec × LayerSpec × ChartUnit) := do
  let spec ← (Build.run .standard {} plot).outcome.toOption
  let layer ← spec.layers.head?
  let u ← (unit spec.scales layer).outcome.toOption
  some (spec, layer, u)

theorem toOption_eq_some {α : Type} {x : Except Failure α} {a : α} (h : x.toOption = some a) :
    x = .ok a := by
  cases x with
  | ok b => exact congrArg Except.ok (Option.some.inj h)
  | error e => exact nomatch h

theorem firstUnit?_eq_some {plot : Plot} {spec : RenderSpec} {layer : LayerSpec} {u : ChartUnit}
    (h : firstUnit? plot = some (spec, layer, u)) :
    (Build.run .standard {} plot).outcome = .ok spec ∧ layer ∈ spec.layers ∧
      (unit spec.scales layer).outcome = .ok u := by
  obtain ⟨spec', hspec, h⟩ := Option.bind_eq_some_iff.1 h
  obtain ⟨layer', hlayer, h⟩ := Option.bind_eq_some_iff.1 h
  obtain ⟨u', hu, h⟩ := Option.bind_eq_some_iff.1 h
  cases h
  exact ⟨toOption_eq_some hspec, List.mem_of_mem_head? hlayer, toOption_eq_some hu⟩

/-- The unit of a histogram agrees with the scales. -/
theorem unit_agrees_histogram :
    ∃ spec layer u, (Build.run .standard {} Build.histogramPlot).outcome = .ok spec ∧
      layer ∈ spec.layers ∧ (unit spec.scales layer).outcome = .ok u ∧
      ((∀ f ∈ u.encodings, layer.data.contains f.2.field = true) ↔ SpansBins layer) ∧
      ∀ f ∈ u.encodings, ShowsDomain spec f.1 f.2 ∧
        ∀ source, layer.data.column? f.2.field = some source →
          (Covers spec (measuredOn f.1) source ↔ KeepsTimes spec (measuredOn f.1) source) := by
  have hsome : (firstUnit? Build.histogramPlot).isSome = true := by decide +kernel
  obtain ⟨⟨spec, layer, u⟩, hunit⟩ := Option.isSome_iff_exists.1 hsome
  obtain ⟨h, hl, hu⟩ := firstUnit?_eq_some hunit
  exact ⟨spec, layer, u, h, hl, hu,
    unit_agrees .standard {} Build.histogramPlot spec layer u h hl hu⟩

/-- A table with a column that bears the name of an edge. -/
def strayTable : Table where
  fields := [⟨.text "v", .continuous, ⟨.int, [.int 1, .int 2]⟩⟩,
    ⟨.text "count_start", .discrete, ⟨.text, [.text "a", .text "b"]⟩⟩]
  height := 2
  computedBy := none
  uniform := by decide
  distinct := by decide

/-- A histogram along the vertical axis, filled by this column. -/
def strayPlot : Plot where
  data := strayTable
  mapping := (Mapping.empty.set .y (.column "v")).set .fill (.column "count_start")
  layers := [⟨.histogram, none, none, { kind := .bin, bins := .int 1 }, [], .null⟩]
  keeps := by
    intro c
    cases c <;> simp [Mapping.set]

/-- The counts are drawn as if they had been divided into bins: an encoding reads where they end,
and no column of the layer is called so. -/
theorem exists_stray_field :
    ∃ spec layer u, (Build.run .standard {} strayPlot).outcome = .ok spec ∧
      layer ∈ spec.layers ∧ (unit spec.scales layer).outcome = .ok u ∧
      ∃ f ∈ u.encodings, f.1 = "x2" ∧ layer.data.contains f.2.field = false := by
  have hany : ((firstUnit? strayPlot).any fun d => d.2.2.encodings.any fun f =>
      f.1 == "x2" && !d.2.1.data.contains f.2.field) = true := by
    decide +kernel
  cases hunit : firstUnit? strayPlot with
  | none =>
    rw [hunit] at hany
    exact nomatch hany
  | some drawn =>
    obtain ⟨spec, layer, u⟩ := drawn
    rw [hunit, Option.any_some] at hany
    obtain ⟨f, hf, hstray⟩ := List.any_eq_true.1 hany
    rw [Bool.and_eq_true, beq_iff_eq, Bool.not_eq_true'] at hstray
    obtain ⟨h, hl, hu⟩ := firstUnit?_eq_some hunit
    exact ⟨spec, layer, u, h, hl, hu, f, hf, hstray.1, hstray.2⟩

/-- Points coloured by a timestamp that is counted in nanoseconds. -/
def countedPlot : Plot where
  data :=
    { fields := [⟨.text "v", .continuous, ⟨.int, [.int 1]⟩⟩,
        ⟨.text "t", .discrete, ⟨.time .nano, [.time ⟨1⟩]⟩⟩]
      height := 1
      computedBy := none
      uniform := by decide
      distinct := by decide }
  mapping := ((Mapping.empty.set .x (.column "v")).set .y (.column "v")).set .color (.column "t")
  layers := [⟨.point, none, none, { kind := .identity }, [], .null⟩]
  keeps := by
    intro c
    cases c <;> simp [Mapping.set]

example : ((firstUnit? countedPlot).map fun d =>
    (shownDomain d.1.scales .color).map (List.map Cell.key)) = some (some [.whole 1]) := by
  decide +kernel

end Chart

end PlotGrammar
