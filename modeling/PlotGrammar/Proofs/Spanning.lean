import PlotGrammar.Proofs.Drawing

/-!
# Bars span their bins

A bar of a histogram reaches from where its bin starts to where it ends. The statistic decided along
which axis the bins lie; the chart looks for this axis again, among the columns of the result.
`Chart.bars_span_bins` says that it finds the same one, and which fields the encodings of the two
ends read.

* The encodings of a layer are a dictionary: the last channel that writes under a name decides. So
  `Chart.field?_of_fold` gives the field under a name as the last one that is written, and
  `Chart.fields_of_encodings` works this out for the names that belong to the axes.
* `Chart.binnedAxis?_of_along`: the axis of the bins is found again, unless it is the vertical one
  and the column on the horizontal one has an edge too.

Along the horizontal axis nothing else is written where the edges are. Along the vertical one the
two ends of an interval are: a column on `ymin` takes the place of `y`, and one on `ymax` that of
the far edge (`Chart.interval_hides_bins`).
-/

namespace PlotGrammar

namespace Chart

/-! ### Encodings as a dictionary -/

/-- The field that is read under a name, if there is an encoding of this name. -/
def field? (encodings : List (String × Encoding)) (name : String) : Option String :=
  (encodings.find? fun f => f.1 == name).map fun f => f.2.field

section Place

variable (encodings : List (String × Encoding)) (name : String) (e : Encoding)

/-- What is placed under a name is read there, and nothing else changes. -/
theorem field?_place (other : String) :
    field? (place encodings name e) other =
      if name = other then some e.field else field? encodings other := by
  unfold place field?
  split
  · -- there is an encoding of this name, which is replaced where it stands
    next hany =>
    have hnames : ((fun f : String × Encoding => f.1 == other) ∘
        fun f : String × Encoding => if f.1 == name then (name, e) else f) =
        fun f => f.1 == other := by
      funext f
      rw [Function.comp_apply]
      split
      · next heq => rw [beq_iff_eq.1 heq]
      · rfl
    rw [List.find?_map, hnames]
    by_cases hname : name = other
    · subst hname
      obtain ⟨f, hf⟩ := Option.isSome_iff_exists.1 (List.find?_isSome.2 (List.any_eq_true.1 hany))
      have hfound := List.find?_some hf
      rw [if_pos rfl, hf, Option.map_some, Option.map_some, if_pos hfound]
    · rw [if_neg hname, Option.map_map]
      cases hf : encodings.find? fun f => f.1 == other with
      | none => rfl
      | some f =>
        have hfound := List.find?_some hf
        have hne : ¬ (f.1 == name) = true := fun heq =>
          hname ((beq_iff_eq.1 heq).symm.trans (beq_iff_eq.1 hfound))
        rw [Option.map_some, Option.map_some, Function.comp_apply, if_neg hne]
  · next hnone =>
    rw [List.find?_append, List.find?_cons, List.find?_nil]
    by_cases hname : name = other
    -- the name is new, so it is found at the end and nowhere before
    · subst hname
      have habsent : encodings.find? (fun f => f.1 == name) = none := by
        rw [List.find?_eq_none]
        exact fun f hf heq => hnone (List.any_eq_true.2 ⟨f, hf, heq⟩)
      rw [if_pos rfl, habsent, Option.none_or, beq_self_eq_true]
      rfl
    · rw [if_neg hname, beq_false_of_ne hname, Option.or_none]

/-- No name stands twice. -/
theorem nodup_place (h : (encodings.map Prod.fst).Nodup) :
    ((place encodings name e).map Prod.fst).Nodup := by
  unfold place
  split
  · next hany =>
    -- a replaced encoding keeps its name
    have hnames : (encodings.map fun f => if f.1 == name then (name, e) else f).map Prod.fst =
        encodings.map Prod.fst := by
      rw [List.map_map]
      refine List.map_congr_left fun f _ => ?_
      rw [Function.comp_apply]
      split
      · next heq => exact (beq_iff_eq.1 heq).symm
      · rfl
    rw [hnames]
    exact h
  · next hnone =>
    -- a name that is added was not there
    have hfresh : name ∉ encodings.map Prod.fst := by
      intro hmem
      obtain ⟨f, hf, heq⟩ := List.mem_map.1 hmem
      exact hnone (List.any_eq_true.2 ⟨f, hf, beq_iff_eq.2 heq⟩)
    rw [List.map_append, List.nodup_append]
    refine ⟨h, List.pairwise_singleton _ _, fun m hm n hn heq => ?_⟩
    obtain rfl := List.mem_singleton.1 hn
    exact hfresh (heq ▸ hm)

end Place

section Fold

variable {layer : LayerSpec} {scales : List Scale} {before after : List (String × Encoding)}

/-- The field that encoding a channel writes under a name, if it writes any. -/
def written? (layer : LayerSpec) (entry : Channel × String) (name : String) : Option String :=
  if (binnedAxis? layer).map Axis.channel = some entry.1 then
    if encodingName entry.1 = name then some (Stat.startName entry.2)
    else if encodingName entry.1 ++ "2" = name then some (Stat.stopName entry.2)
    else none
  else if encodingName entry.1 = name then some entry.2
  else none

/-- The field that some channels write under a name, one after the other: the last one counts. -/
def lastWritten? (layer : LayerSpec) (entries : List (Channel × String)) (name : String) :
    Option String :=
  entries.foldr (fun entry later => later.or (written? layer entry name)) none

theorem field?_encode {entry : Channel × String}
    (h : encode layer scales before entry = .ok after) (name : String) :
    field? after name = (written? layer entry name).or (field? before name) := by
  obtain ⟨c, column⟩ := entry
  unfold written?
  rcases encode_eq_ok h with ⟨a, type, ha, hc, rfl⟩ | ⟨type, hne, rfl⟩
  · have hbinned : (binnedAxis? layer).map Axis.channel = some c := by rw [ha, Option.map_some, hc]
    rw [if_pos hbinned, field?_place, field?_place]
    split
    · rfl
    · split <;> rfl
  · rw [if_neg hne, field?_place]
    split <;> rfl

/-- The field that is read under a name is the one that was written there last. -/
theorem field?_of_fold {entries : List (Channel × String)}
    (h : entries.foldlM (encode layer scales) before = .ok after) (name : String) :
    field? after name = (lastWritten? layer entries name).or (field? before name) := by
  induction entries generalizing before with
  | nil =>
    cases h
    exact (Option.none_or).symm
  | cons entry rest ih =>
    rw [List.foldlM_cons] at h
    obtain ⟨between, hfirst, hrest⟩ := bind_eq_ok.1 h
    rw [ih hrest, field?_encode hfirst, ← Option.or_assoc]
    rfl

theorem nodup_of_fold {entries : List (Channel × String)}
    (h : entries.foldlM (encode layer scales) [] = .ok after) : (after.map Prod.fst).Nodup := by
  refine foldlM_induction (P := fun es => (es.map Prod.fst).Nodup) ?_ List.nodup_nil h
  rintro es ⟨c, column⟩ es' - hes hstep
  rcases encode_eq_ok hstep with ⟨a, type, -, -, rfl⟩ | ⟨type, -, rfl⟩
  · exact nodup_place _ _ _ (nodup_place _ _ _ hes)
  · exact nodup_place _ _ _ hes

/-- The column of a channel as far as it is encoded: the lower end of an interval hides `y`. -/
def encoded? (m : Mapping) (c : Channel) : Option String :=
  if c = .y ∧ (m.column? .ymin).isSome = true then none else m.column? c

/-- The last field under a name, channel by channel. -/
theorem lastWritten?_encodedColumns (m : Mapping) (name : String) :
    lastWritten? layer (encodedColumns m) name =
      Channel.all.foldr (fun c later =>
        later.or ((encoded? m c).bind fun column => written? layer (c, column) name)) none := by
  unfold encodedColumns Mapping.columns lastWritten?
  -- the columns are encoded in channel order, so a later one has the last word
  induction Channel.all with
  | nil => rfl
  | cons c rest ih =>
    rw [List.filterMap_cons, List.foldr_cons, ← ih]
    unfold encoded?
    cases hc : m.column? c with
    | none =>
      rw [Option.map_none]
      dsimp only
      split <;> rw [Option.bind_none, Option.or_none]
    | some column =>
      rw [Option.map_some]
      dsimp only
      have htest : (decide (c = .y) && (m.column? .ymin).isSome) =
          decide (c = .y ∧ (m.column? .ymin).isSome = true) := by
        rw [Bool.decide_and, Bool.decide_eq_true]
      rw [List.filter_cons, htest]
      -- a column on `y` is passed over where `ymin` has one
      by_cases hhidden : c = .y ∧ (m.column? .ymin).isSome = true
      · rw [if_pos hhidden, decide_eq_true hhidden, Option.bind_none, Option.or_none]
        rfl
      · rw [if_neg hhidden, decide_eq_false hhidden, Option.bind_some]
        rfl

/-- Off the axes nothing is written under a name that belongs to an axis. -/
theorem written?_eq_none {c : Channel} {column name : String} (hc : c.isPositional = false)
    (hname : name ∈ ["x", "x2", "y", "y2"]) : written? layer (c, column) name = none := by
  have haxis : (binnedAxis? layer).map Axis.channel ≠ some c := by
    intro h
    obtain ⟨a, -, rfl⟩ := Option.map_eq_some_iff.1 h
    cases a <;> cases hc
  have hnames : encodingName c ∉ ["x", "x2", "y", "y2"] := by
    revert hc
    cases c <;> decide
  have hne : encodingName c ≠ name := by
    rintro rfl
    exact hnames hname
  unfold written?
  rw [if_neg haxis, if_neg hne]

/-- Under a name that belongs to an axis, the ends of an interval are written last. -/
theorem lastWritten?_positional (m : Mapping) {name : String}
    (hname : name ∈ ["x", "x2", "y", "y2"]) :
    lastWritten? layer (encodedColumns m) name =
      [Channel.ymax, .ymin, .y, .x].foldr (fun c later =>
        ((encoded? m c).bind fun column => written? layer (c, column) name).or later) none := by
  have hnone : ∀ c : Channel, c.isPositional = false →
      ((encoded? m c).bind fun column => written? layer (c, column) name) = none := by
    intro c hc
    rw [Option.bind_eq_none_iff]
    exact fun column _ => written?_eq_none hc hname
  rw [lastWritten?_encodedColumns]
  unfold Channel.all
  simp only [List.foldr_cons, List.foldr_nil, hnone .color rfl, hnone .fill rfl, hnone .alpha rfl,
    hnone .size rfl, hnone .shape rfl, hnone .linetype rfl, hnone .group rfl, Option.or_none,
    Option.none_or, Option.or_assoc]

/-- The bars of bins along an axis over a column reach from where a bin starts to where it ends. On
the vertical axis the ends of an interval, where there are any, are drawn in the place of these. -/
def SpansAlong (layer : LayerSpec) (encodings : List (String × Encoding)) : Axis → String → Prop
  | .x, column =>
    field? encodings "x" = some (Stat.startName column) ∧
      field? encodings "x2" = some (Stat.stopName column)
  | .y, column =>
    field? encodings "y" =
        some ((layer.mapping.column? .ymin).getD (Stat.startName column)) ∧
      field? encodings "y2" =
        if (layer.mapping.column? .ymin).isSome then layer.mapping.column? .ymax
        else some ((layer.mapping.column? .ymax).getD (Stat.stopName column))

theorem spansAlong_of_fold
    (h : (encodedColumns layer.mapping).foldlM (encode layer scales) [] = .ok after) {a : Axis}
    {column : String} (ha : binnedAxis? layer = some a)
    (hc : layer.mapping.column? a.channel = some column) : SpansAlong layer after a column := by
  have hfield : ∀ name ∈ ["x", "x2", "y", "y2"], field? after name =
      [Channel.ymax, .ymin, .y, .x].foldr (fun c later =>
        ((encoded? layer.mapping c).bind fun column => written? layer (c, column) name).or later)
        none := by
    intro name hname
    rw [field?_of_fold h, lastWritten?_positional layer.mapping hname]
    exact Option.or_none
  cases a with
  | x =>
    have hx : layer.mapping.column? .x = some column := hc
    constructor
    · rw [hfield "x" (by decide)]
      simp [encoded?, written?, ha, hx, Axis.channel, encodingName]
    · rw [hfield "x2" (by decide)]
      simp [encoded?, written?, ha, hx, Axis.channel, encodingName]
  | y =>
    have hy : layer.mapping.column? .y = some column := hc
    unfold SpansAlong
    rw [hfield "y" (by decide), hfield "y2" (by decide)]
    -- whether there is a lower end decides who writes the name of the axis
    cases hlow : layer.mapping.column? .ymin with
    | none =>
      cases hhigh : layer.mapping.column? .ymax <;>
        simp [encoded?, written?, ha, hy, hlow, hhigh, Axis.channel, encodingName]
    | some low =>
      simp [encoded?, written?, ha, hlow, Axis.channel, encodingName]

end Fold

/-! ### The encodings of a layer -/

section Layer

variable {layer : LayerSpec} {scales : List Scale}

theorem outcome_encodings (layer : LayerSpec) (scales : List Scale) :
    (encodings layer scales).outcome =
      (encodedColumns layer.mapping).foldlM (encode layer scales) [] := by
  unfold encodings
  dsimp only
  split
  · rw [Logged.outcome_record_bind]
    rfl
  · rfl

/-- A layer whose columns are in its table can be encoded. -/
theorem exists_encodings (scales : List Scale)
    (h : ∀ c column, layer.mapping.column? c = some column → layer.data.contains column = true) :
    ∃ es, (encodings layer scales).outcome = .ok es := by
  rw [outcome_encodings]
  -- a step reads the kind of one column, which every column in the table has
  have hstep : ∀ es entry, entry ∈ encodedColumns layer.mapping →
      ∃ es', encode layer scales es entry = .ok es' := by
    rintro es ⟨c, column⟩ hentry
    have hc := Mapping.mem_columns.1 (List.mem_filter.1 hentry).1
    obtain ⟨kind, hkind⟩ := Table.exists_kind_of_contains (h c column hc)
    have hread : layer.data.kind column = .ok kind := by
      unfold Table.kind
      rw [hkind]
    unfold encode
    dsimp only
    rw [hread]
    split <;> split <;> exact ⟨_, rfl⟩
  obtain ⟨es, hes, -⟩ := exists_foldlM (P := fun _ => True) (b := [])
    (fun es _ entry hentry => by
      obtain ⟨es', hes'⟩ := hstep es entry hentry
      exact ⟨es', hes', trivial⟩) trivial
  exact ⟨es, hes⟩

/-- The column on the horizontal axis has no edge in the table. -/
def HorizontalUnedged (layer : LayerSpec) : Prop :=
  ∀ column, layer.mapping.column? .x = some column →
    layer.data.contains (Stat.startName column) = false

/-- The axis of the bins is found again. -/
theorem binnedAxis?_of_along (hbin : layer.stat.kind = .bin)
    (hgeometry : layer.geometry = .histogram ∨ layer.geometry = .bar) {a : Axis} {column : String}
    (hc : layer.mapping.column? a.channel = some column)
    (hstart : layer.data.contains (Stat.startName column) = true)
    (hx : a = .y → HorizontalUnedged layer) : binnedAxis? layer = some a := by
  unfold binnedAxis? Axis.all
  rw [if_pos ⟨hbin, hgeometry⟩]
  cases a with
  | x =>
    rw [List.find?_cons_of_pos]
    rw [hc]
    exact hstart
  | y =>
    rw [List.find?_cons_of_neg, List.find?_cons_of_pos]
    · rw [hc]
      exact hstart
    · -- the horizontal axis is looked at first, and passed over
      cases hown : layer.mapping.column? Axis.x.channel with
      | none => exact Bool.false_ne_true
      | some own =>
        rw [Bool.not_eq_true]
        exact hx rfl own hown

end Layer

/-- **Bars span the bins of their axis.** A layer of bins that is drawn in bars can always be
encoded, in one way. Its statistic ran along an axis over the column that is bound there. If this is
the horizontal axis, its encodings read where a bin starts and where it ends; so do those of the
vertical axis, except in the place of the ends of an interval, provided that the column on the
horizontal axis has no edge in the table. No name is written twice. -/
theorem bars_span_bins (kit : Toolkit) (config : BuildConfig) (plot : Plot) (spec : RenderSpec)
    (layer : LayerSpec) (h : (Build.run kit config plot).outcome = .ok spec)
    (hl : layer ∈ spec.layers) (hbin : layer.stat.kind = .bin)
    (hgeometry : layer.geometry = .histogram ∨ layer.geometry = .bar) :
    ∃ own a column es, plot.layers[layer.index]? = some own ∧
      Stat.orientation own.stat (own.table plot.data) (own.resolved plot.mapping)
        (.member (.geometry own.geometry)) (some layer.index) = .ok a ∧
      (own.resolved plot.mapping).column? a.channel = some column ∧
      (encodings layer spec.scales).outcome = .ok es ∧
      (∀ u, (unit spec.scales layer).outcome = .ok u → u.encodings = es) ∧
      (es.map Prod.fst).Nodup ∧
      ((a = .y → HorizontalUnedged layer) → SpansAlong layer es a column) := by
  obtain ⟨items, hb⟩ := Build.built_of_run h
  obtain ⟨item, hitem, p, hp⟩ := hb.draws_of_mem hl
  have hready := hb.ready_of_mem hitem hp.outcome
  -- what was bound before the statistic, and what is drawn of it
  have hkind : item.layer.stat.kind = .bin := hp.stat ▸ hbin
  have hcomputed : Stat.computedName? item.layer.stat.kind = some Stat.countName := by
    rw [hkind]
    rfl
  obtain ⟨settings, along, column, -, hsettings, halong, hran, hown, -⟩ :=
    hready.axes hcomputed
  obtain ⟨hat, -⟩ := Build.mem_of_prepareAll hb.prepared hitem
  -- the mapping and the table that are drawn are those of the statistic
  have hdrawn : layer.mapping.column? along.channel = some column := by
    rw [hp.mapping]
    exact hown
  have hstart : layer.data.contains (Stat.startName column) = true := by
    rw [hp.data]
    exact (hran.edges hkind).1
  have hpresent : ∀ c name, layer.mapping.column? c = some name →
      layer.data.contains name = true := by
    intro c name hc
    rw [hp.data]
    rw [hp.mapping] at hc
    exact hready.present hc
  obtain ⟨es, hes⟩ := exists_encodings spec.scales hpresent
  have hfold := (outcome_encodings layer spec.scales).symm.trans hes
  -- the place of the layer, its orientation, and its channels by what drew them
  refine ⟨item.layer, along, column, es, ?_, ?_, hran.bound, hes, fun u hu => ?_,
    nodup_of_fold hfold, fun hx => ?_⟩
  · rw [hp.index]
    exact hat
  · rw [hp.index, Stat.orientation_eq_axis hsettings]
    exact halong
  · exact Except.ok.inj ((encodings_of_unit hu).symm.trans hfold)
  · exact spansAlong_of_fold hfold (binnedAxis?_of_along hbin hgeometry hdrawn hstart hx) hdrawn

/-- A column of numbers. -/
def sidewaysTable : Table where
  fields := [⟨.text "w", .continuous, ⟨.int, [.int 1, .int 2, .int 2]⟩⟩]
  height := 3
  computedBy := none
  uniform := by decide
  distinct := by decide

/-- A histogram along the vertical axis. -/
def sidewaysPlot : Plot where
  data := sidewaysTable
  mapping := Mapping.empty.set .y (.column "w")
  layers := [⟨.histogram, none, none, { kind := .bin, bins := .int 2 }, [], .null⟩]
  keeps := by
    intro c
    cases c <;> simp [Mapping.set]

/-- Its bars span their bins. -/
theorem bars_span_bins_sideways :
    ∃ spec layer, (Build.run .standard {} sidewaysPlot).outcome = .ok spec ∧
      layer ∈ spec.layers ∧ layer.stat.kind = .bin ∧ layer.geometry = .histogram ∧
      HorizontalUnedged layer ∧
      ∃ own a column es, sidewaysPlot.layers[layer.index]? = some own ∧
        Stat.orientation own.stat (own.table sidewaysPlot.data) (own.resolved sidewaysPlot.mapping)
          (.member (.geometry own.geometry)) (some layer.index) = .ok a ∧
        (own.resolved sidewaysPlot.mapping).column? a.channel = some column ∧
        (encodings layer spec.scales).outcome = .ok es ∧ SpansAlong layer es a column := by
  -- what is asked of the drawn layer can be evaluated
  have hany : ((firstUnit? sidewaysPlot).any fun d => decide (d.2.1.stat.kind = .bin) &&
      decide (d.2.1.geometry = .histogram) && (d.2.1.mapping.column? .x).all fun column =>
        !d.2.1.data.contains (Stat.startName column)) = true := by
    decide +kernel
  cases hunit : firstUnit? sidewaysPlot with
  | none =>
    rw [hunit] at hany
    cases hany
  | some drawn =>
    obtain ⟨spec, layer, u⟩ := drawn
    rw [hunit, Option.any_some] at hany
    simp only [Bool.and_eq_true, decide_eq_true_eq] at hany
    obtain ⟨⟨hbin, hgeometry⟩, hall⟩ := hany
    obtain ⟨h, hl, -⟩ := firstUnit?_eq_some hunit
    have hx : HorizontalUnedged layer := by
      intro column hc
      rw [hc, Option.all_some, Bool.not_eq_true'] at hall
      exact hall
    obtain ⟨own, a, column, es, hat, halong, hown, hes, -, -, hspans⟩ :=
      bars_span_bins .standard {} sidewaysPlot spec layer h hl hbin (Or.inl hgeometry)
    exact ⟨spec, layer, h, hl, hbin, hgeometry, hx, own, a, column, es, hat, halong, hown, hes,
      hspans fun _ => hx⟩

/-- The same histogram with the column as the lower end of an interval too. -/
def intervalPlot : Plot where
  data := sidewaysTable
  mapping := (Mapping.empty.set .y (.column "w")).set .ymin (.column "w")
  layers := [⟨.histogram, none, none, { kind := .bin, bins := .int 2 }, [], .null⟩]
  keeps := by
    intro c
    cases c <;> simp [Mapping.set]

/-- The bins lie along the vertical axis, whose encoding reads the lower end of the interval and has
no far edge. -/
theorem interval_hides_bins :
    ∃ spec layer es, (Build.run .standard {} intervalPlot).outcome = .ok spec ∧
      layer ∈ spec.layers ∧ layer.stat.kind = .bin ∧ layer.geometry = .histogram ∧
      (∀ own ∈ intervalPlot.layers, Stat.orientation own.stat (own.table intervalPlot.data)
        (own.resolved intervalPlot.mapping) (.member (.geometry own.geometry)) (some layer.index) =
          .ok .y ∧ (own.resolved intervalPlot.mapping).column? .y = some "w") ∧
      (encodings layer spec.scales).outcome = .ok es ∧
      field? es "y" = some "w" ∧ field? es "y2" = none := by
  -- what is asked of the drawn layer can be evaluated, the fields of its encodings included
  have hany : ((firstUnit? intervalPlot).any fun d => decide (d.2.1.stat.kind = .bin) &&
      decide (d.2.1.geometry = .histogram) && decide (field? d.2.2.encodings "y" = some "w") &&
      decide (field? d.2.2.encodings "y2" = none)) = true := by
    decide +kernel
  cases hunit : firstUnit? intervalPlot with
  | none =>
    rw [hunit] at hany
    cases hany
  | some drawn =>
    obtain ⟨spec, layer, u⟩ := drawn
    rw [hunit, Option.any_some] at hany
    simp only [Bool.and_eq_true, decide_eq_true_eq] at hany
    obtain ⟨⟨⟨hbin, hgeometry⟩, hnear⟩, hfar⟩ := hany
    obtain ⟨h, hl, hu⟩ := firstUnit?_eq_some hunit
    refine ⟨spec, layer, u.encodings, h, hl, hbin, hgeometry, fun own hown => ?_, ?_, hnear, hfar⟩
    · obtain rfl := List.mem_singleton.1 hown
      exact ⟨rfl, rfl⟩
    · rw [outcome_encodings]
      exact encodings_of_unit hu

end Chart

end PlotGrammar
