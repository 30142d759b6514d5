import PlotGrammar.Proofs.Building
import PlotGrammar.Proofs.Dependence

/-!
# Constants

A channel that is bound to a constant shows it and nothing else: constants, like the styles and the
names of layers, reach no table and no scale.

`bare` leaves them out, of a binding and of everything that bindings are part of, and every step of
a build commutes with it: merging mappings (`Mapping.bare_resolve`), running a statistic and finding
the mapping to draw with (`Build.transform_bare`), preparing layers (`Build.prepareAll_bare`) and
feeding the scales (`Build.feed_bare`). `Build.constants_not_read` puts the steps together for two
plots that are the same without their constants.

The text of a constant may be the name of a column, even of one that a statistic computes. No step
takes it for one, since `Binding.column?` reads columns only.
-/

namespace PlotGrammar

/-- A binding without the value of its constant. -/
def Binding.bare : Binding → Binding
  | constant _ => constant .null
  | b => b

/-- A mapping without the values of its constants. -/
def Mapping.bare (m : Mapping) : Mapping :=
  ⟨fun c => (m.binding c).map Binding.bare⟩

/-- A layer without the values of its constants, its style and its name. -/
def Layer.bare (layer : Layer) : Layer :=
  { layer with mapping := layer.mapping.map Mapping.bare, style := [], name := .null }

namespace Binding

@[simp] theorem column?_bare (b : Binding) : b.bare.column? = b.column? := by
  cases b <;> rfl

@[simp] theorem isRemoved_bare (b : Binding) : b.bare.isRemoved = b.isRemoved := by
  cases b <;> rfl

theorem bare_eq_removed {b : Binding} (h : b.bare = .removed) : b = .removed := by
  cases b with
  | removed => rfl
  | column | constant => exact nomatch h

end Binding

/-- A plot without the values of constants and without the styles and names of its layers. -/
def Plot.bare (plot : Plot) : Plot where
  data := plot.data
  mapping := plot.mapping.bare
  layers := plot.layers.map Layer.bare
  keeps := by
    intro c hc
    obtain ⟨b, hb, hremoved⟩ := Option.map_eq_some_iff.1 hc
    exact plot.keeps c (hb.trans (congrArg some (Binding.bare_eq_removed hremoved)))

/-! ### Mappings -/

namespace Mapping

variable (m : Mapping)

theorem bare_binding (c : Channel) : m.bare.binding c = (m.binding c).map Binding.bare := rfl

@[simp] theorem column?_bare (c : Channel) : m.bare.column? c = m.column? c := by
  unfold column?
  rw [bare_binding, Option.bind_map]
  exact congrArg (Option.bind _) (funext Binding.column?_bare)

@[simp] theorem columns_bare : m.bare.columns = m.columns :=
  Stat.columns_congr m.column?_bare

@[simp] theorem isBound_bare (c : Channel) : m.bare.isBound c = m.isBound c := by
  unfold isBound
  rw [bare_binding]
  cases m.binding c with
  | none => rfl
  | some b => exact congrArg not b.isRemoved_bare

@[simp] theorem isEmpty_bare : m.bare.isEmpty = m.isEmpty := by
  have hentries : m.bare.entries = m.entries.map fun e => (e.1, e.2.bare) := by
    unfold entries
    rw [List.map_filterMap]
    refine congrArg (List.filterMap · Channel.all) (funext fun c => ?_)
    rw [bare_binding, Option.map_map, Option.map_map]
    rfl
  unfold isEmpty
  rw [hentries, List.isEmpty_map]

theorem bare_set (c : Channel) (b : Binding) : (m.set c b).bare = m.bare.set c b.bare := by
  ext1
  funext d
  rw [bare_binding, set_binding, set_binding, apply_ite (Option.map Binding.bare)]
  rfl

/-- A test that does not read constants keeps the same bindings. -/
theorem bare_filter {keep : Channel → Binding → Bool} (h : ∀ c b, keep c b.bare = keep c b) :
    (m.filter keep).bare = m.bare.filter keep := by
  ext1
  funext c
  change ((m.binding c).filter (keep c)).map Binding.bare =
    ((m.binding c).map Binding.bare).filter (keep c)
  cases m.binding c with
  | none => rfl
  | some b =>
    rw [Option.map_some, Option.filter_some, Option.filter_some, h, apply_ite (Option.map _)]
    rfl

theorem bare_resolve (root override : Mapping) :
    (root.resolve override).bare = root.bare.resolve override.bare := by
  cases he : override.isEmpty with
  | true => rw [resolve_of_isEmpty he, resolve_of_isEmpty (override.isEmpty_bare.trans he)]
  | false =>
    ext1
    funext c
    rw [bare_binding, resolve_binding he, resolve_binding (override.isEmpty_bare.trans he),
      bare_binding, bare_binding, ← Option.map_or]
    -- a removal stays one without its constants, so it removes on both sides
    cases (override.binding c).or (root.binding c) with
    | none => rfl
    | some b =>
      rw [Option.map_some, Option.filter_some, Option.filter_some, b.isRemoved_bare,
        apply_ite (Option.map _)]
      rfl

end Mapping

theorem Layer.resolved_bare (layer : Layer) (root : Mapping) :
    layer.bare.resolved root.bare = (layer.resolved root).bare := by
  unfold resolved bare
  dsimp only
  cases layer.mapping with
  | none => rfl
  | some override => exact (Mapping.bare_resolve root override).symm

/-! ### The mapping a result is drawn with -/

namespace Stat

theorem onlyAxis?_bare (m : Mapping) : onlyAxis? m.bare = onlyAxis? m := by
  have haxes : boundAxes m.bare = boundAxes m := by
    unfold boundAxes
    simp only [Mapping.column?_bare]
  unfold onlyAxis?
  rw [haxes]

/-- A computed axis takes the place of a constant as it takes the place of no binding. -/
theorem boundOther_bare (m : Mapping) (result : Table) (along : Axis) (computed : String) :
    boundOther m.bare result along computed = (boundOther m result along computed).bare := by
  have hset : (m.set along.other.channel (.column computed)).bare =
      m.bare.set along.other.channel (.column computed) :=
    m.bare_set _ _
  unfold boundOther
  rw [m.column?_bare]
  cases m.column? along.other.channel with
  | none => exact hset.symm
  | some current =>
    dsimp only
    rw [apply_ite Mapping.bare, hset]

theorem drawn_bare (stat : StatKind) (m : Mapping) (result : Table) (along : Option Axis) :
    drawn stat m.bare result along = (drawn stat m result along).bare := by
  -- a binding survives by its column, which a constant does not have
  have hkept : ∀ c (b : Binding), survives result c b.bare = survives result c b := by
    intro c b
    unfold survives
    rw [b.column?_bare]
  unfold drawn
  dsimp only
  rw [Mapping.bare_filter _ hkept, onlyAxis?_bare]
  refine congrArg (Mapping.filter · (survives result)) ?_
  cases computedName? stat with
  | none => rfl
  | some computed =>
    cases along.or (onlyAxis? m) with
    | none => rfl
    | some a => exact boundOther_bare m result a computed

end Stat

/-! ### Preparing layers -/

/-- Two outcomes that a map does not tell apart are one failure, or two results. -/
theorem map_eq_map {ε α β : Type} {x y : Except ε α} {f : α → β} (h : x.map f = y.map f) :
    (∃ e, x = .error e ∧ y = .error e) ∨ ∃ a b, x = .ok a ∧ y = .ok b ∧ f a = f b := by
  cases x with
  | error e =>
    cases y with
    | error e' => exact Or.inl ⟨e, rfl, congrArg Except.error (Except.error.inj h).symm⟩
    | ok b => exact nomatch h
  | ok a =>
    cases y with
    | error e' => exact nomatch h
    | ok b => exact Or.inr ⟨a, b, rfl, rfl, Except.ok.inj h⟩

theorem Logged.problemOrResult_map {α β : Type} {x : Logged α} {y : Logged β} {f : α → β}
    (h : y.outcome = x.outcome.map f) :
    y.problemOrResult.outcome = x.problemOrResult.outcome.map (Except.map f) := by
  obtain ⟨outcome, events⟩ := x
  obtain ⟨outcome', events'⟩ := y
  obtain rfl : outcome' = outcome.map f := h
  cases outcome with
  | ok a => rfl
  | error e => cases e <;> rfl

namespace Build

/-- What a layer has, without the values of its constants. -/
def Prepared.bare (p : Prepared) : Prepared :=
  ⟨p.mapping.bare, p.data⟩

/-- A layer with its outcome, without constants. -/
def Item.bare (item : Item) : Item :=
  ⟨item.index, item.layer.bare, item.outcome.map Prepared.bare⟩

section Prepare

variable {kit : Toolkit} {defaults : Stat.Defaults} {data : Table} {root : Mapping} {index : Nat}

/-- Where the columns of a mapping are in its table, its constants change neither what a statistic
computes nor the axis it runs along. -/
theorem transform_bare {stat : StatConfig} {table : Table} {m : Mapping} {geometry : Geometry}
    (hpresent : ∀ c name, m.column? c = some name → table.contains name = true) :
    (transform kit defaults stat table m.bare geometry index).outcome =
      (transform kit defaults stat table m geometry index).outcome.map Prepared.bare := by
  -- the statistic sees the columns only, of which both mappings bind the same
  have hsame : Stat.SameInput table table m m.bare := .of_columns m.column?_bare hpresent
  have halong : drawnAlong stat table m.bare geometry index =
      drawnAlong stat table m geometry index := by
    unfold drawnAlong
    rw [Stat.orientation_congr hsame]
  rw [outcome_transform, outcome_transform, halong, Stat.run_congr hsame kit fun _ => rfl]
  simp only [Stat.drawn_bare]
  cases (Stat.run kit stat defaults table m (.member (.geometry geometry))
    (some index)).outcome with
  | error e => rfl
  | ok result =>
    change (drawnAlong stat table m geometry index).map _ =
      ((drawnAlong stat table m geometry index).map _).map Prepared.bare
    cases drawnAlong stat table m geometry index with
    | error e => rfl
    | ok along => rfl

theorem bindingProblems_bare (layer : Layer) :
    bindingProblems data root.bare index layer.bare = bindingProblems data root index layer := by
  have hmissing : layer.bare.geometry.missing (layer.resolved root).bare =
      layer.geometry.missing (layer.resolved root) := by
    have hbound : (layer.resolved root).bare.isBound = (layer.resolved root).isBound :=
      funext (layer.resolved root).isBound_bare
    unfold Geometry.missing
    rw [hbound]
    rfl
  unfold bindingProblems missingColumns Geometry.check
  rw [layer.resolved_bare, Mapping.columns_bare, hmissing]
  rfl

/-- A layer without its constants has the same problems, and the same result without them. -/
theorem prepare_bare (layer : Layer) :
    (prepare kit defaults data root.bare index layer.bare).outcome =
      (prepare kit defaults data root index layer).outcome.map (Except.map Prepared.bare) := by
  rw [outcome_prepare, outcome_prepare, bindingProblems_bare]
  by_cases hnone : bindingProblems data root index layer = []
  · rw [if_pos hnone, if_pos hnone, layer.resolved_bare]
    have hpresent := (bindingProblems_eq_nil.1 hnone).1
    -- no column is missing, so the statistic reads bound columns only
    have htransform : (transform kit defaults layer.bare.stat (layer.bare.table data)
        (layer.resolved root).bare layer.bare.geometry index).outcome =
        (transform kit defaults layer.stat (layer.table data) (layer.resolved root)
          layer.geometry index).outcome.map Prepared.bare :=
      transform_bare hpresent
    rw [Logged.problemOrResult_map htransform]
    cases (transform kit defaults layer.stat (layer.table data) (layer.resolved root)
      layer.geometry index).problemOrResult.outcome with
    | error e => rfl
    | ok done => cases done <;> rfl
  · rw [if_neg hnone, if_neg hnone]
    rfl

theorem prepareAll_bare (layers : List Layer) :
    (prepareAll kit defaults data root.bare index (layers.map Layer.bare)).outcome =
      (prepareAll kit defaults data root index layers).outcome.map (List.map Item.bare) := by
  -- layer by layer, each of which is prepared as before but for its constants
  induction layers generalizing index with
  | nil => rfl
  | cons layer rest ih =>
    rw [List.map_cons]
    unfold prepareAll
    rw [Logged.outcome_bind, Logged.outcome_bind, prepare_bare]
    cases (prepare kit defaults data root index layer).outcome with
    | error e => rfl
    | ok outcome =>
      change (prepareAll kit defaults data root.bare (index + 1)
          (rest.map Layer.bare) >>= _).outcome =
        (prepareAll kit defaults data root (index + 1) rest >>= _).outcome.map (List.map Item.bare)
      rw [Logged.outcome_bind, Logged.outcome_bind, ih]
      cases (prepareAll kit defaults data root (index + 1) rest).outcome with
      | error e => rfl
      | ok items => rfl

end Prepare

/-! ### The scales and the whole build -/

/-- Feeding the scales reads no constant. -/
theorem feed_bare (r : ScaleRegistry) (items : List Item) :
    feed r (items.map Item.bare) = feed r items := by
  induction items generalizing r with
  | nil => rfl
  | cons item rest ih =>
    obtain ⟨index, layer, outcome⟩ := item
    cases outcome with
    | error ps => exact ih r
    | ok p =>
      -- feeding looks at the columns of a mapping only
      have hlayer : r.accumulateLayer p.bare.data p.bare.mapping (some index) =
          r.accumulateLayer p.data p.mapping (some index) :=
        ScaleRegistry.accumulateLayer_congr_columns p.mapping.column?_bare r p.data _
      show feed r (⟨index, layer.bare, .ok p.bare⟩ :: rest.map Item.bare) =
        feed r (⟨index, layer, .ok p⟩ :: rest)
      unfold feed
      dsimp only
      rw [hlayer]
      simp only [ih]

theorem problems_bare (item : Item) : item.bare.problems = item.problems := by
  obtain ⟨index, layer, outcome⟩ := item
  cases outcome <;> rfl

/-- Two layers that are ready to be drawn show the same data: their tables are equal, and so are the
columns their channels are bound to. -/
structure SameColumns (drawn drawn' : LayerSpec) : Prop where
  data : drawn'.data = drawn.data
  columns : ∀ c, drawn'.mapping.column? c = drawn.mapping.column? c

section Pairs

variable {items items' : List Item} (h : items'.map Item.bare = items.map Item.bare)

include h

theorem fed_of_bare : feed .empty items' = feed .empty items := by
  rw [← feed_bare, h, feed_bare]

theorem problems_of_bare (data : Table) (found : List Problem) (scales : List Scale) :
    problems data items' found scales = problems data items found scales := by
  have hown : items'.flatMap Item.problems = items.flatMap Item.problems := by
    have hbare : ∀ xs : List Item, (xs.map Item.bare).flatMap Item.problems =
        xs.flatMap Item.problems := by
      intro xs
      rw [List.flatMap_map]
      simp only [problems_bare]
    rw [← hbare, h, hbare]
  unfold problems
  rw [hown]

theorem sameColumns_of_bare :
    List.Forall₂ SameColumns (items.filterMap layerSpec?) (items'.filterMap layerSpec?) := by
  induction items generalizing items' with
  | nil =>
    obtain rfl := List.map_eq_nil_iff.1 h
    exact .nil
  | cons item rest ih =>
    obtain ⟨item', rest', rfl, hitem, hrest⟩ := List.map_eq_cons_iff.1 h
    -- an item of the one run stands against the item of the same place in the other
    have hothers := ih hrest
    have houtcome := congrArg Item.outcome hitem
    obtain ⟨index, layer, outcome⟩ := item
    obtain ⟨index', layer', outcome'⟩ := item'
    -- both layers are ready to be drawn, or neither is
    cases outcome with
    | error ps =>
      cases outcome' with
      | error ps' => exact hothers
      | ok p' => exact nomatch houtcome
    | ok p =>
      cases outcome' with
      | error ps' => exact nomatch houtcome
      | ok p' =>
        have hp : p'.bare = p.bare := Except.ok.inj houtcome
        have hdata : p'.bare.data = p.bare.data := congrArg Prepared.data hp
        have hmapping : p'.bare.mapping = p.bare.mapping := congrArg Prepared.mapping hp
        refine .cons ⟨hdata, fun c => ?_⟩ hothers
        show p'.mapping.column? c = p.mapping.column? c
        calc p'.mapping.column? c
          _ = p'.bare.mapping.column? c := (p'.mapping.column?_bare c).symm
          _ = p.bare.mapping.column? c := by rw [hmapping]
          _ = p.mapping.column? c := p.mapping.column?_bare c

end Pairs

/-- Two plots that are the same without constants have the same preparations without them. -/
theorem preparations_of_bare (kit : Toolkit) (config : BuildConfig) {plot plot' : Plot}
    (h : plot'.bare = plot.bare) :
    (preparations kit config plot').outcome.map (List.map Item.bare) =
      (preparations kit config plot).outcome.map (List.map Item.bare) := by
  have hpreparations : ∀ plot : Plot,
      (prepareAll kit config.defaults plot.bare.data plot.bare.mapping 0 plot.bare.layers).outcome =
        (preparations kit config plot).outcome.map (List.map Item.bare) :=
    fun plot => prepareAll_bare plot.layers
  rw [← hpreparations, ← hpreparations, h]

/-- **Constants are not read.** Two plots are the same but for the values of constants and the
styles and names of layers. Then both builds fail alike, or both succeed: with the same scales, and
with layers that have the same tables and bind the same columns. -/
theorem constants_not_read (kit : Toolkit) (config : BuildConfig) (plot plot' : Plot)
    (h : plot'.bare = plot.bare) :
    (∃ e, (run kit config plot).outcome = .error e ∧ (run kit config plot').outcome = .error e) ∨
      ∃ spec spec', (run kit config plot).outcome = .ok spec ∧
        (run kit config plot').outcome = .ok spec' ∧ spec'.scales = spec.scales ∧
        List.Forall₂ SameColumns spec.layers spec'.layers := by
  have hdata : plot'.bare.data = plot.bare.data := congrArg Plot.data h
  rw [outcome_run, outcome_run]
  rcases map_eq_map (preparations_of_bare kit config h) with
    ⟨e, hitems', hitems⟩ | ⟨items', items, hitems', hitems, hbare⟩
  · rw [hitems, hitems']
    exact Or.inl ⟨e, rfl, rfl⟩
  · have hfed : fedRegistry items' = fedRegistry items := congrArg Prod.fst (fed_of_bare hbare)
    rw [hitems, hitems']
    -- the two chains go on alike: one feeding, one list of problems
    show (∃ e, Except.bind (feed .empty items).2.outcome _ = _ ∧
        Except.bind (feed .empty items').2.outcome _ = _) ∨
      ∃ spec spec', Except.bind (feed .empty items).2.outcome _ = _ ∧
        Except.bind (feed .empty items').2.outcome _ = _ ∧ _
    rw [fed_of_bare hbare, hfed]
    cases (feed .empty items).2.outcome with
    | error e => exact Or.inl ⟨e, rfl, rfl⟩
    | ok found =>
      have hproblems := problems_of_bare hbare plot.data found (fedRegistry items).freeze.2
      dsimp only [Except.bind]
      rw [show plot'.data = plot.data from hdata, hproblems]
      split
      · exact Or.inr ⟨_, _, rfl, rfl, rfl, sameColumns_of_bare hbare⟩
      · exact Or.inl ⟨_, rfl, rfl⟩

/-- Points in one colour, which a layer may give another style and name. -/
def tintedPlot (tint : Value) (style : List (Value × Value)) (name : Value) : Plot where
  data :=
    { fields := [⟨.text "v", .continuous, ⟨.int, [.int 1, .int 2]⟩⟩]
      height := 2
      computedBy := none
      uniform := by decide
      distinct := by decide }
  mapping := ((Mapping.empty.set .x (.column "v")).set .y (.column "v")).set .color (.constant tint)
  layers := [⟨.point, none, none, {}, style, name⟩]
  keeps := by
    intro c
    cases c <;> simp [Mapping.set]

/-- A colour may be the name of the column that the axes show. -/
theorem constants_not_read_tinted :
    (tintedPlot (.text "v") [(.text "stroke", .text "v")] (.text "v")).bare =
        (tintedPlot (.text "red") [] .null).bare ∧
      ∃ spec spec',
        (run .standard {} (tintedPlot (.text "red") [] .null)).outcome = .ok spec ∧
        (run .standard {}
          (tintedPlot (.text "v") [(.text "stroke", .text "v")] (.text "v"))).outcome = .ok spec' ∧
        spec'.scales = spec.scales ∧ List.Forall₂ SameColumns spec.layers spec'.layers := by
  -- without constants, the plots do not differ any more
  have hmapping : ∀ tint style name, (tintedPlot tint style name).mapping.bare =
      (tintedPlot .null [] .null).mapping.bare := by
    intro tint style name
    unfold tintedPlot
    rw [Mapping.bare_set, Mapping.bare_set _ .color]
    rfl
  have hsame : (tintedPlot (.text "v") [(.text "stroke", .text "v")] (.text "v")).bare =
      (tintedPlot (.text "red") [] .null).bare := by
    unfold Plot.bare
    congr 1
    exact (hmapping _ _ _).trans (hmapping _ _ _).symm
  have hbuilt : (run .standard {} (tintedPlot (.text "red") [] .null)).outcome.toBool = true := by
    decide +kernel
  refine ⟨hsame, ?_⟩
  rcases constants_not_read .standard {} (tintedPlot (.text "red") [] .null) _ hsame with
    ⟨e, he, -⟩ | hbuilds
  · rw [he] at hbuilt
    exact nomatch hbuilt
  · exact hbuilds

end Build

end PlotGrammar
