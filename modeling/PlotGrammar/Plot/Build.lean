import PlotGrammar.Plot
import PlotGrammar.Scale.Registry

/-!
# Building a plot

A build resolves every layer of a plot and computes the scales they share. It has two parts. A layer
is prepared by itself: its table and mapping are chosen, checked and passed through its statistic.
Then the prepared layers feed one scale registry in paint order.

* `Build.prepare` is a function of one layer and the root of the plot; nothing passes from one layer
  to the next.
* `Build.problems` lists what is wrong: an empty root, then the problems of preparation in layer
  order, then those of the scales in layer order, then the scales without a domain.
* `Build.run` gives the specification if there is no problem and all of them otherwise;
  `Build.runParts` gives either as a result, for a plot that it makes of its parts.
-/

namespace PlotGrammar

/-- A layer that is ready to be drawn. -/
structure LayerSpec where
  index : Nat
  geometry : Geometry
  stat : StatConfig
  mapping : Mapping
  data : Table
  style : List (Value × Value)
  name : Value

/-- A plot that is ready to be drawn: layers in paint order and one scale per channel. -/
structure RenderSpec where
  layers : List LayerSpec
  scales : List Scale

/-- The scale behind a channel. -/
def RenderSpec.scale? (spec : RenderSpec) (channel : Channel) : Option Scale :=
  spec.scales.find? fun s => decide (s.channel = channel.scaleChannel)

namespace Geometry

/-- The channels a geometry needs and a mapping leaves unbound, as messages name them. -/
def missing (g : Geometry) (mapping : Mapping) : List String :=
  let unbound := (g.rule.required.filter fun c => !mapping.isBound c).map Channel.name
  let choice := g.rule.oneOf
  if !choice.isEmpty && !choice.any mapping.isBound then
    unbound ++ [" or ".intercalate (choice.map Channel.name)]
  else unbound

/-- Reports the channels that a geometry needs and a mapping leaves unbound. -/
def check (g : Geometry) (mapping : Mapping) (layer : Option Int) : Except Failure Unit :=
  match g.missing mapping with
  | [] => .ok ()
  | first :: rest => .error (.layer (.geometryNeeds g (first :: rest)) layer (some first))

end Geometry

namespace Build

/-- What a layer has when its preparation succeeds. -/
structure Prepared where
  mapping : Mapping
  data : Table

/-- The columns a mapping refers to that a table does not have, as problems. -/
def missingColumns (table : Table) (mapping : Mapping) (index : Nat) : List Problem :=
  (mapping.columns.filter fun e => !table.contains e.2).map fun e =>
    .layer ⟨.referenceAbsent e.1 e.2 "dataset", some index, some e.1.name⟩

/-- The problem a check reports, if it reports one. -/
def problemsOf (check : Except Failure Unit) : List Problem :=
  match check with
  | .error (.problem p) => [p]
  | _ => []

/-- Runs the statistic of a layer and finds the mapping to draw its output with. -/
def transform (kit : Toolkit) (defaults : Stat.Defaults) (stat : StatConfig) (table : Table)
    (mapping : Mapping) (geometry : Geometry) (index : Nat) : Logged Prepared := do
  let shown : Value := .member (.geometry geometry)
  let result ← Stat.run kit stat defaults table mapping shown (some index)
  let along ← match Stat.computedName? stat.kind with
    | some _ => do
      let a ← Stat.orientation stat table mapping shown (some index)
      pure (some a)
    | none => pure none
  let drawn ← Stat.remap stat.kind mapping (some result) along (some index)
  pure ⟨drawn, result⟩

/-- Prepares one layer over the root of a plot: gives what it has, or the problems it met. -/
def prepare (kit : Toolkit) (defaults : Stat.Defaults) (data : Table) (root : Mapping)
    (index : Nat) (layer : Layer) : Logged (Except (List Problem) Prepared) := do
  let table := layer.data.getD data
  let mapping := (layer.mapping.map root.resolve).getD root
  Logged.record (.mappingResolved index layer.geometry mapping)
  let found := missingColumns table mapping index ++
    problemsOf (layer.geometry.check mapping (some index))
  if !found.isEmpty then pure (.error found)
  else
    let tried := transform kit defaults layer.stat table mapping layer.geometry index
    let done ← tried.problemOrResult
    pure (done.mapError fun p => [p])

/-- A layer with the outcome of its preparation. -/
structure Item where
  index : Nat
  layer : Layer
  outcome : Except (List Problem) Prepared

/-- Prepares layers, which are numbered from an index on. -/
def prepareAll (kit : Toolkit) (defaults : Stat.Defaults) (data : Table) (root : Mapping) :
    Nat → List Layer → Logged (List Item)
  | _, [] => pure []
  | index, layer :: rest => do
    let outcome ← prepare kit defaults data root index layer
    let items ← prepareAll kit defaults data root (index + 1) rest
    pure (⟨index, layer, outcome⟩ :: items)

/-- The problems of the preparation of one layer. -/
def Item.problems (item : Item) : List Problem :=
  match item.outcome with
  | .error ps => ps
  | .ok _ => []

/-- Feeds the layers that could be prepared to a registry, collecting problems. -/
def feed : ScaleRegistry → List Item → ScaleRegistry × Logged (List Problem)
  | r, [] => (r, pure [])
  | r, item :: rest =>
    match item.outcome with
    | .error _ => feed r rest
    | .ok p =>
      let (r, step) := r.accumulateLayer p.data p.mapping (some item.index)
      match step.outcome with
      | .error e => (r, ⟨.error e, step.events⟩)
      | .ok found =>
        let (r, others) := feed r rest
        (r, ⟨others.outcome.map fun ps => found.map Problem.layer ++ ps,
          step.events ++ others.events⟩)

/-- The problem of a scale without a domain. -/
def scaleProblem? (s : Scale) : Option Problem :=
  if s.valid then none
  else
    let cause : LayerCause :=
      if s.isDiscrete then .noLevels s.channel else .noFiniteValues s.channel
    some (.layer ⟨cause, none, some s.channel.name⟩)

/-- The problem of a root table without rows. -/
def rootProblems (data : Table) : List Problem :=
  if data.isEmpty then [.layer ⟨.emptyRoot, none, none⟩] else []

/-- Everything that is wrong, in the order in which it is reported. -/
def problems (data : Table) (items : List Item) (scaleProblems : List Problem)
    (scales : List Scale) : List Problem :=
  rootProblems data ++ items.flatMap Item.problems ++ scaleProblems ++
    scales.filterMap scaleProblem?

/-- The specification of a layer that could be prepared. Constants of the mapping win over the
style. -/
def layerSpec? (item : Item) : Option LayerSpec :=
  match item.outcome with
  | .error _ => none
  | .ok p =>
    let constants := p.mapping.constants.map fun e => (Value.text e.1.name, e.2)
    some ⟨item.index, item.layer.geometry, item.layer.stat, p.mapping, p.data,
      Value.overlay item.layer.style constants, item.layer.name⟩

/-- Builds a plot: its specification, or every problem it has. -/
def run (kit : Toolkit) (config : BuildConfig) (plot : Plot) : Logged RenderSpec := do
  let items ← prepareAll kit config.defaults plot.data plot.mapping 0 plot.layers
  let (registry, fed) := feed .empty items
  let scaleProblems ← fed
  let scales := registry.freeze.2
  let found := problems plot.data items scaleProblems scales
  if found.isEmpty then
    let layers := items.filterMap layerSpec?
    Logged.record (.specBuilt layers.length (scales.map Scale.channel))
    pure ⟨layers, scales⟩
  else
    Logged.record (.buildFailed found.length)
    Logged.fail (.build found)

/-- The outcome of a build as a value: its specification, or its problems. Failures that are no
problems of the plot still end it. -/
def specOrProblems (x : Logged RenderSpec) : Logged (Except (List Problem) RenderSpec) :=
  match x.outcome with
  | .ok spec => ⟨.ok (.ok spec), x.events⟩
  | .error (.build ps) => ⟨.ok (.error ps), x.events⟩
  | .error e => ⟨.error e, x.events⟩

/-- Builds a plot from what is presented for its parts, giving its problems instead of failing with
them. -/
def runParts (kit : Toolkit) (config : BuildConfig) (data : Presented Table)
    (mapping : Presented Mapping) (layers : List (Presented Layer)) :
    Logged (Except (List Problem) RenderSpec) := do
  let plot ← Plot.make data mapping layers
  specOrProblems (run kit config plot)

end Build

end PlotGrammar
