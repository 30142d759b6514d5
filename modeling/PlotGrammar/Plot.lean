import PlotGrammar.Stat.Run

/-!
# Plots

A plot is a root table, a root mapping and layers in paint order. A layer draws one geometry; its
own data replace the root table, its mapping is merged over the root mapping, and its style holds
mark properties that touch no scale.

Descriptions are built from what a caller presents (`Presented`): a part of the right type, or some
other value that has to be refused. `Layer.make`, `Plot.make` and `BuildConfig.make` apply the rules
in order and report the first that is broken. That a root mapping removes nothing is a field of
`Plot`.
-/

namespace PlotGrammar

/-- What a caller presents where a part of some type belongs. -/
inductive Presented (α : Type) where
  | part (value : α)
  | other (value : Value)

namespace Presented

/-- The part that is presented; null stands for no part. -/
def optional {α : Type} (refusal : Misuse) : Presented α → Except Failure (Option α)
  | part a => .ok (some a)
  | other .null => .ok none
  | other _ => .error (.misuse refusal)

/-- The part that has to be presented. -/
def required {α : Type} (refusal : Misuse) : Presented α → Except Failure α
  | part a => .ok a
  | other _ => .error (.misuse refusal)

end Presented

/-- Merges what is presented as an override over what is presented as a mapping. A value that does
not count as given overrides nothing; any other has to be a mapping, as has what it overrides. -/
def Mapping.resolvePresented (root override : Presented Mapping) :
    Except Failure (Presented Mapping) :=
  match root, override with
  | root, .other v => if v.isTruthy then .error (.fault .noEntries) else .ok root
  | .part m, .part o => .ok (.part (m.resolve o))
  | root, .part o => if o.isEmpty then .ok root else .error (.fault .noEntries)

/-- One geometry with its statistic. -/
structure Layer where
  geometry : Geometry
  mapping : Option Mapping
  data : Option Table
  stat : StatConfig
  style : List (Value × Value)
  name : Value

namespace Layer

/-- The statistic that is presented, or the default one of a geometry. -/
def readStat (geometry : Geometry) : Presented StatConfig → Except Failure StatConfig
  | .part stat => .ok stat
  | .other .null => .ok { kind := geometry.rule.defaultStat }
  | .other v => StatConfig.parse v

/-- Builds a layer from what is presented for its parts. -/
def make (geometry : Value) (mapping : Presented Mapping) (data : Presented Table)
    (stat : Presented StatConfig) (style name : Value) : Except Failure Layer := do
  let geometry ← Geometry.ofValue geometry
  let stat ← readStat geometry stat
  let mapping ← mapping.optional .layerMapping
  let data ← data.optional .layerData
  match style with
  | .dict entries => pure ⟨geometry, mapping, data, stat, entries, name⟩
  | _ => throw (.misuse .layerStyle)

end Layer

/-- A root table, a root mapping and layers in paint order. -/
structure Plot where
  data : Table
  mapping : Mapping
  layers : List Layer
  keeps : ∀ c, mapping.binding c ≠ some .removed

namespace Plot

/-- Whether a mapping removes no channel. -/
def removesNothing (m : Mapping) : Bool :=
  Channel.all.all fun c => !(m.binding c).any Binding.isRemoved

theorem keeps_of_removesNothing {m : Mapping} (h : removesNothing m = true) (c : Channel) :
    m.binding c ≠ some .removed := by
  intro hc
  have := List.all_eq_true.1 h c (Channel.mem_all c)
  simp [hc, Binding.isRemoved] at this

/-- The plot of a table, a mapping and layers; the mapping must remove nothing. -/
def ofParts (data : Table) (mapping : Mapping) (layers : List Layer) : Except Failure Plot :=
  if h : removesNothing mapping = true then
    .ok ⟨data, mapping, layers, keeps_of_removesNothing h⟩
  else .error (.misuse .plotRemoval)

/-- Builds a plot from what is presented for its parts. -/
def make (data : Presented Table) (mapping : Presented Mapping) (layers : List (Presented Layer)) :
    Except Failure Plot := do
  let data ← data.required .plotData
  let mapping ← mapping.required .plotMapping
  -- A removal is reported before the layers are looked at.
  let _ ← ofParts data mapping []
  let layers ← layers.mapM (Presented.required .plotLayers)
  ofParts data mapping layers

/-- The plot with further layers drawn on top. -/
def addLayers (plot : Plot) (layers : List (Presented Layer)) : Except Failure Plot := do
  let layers ← layers.mapM (Presented.required .plotLayers)
  pure { plot with layers := plot.layers ++ layers }

end Plot

/-- Whether a value is a whole number that is not below a bound; a truth value counts as zero or
one. -/
def isAtLeast (least : Int) : Value → Bool
  | .bool b => least ≤ (if b then 1 else 0)
  | .int i => least ≤ i
  | _ => false

/-- Options of a build, as given: how many layers may be prepared at once, and the numbers of bins
and of curve points where a statistic does not set its own. -/
structure BuildConfig where
  maxWorkers : Value := .int 1
  defaultBins : Value := .int 30
  densityPoints : Value := .int 512

namespace BuildConfig

/-- The names of the options. -/
def optionNames : List String :=
  ["max_workers", "default_bins", "density_points"]

/-- Builds the options from named values; no other name is known. -/
def make (options : List (Value × Value)) : Except Failure BuildConfig := do
  unless options.all fun o => (o.1.characters?.map optionNames.contains).getD false do
    throw (.fault .wrongShape)
  let read (name : String) (default : Value) (least : Int) (refusal : Value → Misuse) :
      Except Failure Value :=
    match Value.lookupIn options name with
    | none => .ok default
    | some v => if isAtLeast least v then .ok v else .error (.misuse (refusal v))
  let standard : BuildConfig := {}
  let maxWorkers ← read "max_workers" standard.maxWorkers 1 .maxWorkers
  let defaultBins ← read "default_bins" standard.defaultBins 1 .defaultBins
  let densityPoints ← read "density_points" standard.densityPoints 2 .densityPoints
  pure ⟨maxWorkers, defaultBins, densityPoints⟩

/-- The numbers the options supply to statistics. -/
def defaults (config : BuildConfig) : Stat.Defaults :=
  ⟨config.defaultBins, config.densityPoints⟩

end BuildConfig

end PlotGrammar
