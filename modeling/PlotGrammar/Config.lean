import PlotGrammar.Config.Content
import PlotGrammar.Config.Resolution
import PlotGrammar.Plot
import PlotGrammar.Source

/-!
# Plots from configurations

A configuration is a dictionary that names a data source, root aesthetics and a list of layers, each
with aesthetics, data and a statistic of its own. A channel is bound to exactly one of `field` (a
column), `value` (a constant) and, in a layer, `removed`.

* `Mapping.ofConfig`, `StatConfig.ofConfig?`, `Layer.ofConfig` and `Plot.ofConfig` read the parts of
  a description, `BuildConfig.ofConfig` the options of its build.
* Shorthands are read by the same functions: a source by its name, a geometry by its name, a
  statistic by its short form.
-/

namespace PlotGrammar

namespace Config

/-- What stands under a key of a section; only dictionaries hold anything. -/
def field (v : Value) (key : String) : Value :=
  match v with
  | .dict entries => Value.get entries key
  | _ => .null

/-- The entries of a configuration, with its references followed. -/
def entries (config : Value) : Except Failure (List (Value × Value)) := do
  let own ← (Source.readEntries config).mapError .fault
  (Value.dict own).vet.mapError .fault
  match ← (Value.dict own).resolveReferences.mapError .fault with
  | .dict resolved => pure resolved
  | _ => throw (.fault .wrongShape)

/-- The names that a section gives to its options: the keys of a dictionary, the items of a list,
the characters of a text. -/
def optionNames (v : Value) : Except Fault (List Value) :=
  match v with
  | .dict own => .ok (own.map (·.1))
  | .list items => if items.all Value.isKey then .ok items else .error .wrongShape
  | v =>
    match v.characters? with
    | some s => .ok (s.toList.map fun c => .text c.toString)
    | none => .error .wrongShape

/-- Each value once, in order of first appearance. -/
def distinct (names : List Value) : List Value :=
  names.foldl (fun seen n => if seen.any n.same then seen else seen ++ [n]) []

/-- Puts names in order: texts by their characters, numbers by amount. Other names have no common
order. -/
def sortNames (names : List Value) : Except Fault (List Value) :=
  let texts := names.filterMap fun n => n.characters?.map fun s => (s, n)
  let numbers := names.filterMap fun n => n.number?.map fun a => (Cell.ofNumber a, n)
  if names.length ≤ 1 then .ok names
  else if texts.length = names.length then
    .ok ((texts.mergeSort fun a b => decide (a.1 ≤ b.1)).map (·.2))
  else if numbers.length = names.length then
    .ok ((numbers.mergeSort fun a b => !b.1.less a.1).map (·.2))
  else .error .wrongShape

/-- Refuses names that are not among the known ones, in order. -/
def refuseUnknown (names : List Value) (known : List String) (refusal : List Value → Misuse) :
    Except Failure Unit := do
  let isKnown (n : Value) : Bool := (n.characters?.map known.contains).getD false
  let unknown := distinct (names.filter fun n => !isKnown n)
  unless unknown.isEmpty do
    throw (.misuse (refusal (← (sortNames unknown).mapError .fault)))

/-- The keys of a binding. -/
def bindingKeys : List String :=
  ["field", "value", "removed"]

/-- The keys of a binding that bind something. -/
def chosenKeys (own : List (Value × Value)) : List String :=
  (["field", "value"].filter fun k => (Value.get own k).given?.isSome) ++
    (if (Value.get own "removed").isTruthy then ["removed"] else [])

/-- Reads the binding of a channel. -/
def binding (channel v : Value) (mayRemove : Bool) : Except Failure Binding :=
  match v with
  | .null => .error (.misuse (.emptyBinding channel))
  | .dict own => do
    refuseUnknown (own.map (·.1)) bindingKeys (.bindingKeys channel)
    match chosenKeys own with
    | ["field"] => Binding.ofColumnName (Value.get own "field")
    | ["value"] => pure (.constant (Value.get own "value"))
    | ["removed"] => if mayRemove then pure .removed else throw (.misuse (.rootRemoval channel))
    | chosen => throw (.misuse (.bindingChoice channel chosen))
  | v => .error (.misuse (.bindingShape channel v))

/-- The table a data section names. -/
def table (catalogue : Catalogue) (data : Value) : Except Failure Table :=
  if data.characters?.isSome then catalogue.resolve data .null
  else
    let source := field data "source"
    if source.isTruthy then catalogue.resolve source (field data "kinds")
    else .error (.misuse .unnamedSource)

/-- What a data section names as its source. -/
def source (data : Value) : Value :=
  if data.characters?.isSome then data else field data "source"

end Config

open Config (field)

/-- Reads an aesthetics block. -/
def Mapping.ofConfig (aesthetics : Value) (mayRemove : Bool) : Except Failure Mapping :=
  if aesthetics.isTruthy then
    match aesthetics with
    | .dict own => do
      let bindings ← own.mapM fun e => do
        pure (e.1, Offer.binding (← Config.binding e.1 e.2 mayRemove))
      Mapping.ofEntries bindings
    | _ => .error (.fault .noEntries)
  else .ok .empty

/-- Reads the statistic of a layer, if it names one. -/
def StatConfig.ofConfig? (v : Value) : Except Failure (Option StatConfig) :=
  match v with
  | .null => .ok none
  | v =>
    if v.characters?.isSome then do pure (some (← StatConfig.parse v))
    else do
      let names ← (Config.optionNames v).mapError .fault
      Config.refuseUnknown names StatConfig.optionNames .unknownStatOptions
      let options ← (Source.readEntries v).mapError .fault
      match Value.get options "kind" with
      | .null => throw (.misuse .statWithoutKind)
      | _ => do pure (some (← StatConfig.ofOptions options))

namespace Layer

/-- The geometry of a layer and its style; a geometry may bring properties of its own, over which
the style is laid. -/
def geometryOfConfig (config : Value) : Except Failure (Value × List (Value × Value)) := do
  let given := field config "style"
  let style ← if given.isTruthy then (Source.readEntries given).mapError .fault else pure []
  match field config "geometry" with
  | .dict own =>
    let properties := Value.get own "props"
    let geometry := Value.get own "type"
    if properties.isTruthy then
      match properties with
      | .dict base => pure (geometry, Value.overlay base style)
      | _ => throw (.fault .wrongShape)
    else pure (geometry, style)
  | geometry => pure (geometry, style)

/-- Reads a layer. -/
def ofConfig (catalogue : Catalogue) (index : Nat) (config : Value) : Except Failure Layer :=
  match config with
  | .dict _ => do
    let (geometry, style) ← geometryOfConfig config
    unless geometry.isTruthy do
      throw (.misuse (.layerGeometry index))
    let aesthetics := field config "aesthetics"
    let mapping ← if aesthetics.isTruthy then do
        pure (Presented.part (← Mapping.ofConfig aesthetics true))
      else pure (.other .null)
    let data := field config "data"
    let table ← if data.isTruthy then do
        pure (Presented.part (← Config.table catalogue data))
      else pure (.other .null)
    let stat ← StatConfig.ofConfig? (field config "stat")
    Layer.make geometry mapping table (stat.elim (.other .null) .part) (.dict style)
      (field config "name")
  | _ => .error (.misuse (.layerShape index))

/-- Reads the layers that follow a number of others. -/
def listOfConfig (catalogue : Catalogue) : Nat → List Value → Except Failure (List Layer)
  | _, [] => .ok []
  | index, v :: vs => do
    let layer ← ofConfig catalogue index v
    pure (layer :: (← listOfConfig catalogue (index + 1) vs))

end Layer

/-- Reads a plot. -/
def Plot.ofConfig (catalogue : Catalogue) (config : Value) : Logged Plot := do
  let own ← Config.entries config
  let given := Value.get own "data"
  let data := if given.isTruthy then given else .dict []
  if data.characters?.isNone && (field data "source").given?.isNone then
    Logged.fail (.misuse .noSource)
  let table ← Config.table catalogue data
  -- An absent, null or empty list of layers are all no layers.
  let given := Value.get own "layers"
  let items ← if given.isTruthy then
      match given with
      | .list items => pure items
      | _ => Logged.fail (.misuse .layersShape)
    else pure []
  let layers ← Layer.listOfConfig catalogue 0 items
  unless (Config.source data).isWritable do
    Logged.fail (.fault .badValue)
  Logged.record (.configRead layers.length (Config.source data).plain)
  let mapping ← Mapping.ofConfig (Value.get own "aesthetics") false
  Plot.make (.part table) (.part mapping) (layers.map .part)

/-- Reads the options of a build. -/
def BuildConfig.ofConfig (config : Value) : Logged BuildConfig := do
  let own ← Config.entries config
  let given := Value.get own "build"
  let options := if given.isTruthy then given else .dict []
  let names ← (Config.optionNames options).mapError Failure.fault
  Config.refuseUnknown names BuildConfig.optionNames .unknownBuildOptions
  if given.isTruthy then
    Logged.record (.buildOptions options)
  match options with
  | .dict entries => BuildConfig.make entries
  | _ => Logged.fail (.fault .wrongShape)

end PlotGrammar
