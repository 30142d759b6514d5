import PlotGrammar.Value
import PlotGrammar.Table.Kind

/-!
# Problems

Everything that can be wrong with a description is one constructor of an inductive type, carrying
what the description said; the wording is a function of it.

* `Misuse` lists the rules of the description itself that can be broken.
* `LayerCause` lists what can go wrong when a layer meets its data; a `LayerProblem` adds the layer
  and the channel concerned, and `LayerCause.category` sorts the causes into six categories.
* `Problem` is either of the two: what a build collects and reports together.
* `Failure` is how an operation ends without a result. `Fault`s are the failures that no rule of a
  description accounts for, such as a key that is missing from a look-up; a build never collects
  them.
* What is wrong is worded at once, so a problem whose wording holds a value that cannot be written
  out is never reported: `Failure.misuse` and `Failure.layer` then give a fault.
-/

namespace PlotGrammar

/-- A rule of the description that is broken. -/
inductive Misuse where
  | unknownChannel (given : Value)
  | notBinding (channel : Channel) (given : Value)
  | channelRepeated (channel : Channel)
  | blankColumn (given : Value)
  | unknownGeometry (given : Value)
  | unknownStat (given : Value)
  | repeatedNames (names : List String)
  | undeclaredNames (names : List String)
  | kindsOfUnknownColumns (names : List Value)
  | kindsWithoutData (names : List Value)
  | aggregatorRefused
  | kernelRefused
  | layerMapping
  | layerData
  | layerStyle
  | plotData
  | plotMapping
  | plotRemoval
  | plotLayers
  | maxWorkers (given : Value)
  | defaultBins (given : Value)
  | densityPoints (given : Value)
  | unknownSource (name : Value)
  | sourceShape (given : Value)
  | noSource
  | unnamedSource
  | layersShape
  | layerShape (index : Nat)
  | layerGeometry (index : Nat)
  | unknownBuildOptions (names : List Value)
  | unknownStatOptions (names : List Value)
  | statWithoutKind
  | emptyBinding (channel : Value)
  | bindingShape (channel given : Value)
  | bindingKeys (channel : Value) (names : List Value)
  | bindingChoice (channel : Value) (chosen : List String)
  | rootRemoval (channel : Value)
  | documentShape (path : String)
  | chartWithoutLayers
  | undrawableGeometry (geometry : Geometry)
  | unknownLinetype (given : String) (known : List String)

namespace Misuse

/-- Names after a colon, separated by commas. -/
def oneOf (names : List String) : String :=
  "; expected one of: " ++ ", ".intercalate names

/-- A text between single quotes, as it stands. -/
def ticked (text : String) : String :=
  "'" ++ text ++ "'"

/-- The items of a list, quoted. -/
def bracketed (items : List Value) : String :=
  (Value.list items).quoted

/-- The wording of a broken rule. -/
def message : Misuse → String
  | unknownChannel v =>
    "Unknown channel " ++ ticked v.plain ++ oneOf (Channel.all.map (·.name))
  | notBinding c v =>
    "Channel " ++ ticked c.name ++ " must be bound with col(), const() or REMOVED, got " ++ v.quoted
  | channelRepeated c => "Channel " ++ ticked c.name ++ " is bound more than once"
  | blankColumn v => "ColumnRef.name must be a non-empty string, got " ++ v.quoted
  | unknownGeometry v =>
    "Unknown geometry " ++ ticked v.plain ++ oneOf (Geometry.all.map (·.name))
  | unknownStat v => "Unknown stat " ++ ticked v.plain ++ oneOf (StatKind.all.map (·.name))
  | repeatedNames names => "DataTable column names must be unique, got " ++ Text.quotedList names
  | undeclaredNames names =>
    "DataTable columns " ++ Text.quotedList names ++ " have no declared kind"
  | kindsOfUnknownColumns names =>
    "DataTable declares kinds for unknown columns " ++ bracketed names
  | kindsWithoutData names =>
    "Kinds declared for columns " ++ bracketed names ++ " that are not in the data"
  | aggregatorRefused => "register_aggregator requires a name and a callable"
  | kernelRefused => "register_kernel requires a name and a callable"
  | layerMapping => "Layer.mapping must be an AestheticMapping or None"
  | layerData => "Layer.data must be a DataTable or None"
  | layerStyle => "Layer.style must be a mapping"
  | plotData => "Plot.data must be a DataTable"
  | plotMapping => "Plot.mapping must be an AestheticMapping"
  | plotRemoval =>
    "Plot.mapping can not remove channels; REMOVED is only meaningful in a layer mapping"
  | plotLayers => "Plot.layers must contain Layer objects"
  | maxWorkers v => "BuildConfig.max_workers must be a positive integer, got " ++ v.quoted
  | defaultBins v => "BuildConfig.default_bins must be a positive integer, got " ++ v.quoted
  | densityPoints v => "BuildConfig.density_points must be an integer >= 2, got " ++ v.quoted
  | unknownSource name => "Data source " ++ ticked name.plain ++ " is not registered"
  | sourceShape v =>
    "Data sources must be DataTables or DataFrames, got " ++ v.sort
  | noSource => "No data source specified in config"
  | unnamedSource => "Data configs must name a 'source'"
  | layersShape => "Plot config 'layers' must be a list"
  | layerShape i => "Layer " ++ toString i ++ " config must be a mapping"
  | layerGeometry i => "Layer " ++ toString i ++ " must name a geometry"
  | unknownBuildOptions names => "Unknown build options: " ++ bracketed names
  | unknownStatOptions names => "Unknown stat options: " ++ bracketed names
  | statWithoutKind => "Stat configs must name a 'kind'"
  | emptyBinding c =>
    "Channel " ++ ticked c.plain ++ " has an empty binding; use 'removed: true' to drop it"
  | bindingShape c v =>
    "Channel " ++ ticked c.plain ++ " must be a mapping with 'field', 'value' or 'removed', got " ++
      v.quoted
  | bindingKeys c names => "Channel " ++ ticked c.plain ++ " has unknown keys " ++ bracketed names
  | bindingChoice c chosen =>
    "Channel " ++ ticked c.plain ++
      " must specify exactly one of 'field', 'value' or 'removed'; got " ++
      (if chosen.isEmpty then "none" else Text.quotedList chosen)
  | rootRemoval c =>
    "Channel " ++ ticked c.plain ++ " can only be removed in a layer's aesthetics"
  | documentShape path => "Plot config at " ++ path ++ " must be a mapping"
  | chartWithoutLayers => "RenderSpec must include at least one layer for Altair rendering."
  | undrawableGeometry g => "Altair chart does not support geometry type " ++ ticked g.name
  | unknownLinetype given known => "Unknown linetype " ++ ticked given ++ oneOf known

/-- The values that the wording of a broken rule writes out. -/
def shown : Misuse → List Value
  | unknownChannel v | notBinding _ v | blankColumn v | unknownGeometry v | unknownStat v
  | maxWorkers v | defaultBins v | densityPoints v | unknownSource v | emptyBinding v
  | bindingChoice v _ | rootRemoval v => [v]
  | kindsOfUnknownColumns names | kindsWithoutData names | unknownBuildOptions names
  | unknownStatOptions names => names
  | bindingShape c v => [c, v]
  | bindingKeys c names => c :: names
  | _ => []

/-- Whether a broken rule has a wording. -/
def isWritable (r : Misuse) : Bool :=
  r.shown.all Value.isWritable

end Misuse

/-- What can go wrong when a layer meets its data. -/
inductive LayerCause where
  | columnAbsent (name : String) (available : List String)
  | referenceAbsent (channel : Channel) (column : String) (place : String)
  | scaleKind (channel : Channel) (kind : ColumnKind) (column : String) (scale : ColumnKind)
  | statKind (stat : StatKind) (channel : Channel) (column : String) (kind : ColumnKind)
  | reducedKind (channel : Channel) (column : String) (kind : ColumnKind)
  | geometryNeeds (geometry : Geometry) (missing : List String)
  | axisUnbound (stat : StatKind) (channel : Channel)
  | noAxis (stat : StatKind)
  | valueAxisUnbound (axis : Axis)
  | noLevels (channel : Channel)
  | noFiniteValues (channel : Channel)
  | bins (given : Value)
  | binWidth (given : Value)
  | binsAndWidth
  | boundary (given : Value)
  | bandwidth (given : Value)
  | adjust (given : Value)
  | points (given : Value)
  | unknownAggregator (given : String) (known : List String)
  | noAggregator (given : Value)
  | unknownKernel (given : Value) (known : List String)
  | orientation (given : Value)
  | alreadyBinned
  | emptyRoot

/-- The categories that causes are sorted into. -/
inductive LayerCategory where
  | missingColumn
  | kindMismatch
  | unsatisfiedGeometry
  | scaleDomain
  | statParameter
  | emptyDataset
  deriving DecidableEq, Repr

namespace LayerCause

open Misuse (ticked oneOf)

/-- The category of a cause. -/
def category : LayerCause → LayerCategory
  | columnAbsent .. | referenceAbsent .. => .missingColumn
  | scaleKind .. | statKind .. | reducedKind .. => .kindMismatch
  | geometryNeeds .. | axisUnbound .. | noAxis .. | valueAxisUnbound .. => .unsatisfiedGeometry
  | noLevels .. | noFiniteValues .. => .scaleDomain
  | emptyRoot => .emptyDataset
  | _ => .statParameter

/-- The wording of a cause, without the layer it concerns. -/
def message : LayerCause → String
  | columnAbsent name available =>
    "Column " ++ ticked name ++ " is not present; available columns: " ++ Text.quotedList available
  | referenceAbsent c column place =>
    "channel " ++ ticked c.name ++ " references column " ++ ticked column ++
      ", which is not in the layer's " ++ place
  | scaleKind c kind column scale =>
    "channel " ++ ticked c.name ++ " is bound to " ++ kind.name ++ " column " ++ ticked column ++
      " but its scale is " ++ scale.name
  | statKind stat c column kind =>
    "stat " ++ ticked stat.name ++ " expects a continuous column on channel " ++ ticked c.name ++
      ", but " ++ ticked column ++ " is " ++ kind.name
  | reducedKind c column kind =>
    "stat 'summary' reduces channel " ++ ticked c.name ++
      " and expects a continuous column, but " ++ ticked column ++ " is " ++ kind.name
  | geometryNeeds g missing =>
    "geometry " ++ ticked g.name ++ " requires channel(s) " ++
      ", ".intercalate (missing.map Text.quoted)
  | axisUnbound stat c =>
    "stat " ++ ticked stat.name ++ " runs along " ++ ticked c.name ++
      " but no column is bound to it"
  | noAxis stat => "stat " ++ ticked stat.name ++ " requires a column bound to 'x' or 'y'"
  | valueAxisUnbound axis => "stat 'summary' requires a column bound to " ++ ticked axis.name
  | noLevels c => "scale for channel " ++ ticked c.name ++ " has no levels"
  | noFiniteValues c => "scale for channel " ++ ticked c.name ++ " has no finite values"
  | bins v => "bins must be a positive integer, got " ++ v.quoted
  | binWidth v => "bin_width must be positive, got " ++ v.quoted
  | binsAndWidth => "bins and bin_width are mutually exclusive"
  | boundary v => "boundary must be a finite number, got " ++ v.quoted
  | bandwidth v => "bandwidth must be positive, got " ++ v.quoted
  | adjust v => "adjust must be positive, got " ++ v.quoted
  | points v => "n_points must be an integer >= 2, got " ++ v.quoted
  | unknownAggregator given known => "unknown aggregator " ++ ticked given ++ oneOf known
  | noAggregator v => "unknown aggregator " ++ ticked v.plain
  | unknownKernel v known => "unknown kernel " ++ ticked v.plain ++ oneOf known
  | orientation v => "orientation must be 'x' or 'y', got " ++ v.quoted
  | alreadyBinned => "data is already binned; binning it again is not supported"
  | emptyRoot => "the root dataset has no rows"

/-- The value that the wording of a cause writes out, if there is one. -/
def shown? : LayerCause → Option Value
  | bins v | binWidth v | boundary v | bandwidth v | adjust v | points v | noAggregator v
  | unknownKernel v _ | orientation v => some v
  | _ => none

/-- Whether a cause has a wording. -/
def isWritable (cause : LayerCause) : Bool :=
  cause.shown?.all Value.isWritable

end LayerCause

/-- A cause with the layer and the channel it concerns, where it concerns one. -/
structure LayerProblem where
  cause : LayerCause
  layer : Option Int
  /-- The channel, or the choice of channels, as messages name it. -/
  channel : Option String

/-- The wording of a cause, after the number of the layer if it concerns one. -/
def LayerProblem.message (p : LayerProblem) : String :=
  match p.layer with
  | none => p.cause.message
  | some i => "Layer " ++ toString i ++ ": " ++ p.cause.message

/-- What a build reports about a description. -/
inductive Problem where
  | misuse (rule : Misuse)
  | layer (problem : LayerProblem)

/-- The wording of a problem. -/
def Problem.message : Problem → String
  | misuse r => r.message
  | layer p => p.message

/-- A failure that no rule of a description accounts for. -/
inductive Fault where
  /-- A value has a shape that the operation has no meaning for. -/
  | wrongShape
  /-- A value has the right shape and no meaning. -/
  | badValue
  /-- A text spells no date. -/
  | unreadableDate
  /-- A look-up finds nothing under its key. -/
  | missingKey
  /-- A value has no entries to go through. -/
  | noEntries
  /-- A number is beyond the doubles, or beyond the words it is to be stored in. -/
  | overflow
  /-- There is no first cell. -/
  | noFirst
  /-- A kernel gives one number where it has to weigh every distance. -/
  | loneWeight
  /-- A memory does not hold so many numbers. -/
  | tooLarge
  /-- A value is refused where it is to be set. -/
  | refusedValue
  /-- A key of a configuration is of a sort that names no place. -/
  | unnamableKey
  /-- A configuration holds a value of a sort that it cannot keep. -/
  | unkeptValue
  /-- A text marks a reference and spells none. -/
  | malformedReference
  /-- A reference asks for a way of resolving that nobody has made known. -/
  | unknownResolver
  /-- A reference in a configuration leads nowhere. -/
  | danglingReference
  /-- A reference leads to a value that is still to be given. -/
  | awaitedReference
  /-- A reference leads through a value that holds nothing, or in a circle. -/
  | unresolvedReference
  /-- A document holds a single value that is no text. -/
  | loneValue
  /-- A text holds in quotes a single value that is no text. -/
  | loneQuotedValue
  /-- A document holds a character that no document may hold. -/
  | unreadableCharacter
  /-- The characters of a document form no marks and scalars. -/
  | malformedToken
  /-- The marks and scalars of a document form no nodes. -/
  | malformedDocument
  /-- The nodes of a document form no single tree. -/
  | malformedTree
  /-- A node of a document stands for no value. -/
  | refusedNode
  /-- A node of a document holds itself. -/
  | endless
  deriving DecidableEq, Repr

/-- How an operation ends without a result. -/
inductive Failure where
  | problem (p : Problem)
  | build (problems : List Problem)
  | scalesFrozen
  | fault (f : Fault)

namespace Failure

/-- A broken rule, as a failure. One without a wording is not reported: the attempt to word it is a
fault. -/
def misuse (r : Misuse) : Failure :=
  if r.isWritable then problem (.misuse r) else fault .badValue

/-- A problem of a layer on a channel, as a failure. A cause without a wording is not reported. -/
def layer (cause : LayerCause) (index : Option Int) (channel : Option String) : Failure :=
  if cause.isWritable then problem (.layer ⟨cause, index, channel⟩) else fault .badValue

/-- The failure to word a problem after the number of its layer: no report, if the number cannot be
written out. Layers of a plot are numbered by position, so this is for numbers that are given. -/
def numbered : Failure → Failure
  | problem (.layer p) =>
    if p.layer.all fun i => (Value.int i).isWritable then problem (.layer p) else fault .badValue
  | e => e

theorem misuse_of_isWritable {r : Misuse} (h : r.isWritable = true) :
    misuse r = problem (.misuse r) :=
  if_pos h

theorem layer_of_isWritable {cause : LayerCause} (h : cause.isWritable = true)
    (index : Option Int) (channel : Option String) :
    layer cause index channel = problem (.layer ⟨cause, index, channel⟩) :=
  if_pos h

/-- The wording of a build that found problems. -/
def buildMessage (problems : List Problem) : String :=
  "Plot build failed with " ++ toString problems.length ++ " error(s):\n" ++
    "\n".intercalate (problems.map fun p => "  - " ++ p.message)

/-- The wording of the attempt to extend frozen scales. -/
def frozenMessage : String :=
  "ScaleRegistry is frozen; create a new registry for another build"

end Failure

end PlotGrammar
