import PlotGrammar.Stat.Orientation
import PlotGrammar.Stat.Smooth
import PlotGrammar.Table.Group

/-!
# Running a statistic

A statistic is a function from a table and a mapping to a table. It reads the columns the mapping
binds and nothing else of the table; the identity gives the table back as it is.

* `Stat.run` checks the parameters and runs the statistic.
* Bins and curves are computed group by group: `Stat.samples` splits the finite values of a column
  by the cells of the group columns, in the order in which these are first seen.
* A summary has a row per group; `Stat.summary` reduces each column over the rows of the group.
-/

namespace PlotGrammar

namespace Stat

/-- The numbers used where a statistic does not set its own, as given. -/
structure Defaults where
  bins : Value := .int 30
  points : Value := .int 512

/-- The whole number in a value; a truth value counts as zero or one. -/
def wholeNumber (v : Value) : Except Fault Int :=
  match v with
  | .bool b => .ok (if b then 1 else 0)
  | .int i => .ok i
  | _ => .error .wrongShape

/-- A size that a list of doubles can have; beyond the words there is no such size, and beyond a
hundred thousand millions no memory for it. -/
def allocatable (size : Int) : Except Fault Nat :=
  if size < 0 ∨ 1152921504606846976 ≤ size then .error .badValue
  else if 100000000000 < size then .error .tooLarge
  else .ok size.toNat

/-- The columns bound to channels that are no positions, except one, each once. Columns of numbers
divide the rows only if they are bound to the group channel. -/
def groupColumns (table : Table) (mapping : Mapping) (other : String) :
    Except Failure (List String) :=
  mapping.columns.foldlM (fun keys e => do
    if e.1.isPositional || e.2 == other || keys.contains e.2 then pure keys
    else if e.1 = .group then pure (keys ++ [e.2])
    else
      let kind ← table.kind e.2
      pure (if kind = .continuous then keys else keys ++ [e.2])) []

/-- The column bound to an axis, which has to be continuous. -/
def continuousColumn (stat : StatKind) (table : Table) (mapping : Mapping) (along : Axis)
    (layer : Option Int) : Except Failure String := do
  let name := (mapping.column? along.channel).getD ""
  let kind ← table.kind name
  if kind = .continuous then pure name
  else throw (.layer (.statKind stat along.channel name kind) layer (some along.name))

/-- A row as a statistic sees it: the cells of the group columns, and one value. -/
structure Observation where
  key : List Cell
  value : Float

/-- The values of a group, under the cells of its first row. -/
structure Sample where
  key : List Cell
  values : List Float

/-- The key that rows of one group share. -/
def keyOf (cells : List Cell) : List CellKey :=
  cells.map Cell.key

/-- The columns of these names. -/
def allSeries (table : Table) (names : List String) : Except Failure (List Column) :=
  names.mapM table.series

/-- The rows whose value in a column is finite, each with its cells in the group columns. -/
def observations (height : Nat) (column : Column) (keys : List Column) : List Observation :=
  ((Table.rowsOf height (keys.map Column.cells)).zip column.finiteFloats).filterMap fun r =>
    r.2.map fun v => ⟨r.1, v⟩

/-- The samples of observed rows: one per group, or one of all rows if nothing divides them. -/
def samples (grouped : Bool) (rows : List Observation) : List Sample :=
  if grouped then
    (Group.of (fun r : Observation => keyOf r.key) rows).filterMap fun g =>
      g.2.head?.map fun r => ⟨r.key, g.2.map Observation.value⟩
  else [⟨[], rows.map Observation.value⟩]

/-- The column that bins or curves run along, and the columns that divide its rows into groups. -/
structure Input where
  name : String
  column : Column
  keys : List String

/-- The finite values of the column. -/
def Input.values (input : Input) : List Float :=
  input.column.finiteFloats.filterMap id

/-- Reads the input of a statistic that runs along an axis, recording how many rows have no finite
value. -/
def input (stat : StatKind) (table : Table) (mapping : Mapping) (along : Axis)
    (layer : Option Int) : Logged Input := do
  let name ← continuousColumn stat table mapping along layer
  let keys ← groupColumns table mapping name
  let column ← table.series name
  let dropped := column.finiteFloats.countP Option.isNone
  unless dropped = 0 do
    Logged.record (.valuesDropped layer dropped name)
  pure ⟨name, column, keys⟩

/-- How group columns divide the rows of an input. -/
structure Division where
  columns : List Column
  kinds : List ColumnKind
  samples : List Sample

/-- Divides the rows of an input by its group columns, whose cells have to be keys. -/
def Input.divide (table : Table) (input : Input) : Except Failure Division := do
  let columns ← allSeries table input.keys
  let kinds ← input.keys.mapM table.kind
  let rows := observations table.height input.column columns
  unless rows.all fun r => r.key.all Cell.isKeyed do
    throw (.fault .wrongShape)
  pure ⟨columns, kinds, samples (!input.keys.isEmpty) rows⟩

/-- How the keys of a group column of objects are stored in a result: as they are, or as numbers of
one sort. -/
inductive KeyStore where
  | kept
  | whole
  | double
  deriving DecidableEq, Repr

namespace KeyStore

/-- A key as it is stored. -/
def cell : KeyStore → Cell → Cell
  | kept, c => c
  | whole, c => (Aggregate.wholeCell? c).elim c .int
  | double, c => Column.floatCell c

/-- Numbers with a double or a missing key among them are stored as doubles. -/
def ofNumbers (keys : List Cell) : KeyStore :=
  match ColumnType.ofCells keys with
  | .float => double
  | _ => kept

/-- Where every sample has rows of its own, truth values beside numbers are stored as numbers. -/
def ofAmounts (keys : List Cell) : KeyStore :=
  let isAmount (c : Cell) : Bool := c.isMissing || c.isBool || c.isNumber
  if !keys.all isAmount || keys.all Cell.isBool || keys.all Cell.isMissing then ofNumbers keys
  else if (keys.filterMap Aggregate.wholeCell?).length = keys.length then whole
  else double

/-- How the keys of a column are stored: those of objects by a choice, others as they are. -/
def ofColumn (choose : List Cell → KeyStore) (column : Column) (keys : List Cell) : KeyStore :=
  if column.type = .object then choose keys else kept

end KeyStore

/-- The type of a group column in a result. -/
def keyType (column : Column) (cells : List Cell) : ColumnType :=
  if column.type = .object then ColumnType.ofCells cells else column.type

/-- The rules for the group columns of a result, whose rows begin with the key of their sample. -/
def keyRules {ρ : Type} (names : List String) (columns : List Column) (kinds : List ColumnKind)
    (stores : List KeyStore) (key : ρ → List Cell) : List (Table.Rule ρ) :=
  (names.zip (columns.zip kinds)).mapIdx fun i e =>
    ⟨e.1, e.2.2, keyType e.2.1, fun r => (stores.getD i .kept).cell ((key r).getD i .missing)⟩

/-- How the keys of some group columns are stored, from the keys of all groups. -/
def keyStores (choose : List Cell → KeyStore) (columns : List Column) (keys : List (List Cell)) :
    List KeyStore :=
  columns.mapIdx fun i column =>
    KeyStore.ofColumn choose column (keys.map fun key => key.getD i .missing)

/-- The rule for a computed column of doubles. -/
def floatRule {ρ : Type} (name : String) (value : ρ → Float) : Table.Rule ρ :=
  ⟨name, .continuous, fun _ => .float, fun r => .ofFloat (value r)⟩

/-- The table of rows computed from samples. A group column cannot have the name of a computed one:
once there are rows that fails outright. -/
def assemble {ρ : Type} (stat : StatKind) (keys : List String) (division : Division)
    (computed : List (Table.Rule ρ)) (key : ρ → List Cell) (blocks : List (List ρ)) :
    Except Failure Table :=
  if !blocks.isEmpty && keys.any fun k => computed.any fun r => r.name == k then
    .error (.fault .badValue)
  else
    let rows := blocks.flatten
    let stores := keyStores .ofAmounts division.columns (rows.map key)
    Table.ofRows (keyRules keys division.columns division.kinds stores key ++ computed) rows
      stat.name

/-- A row of a binned table. -/
structure BinRow where
  key : List Cell
  bin : Histogram.Bin Float
  total : Nat

/-- The columns computed for bins. -/
def binRules (column : String) : List (Table.Rule BinRow) :=
  [floatRule column fun r => r.bin.middle,
    floatRule (startName column) fun r => r.bin.start,
    floatRule (stopName column) fun r => r.bin.stop,
    floatRule countName fun r => Float.ofNat r.bin.count,
    floatRule densityName fun r => r.bin.density r.total]

/-- The rows of one sample. -/
def binBlock (edges : List Float) (s : Sample) : List BinRow :=
  let bins := Histogram.count s.values edges
  bins.map fun b => ⟨s.key, b, Histogram.total bins⟩

/-- The number nearest to a parameter. -/
def toFloat (n : Number) : Except Failure Float :=
  match n.toFloat? with
  | some x => .ok x
  | none => .error (.fault .overflow)

/-- A step of an operation that fails with a fault. -/
def faulty {α : Type} (x : Except Fault α) : Except Failure α :=
  x.mapError .fault

/-- The number of bins that is asked for; a number just below zero leaves none. -/
def binCount (settings : Settings) (defaults : Defaults) : Except Fault Nat :=
  match settings.bins with
  | some n => .ok n
  | none => do
    let n ← wholeNumber defaults.bins
    if n < -1 then throw .badValue else pure n.toNat

/-- How the settings divide a range. -/
def binning (settings : Settings) (defaults : Defaults) :
    Except Failure (Histogram.Binning Float) := do
  match settings.binWidth with
  | some w => pure (.width (← toFloat w) (← settings.boundary.mapM toFloat))
  | none => pure (.count (← faulty (binCount settings defaults)))

/-- The edges for a sample, which must not descend. An empty one is not divided. -/
def binEdges (settings : Settings) (defaults : Defaults) (values : List Float) :
    Except Failure (List Float) := do
  let how ← if values.isEmpty then pure (.count 1) else binning settings defaults
  -- The number of edges is looked at before a list of that length is made.
  let steps ← faulty (Histogram.steps how values)
  let _ ← faulty (allocatable (steps + 1))
  let edges ← faulty (Histogram.edges how values)
  unless Histogram.ascending edges do
    throw (.fault .badValue)
  pure edges

/-- Counts a column in bins. -/
def bin (settings : Settings) (defaults : Defaults) (table : Table) (mapping : Mapping)
    (geometry : Value) (layer : Option Int) : Logged Table := do
  if table.computedBy = some StatKind.bin.name then
    Logged.fail (.layer .alreadyBinned layer none)
  else
    let along ← axis .bin settings.axis table mapping geometry layer
    let input ← input .bin table mapping along layer
    let edges ← binEdges settings defaults input.values
    let division ← input.divide table
    assemble .bin input.keys division (binRules input.name) BinRow.key
      (division.samples.map (binBlock edges))

/-- A row of a table of density curves. -/
structure CurveRow where
  key : List Cell
  point : Smooth.Point Float

/-- The columns computed for density curves. -/
def curveRules (column : String) : List (Table.Rule CurveRow) :=
  [floatRule column fun r => r.point.position,
    floatRule densityName fun r => r.point.density,
    floatRule countName fun r => r.point.count,
    floatRule scaledName fun r => r.point.scaled]

/-- The bandwidth for a sample, adjusted. -/
def bandwidth (settings : Settings) (values : List Float) : Except Failure Number :=
  let base := settings.bandwidth.getD (.float (Smooth.bandwidth values))
  match base.mul? settings.adjust with
  | some n => .ok n
  | none => .error (.fault .overflow)

/-- The number of points a curve is read at, for a sample of so many values. -/
def pointCount (settings : Settings) (defaults : Defaults) (values : Nat) : Except Fault Nat := do
  let asked ← match settings.points with
    | some n => pure (n : Int)
    | none => wholeNumber defaults.points
  let points ← allocatable asked
  let _ ← allocatable (points * values)
  pure points

/-- The double nearest to a bandwidth times a number of values. -/
def massOf (bandwidth : Number) (values : Nat) : Except Failure Float :=
  match bandwidth.mul? (.int values) with
  | some n => toFloat n
  | none => .error (.fault .overflow)

/-- The kernel that makes a curve of a weighing. -/
def kernelOf (weighing : Weighing) : Except Fault Kernel :=
  match weighing with
  | .each weigh => .ok weigh
  | .lone _ f => .error f

/-- The rows of one sample; a sample without values has none. A curve has at least one point. -/
def curveBlock (weighing : Weighing) (settings : Settings) (defaults : Defaults) (s : Sample) :
    Except Failure (Option (List CurveRow)) := do
  match s.values with
  | [] => pure none
  | v :: vs =>
    let base ← bandwidth settings (v :: vs)
    let points ← faulty (pointCount settings defaults (vs.length + 1))
    let width ← toFloat base
    let kernel ← faulty (kernelOf weighing)
    let mass ← massOf base (vs.length + 1)
    if points = 0 then
      throw (.fault .badValue)
    pure (some ((Smooth.curve kernel width mass points v vs).map fun p => ⟨s.key, p⟩))

/-- Estimates the density of a column. -/
def density (kit : Toolkit) (kernel : Value) (settings : Settings) (defaults : Defaults)
    (table : Table) (mapping : Mapping) (geometry : Value) (layer : Option Int) : Logged Table := do
  let along ← axis .density settings.axis table mapping geometry layer
  let input ← input .density table mapping along layer
  match kit.kernel? kernel with
  | none => Logged.fail (.fault .missingKey)
  | some weighing =>
    let division ← input.divide table
    let blocks ← division.samples.filterMapM fun s =>
      (curveBlock weighing settings defaults s : Except Failure (Option (List CurveRow)))
    assemble .density input.keys division (curveRules input.name) CurveRow.key blocks

/-- The axis a summary reduces: the one opposite to the axis asked for; else the only one of the two
bound to a continuous column; else the one opposite to the axis the geometry prefers if both are;
else the vertical one. -/
def valueAxis (asked : Option Axis) (table : Table) (mapping : Mapping) (geometry : Value) :
    Except Failure Axis := do
  match asked with
  | some a => pure a.other
  | none =>
    let kindOn (a : Axis) : Except Failure (Option ColumnKind) :=
      (mapping.column? a.channel).mapM table.kind
    let onX ← kindOn .x
    let onY ← kindOn .y
    match onX, onY with
    | some .continuous, some .continuous => pure (← preferredAxis geometry).other
    | some .continuous, _ => pure .x
    | _, _ => pure .y

/-- The columns a summary reduces: those bound to channels that are no keys, each once. Unless cells
are only counted they have to be continuous. -/
def reducedColumns (counting : Bool) (table : Table) (mapping : Mapping) (keys : List String)
    (layer : Option Int) : Except Failure (List String) :=
  mapping.columns.foldlM (fun reduced e => do
    if keys.contains e.2 || reduced.contains e.2 then pure reduced
    else if counting then pure (reduced ++ [e.2])
    else
      let kind ← table.kind e.2
      if kind = .continuous then pure (reduced ++ [e.2])
      else throw (.layer (.reducedKind e.1 e.2 kind) layer (some e.1.name))) []

/-- A row of a summary: the key of a group, and what its columns are reduced to. -/
structure SummaryRow where
  key : List Cell
  values : List Cell

/-- Rows of a table, as a summary sees them: the cells of the keys and of the reduced columns. -/
structure KeyedRow where
  key : List Cell
  cells : List Cell

/-- The rows of a table under its key columns. -/
def keyedRows (height : Nat) (keys reduced : List Column) : List KeyedRow :=
  List.zipWith KeyedRow.mk (Table.rowsOf height (keys.map Column.cells))
    (Table.rowsOf height (reduced.map Column.cells))

/-- The groups of rows: one per key, or one of all rows if there are no keys. -/
def rowGroups (grouped : Bool) (rows : List KeyedRow) : List (List Cell × List KeyedRow) :=
  if grouped then
    (Group.of (fun r : KeyedRow => keyOf r.key) rows).filterMap fun g =>
      g.2.head?.map fun r => (r.key, g.2)
  else [([], rows)]

/-- The results of a column, integers beside doubles being stored as doubles. -/
def settle (types : List ColumnType) (rows : List SummaryRow) : List SummaryRow :=
  let stores := types.mapIdx fun i type =>
    (Column.ofResults type (rows.map fun r => r.values.getD i .missing)).type
  rows.map fun r => { r with values := List.zipWith Column.storeCell stores r.values }

/-- Reduces each column over the rows of a group. A group with no column to reduce gives its key
alone: nothing is handed to the reduction, so nothing goes wrong in it. -/
def reduceGroup (reduce : Aggregator) (types : List ColumnType) (g : List Cell × List KeyedRow) :
    Except Fault SummaryRow := do
  let values ← types.mapIdxM fun i type =>
    reduce ⟨type, g.2.map fun r => r.cells.getD i .missing⟩
  pure ⟨g.1, values⟩

/-- The rules for the columns of a summary. -/
def summaryRules (keys : List String) (keyColumns : List Column) (kinds : List ColumnKind)
    (stores : List KeyStore) (reduced : List String) (types : List ColumnType) :
    List (Table.Rule SummaryRow) :=
  keyRules keys keyColumns kinds stores SummaryRow.key ++
    (reduced.zip types).mapIdx fun i e =>
      ⟨e.1, .continuous, fun cells => (Column.ofResults e.2 cells).type,
        fun r => r.values.getD i .missing⟩

/-- Reduces every column of numbers group by group. The cells of the key columns have to be keys. -/
def summary (kit : Toolkit) (stat : StatConfig) (settings : Settings) (table : Table)
    (mapping : Mapping) (geometry : Value) (layer : Option Int) : Except Failure Table := do
  let valueAxis ← valueAxis settings.axis table mapping geometry
  match mapping.column? valueAxis.channel with
  | none => throw (.layer (.valueAxisUnbound valueAxis) layer (some valueAxis.name))
  | some valueColumn =>
    let reduce ← stat.reduction kit layer
    let counting := stat.aggregator.same (.text "count")
    -- The column across comes first among the keys, then the columns that divide the rows.
    let across := (mapping.column? valueAxis.other.channel).toList
    let others ← groupColumns table mapping valueColumn
    let keys := across ++ others.filter fun k => !across.contains k
    let reduced ← reducedColumns counting table mapping keys layer
    let keyColumns ← allSeries table keys
    let reducedColumns ← allSeries table reduced
    unless keyColumns.all Column.isKeyed do
      throw (.fault .wrongShape)
    let types := reducedColumns.map Column.type
    let groups := rowGroups (!keys.isEmpty) (keyedRows table.height keyColumns reducedColumns)
    let rows ← faulty (groups.mapM (reduceGroup reduce types))
    let kinds ← keys.mapM table.kind
    let stores := keyStores .ofNumbers keyColumns (rows.map SummaryRow.key)
    Table.ofRows (summaryRules keys keyColumns kinds stores reduced types) (settle types rows)
      StatKind.summary.name

/-- Runs a statistic with parameters in range. -/
def runWith (kit : Toolkit) (stat : StatConfig) (settings : Settings) (defaults : Defaults)
    (table : Table) (mapping : Mapping) (geometry : Value) (layer : Option Int) : Logged Table :=
  match stat.kind with
  | .identity => pure table
  | .bin => bin settings defaults table mapping geometry layer
  | .summary => Logged.ofExcept (summary kit stat settings table mapping geometry layer)
  | .density => density kit stat.kernel settings defaults table mapping geometry layer

/-- Runs a statistic over a table with the mapping of a layer. -/
def run (kit : Toolkit) (stat : StatConfig) (defaults : Defaults) (table : Table)
    (mapping : Mapping) (geometry : Value) (layer : Option Int) : Logged Table := do
  let settings ← stat.settings kit layer
  runWith kit stat settings defaults table mapping geometry layer

/-- Whether a kind of statistic gives its input back. -/
def keepsTable : StatKind → Bool
  | .identity => true
  | _ => false

end Stat

end PlotGrammar
