import PlotGrammar.Stat.Config
import PlotGrammar.Table
import PlotGrammar.Logged

/-!
# The axis a statistic runs along

Bins and density curves run along one axis and compute the other; a summary reduces along the axis
opposite to the one it runs along. The axis is the one asked for, else the only one bound to a
column, else the only one bound to a continuous column, else the one the geometry prefers.

Where the axis decides what is computed, `Stat.remap` gives the mapping to draw the result with.
-/

namespace PlotGrammar

/-- The geometry a value names. -/
def Geometry.ofValue (v : Value) : Except Failure Geometry :=
  match v.characters?.bind Geometry.ofName? with
  | some g => .ok g
  | none => .error (.misuse (.unknownGeometry v))

namespace Stat

/-- The axis a geometry prefers; the horizontal one if there is no geometry. -/
def preferredAxis (geometry : Value) : Except Failure Axis :=
  match geometry with
  | .null => .ok .x
  | v => do pure (← Geometry.ofValue v).rule.orientation

/-- The axes that are bound to columns. -/
def boundAxes (mapping : Mapping) : List Axis :=
  Axis.all.filter fun a => (mapping.column? a.channel).isSome

/-- Of the bound axes, those bound to continuous columns. -/
def continuousAxes (table : Table) (mapping : Mapping) : List Axis → Except Failure (List Axis)
  | [] => .ok []
  | a :: rest => do
    let kind ← table.kind ((mapping.column? a.channel).getD "")
    let rest ← continuousAxes table mapping rest
    pure (if kind = .continuous then a :: rest else rest)

/-- The axis of a statistic that is asked to run along one. -/
def requiredAxis (stat : StatKind) (mapping : Mapping) (layer : Option Int) (asked : Channel) :
    Except Failure Axis :=
  match (boundAxes mapping).find? fun a => decide (a.channel = asked) with
  | some a => .ok a
  | none => .error (.layer (.axisUnbound stat asked) layer (some asked.name))

/-- The axis of a statistic that is free to choose. -/
def chosenAxis (stat : StatKind) (table : Table) (mapping : Mapping) (geometry : Value)
    (layer : Option Int) : Except Failure Axis := do
  match boundAxes mapping with
  | [] => throw (.layer (.noAxis stat) layer (some Channel.x.name))
  | [a] => pure a
  | axes =>
    match ← continuousAxes table mapping axes with
    | [a] => pure a
    | _ => preferredAxis geometry

/-- The axis a statistic runs along. -/
def axis (stat : StatKind) (asked : Option Axis) (table : Table) (mapping : Mapping)
    (geometry : Value) (layer : Option Int) : Except Failure Axis :=
  match asked with
  | some a => requiredAxis stat mapping layer a.channel
  | none => chosenAxis stat table mapping geometry layer

/-- The axis a statistic runs along, from parameters that nobody has checked. -/
def orientation (stat : StatConfig) (table : Table) (mapping : Mapping) (geometry : Value)
    (layer : Option Int) : Except Failure Axis :=
  match stat.orientation with
  | .null => chosenAxis stat.kind table mapping geometry layer
  | v =>
    match v.characters?.bind Channel.ofName? with
    | some c => requiredAxis stat.kind mapping layer c
    | none => .error (.fault .badValue)

/-- The name of the column of counts. -/
def countName : String :=
  "count"

/-- The name of the column of densities. -/
def densityName : String :=
  "density"

/-- The name of the column of densities as a share of the highest. -/
def scaledName : String :=
  "scaled"

/-- The name of the column where bins of a column start. -/
def startName (column : String) : String :=
  column ++ "_start"

/-- The name of the column where bins of a column end. -/
def stopName (column : String) : String :=
  column ++ "_end"

/-- The computed column that a kind of statistic draws on the axis it does not run along. -/
def computedName? : StatKind → Option String
  | .bin => some countName
  | .density => some densityName
  | _ => none

/-- The only axis bound to a column, if there is only one. -/
def onlyAxis? (mapping : Mapping) : Option Axis :=
  match boundAxes mapping with
  | [a] => some a
  | _ => none

/-- Binds the axis opposite to the one a statistic runs along to the column it computes, unless that
axis is bound to a column of the result. -/
def bindComputed (stat : StatKind) (mapping : Mapping) (result : Option Table) (along : Axis)
    (computed : String) (layer : Option Int) : Logged Mapping := do
  let other := along.other.channel
  match mapping.column? other with
  | none => pure (mapping.set other (.column computed))
  | some current =>
    if (result.map fun t => t.contains current).getD false then pure mapping
    else
      Logged.record (.columnReplaced layer other stat current)
      pure (mapping.set other (.column computed))

/-- Whether a binding survives into a result: it refers to no column, or to one of the result. -/
def survives (result : Table) : Channel → Binding → Bool := fun _ b =>
  match b.column? with
  | some name => result.contains name
  | none => true

/-- Drops the column bindings that refer to no column of the result. -/
def dropAbsent (stat : StatKind) (mapping : Mapping) (result : Table) (layer : Option Int) :
    Logged Mapping := do
  let gone := mapping.columns.filter fun e => !result.contains e.2
  Logged.recordAll (gone.map fun e => .channelDropped layer e.1 e.2 stat)
  pure (mapping.filter (survives result))

/-- The mapping to draw the output of a statistic with, given the axis it ran along if that is
known. -/
def remap (stat : StatKind) (mapping : Mapping) (result : Option Table) (along : Option Axis)
    (layer : Option Int) : Logged Mapping := do
  let bound ← match computedName? stat, along.or (onlyAxis? mapping) with
    | some computed, some a => bindComputed stat mapping result a computed layer
    | _, _ => pure mapping
  match result with
  | none => pure bound
  | some t => dropAbsent stat bound t layer

end Stat

end PlotGrammar
