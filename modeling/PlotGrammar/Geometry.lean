import PlotGrammar.Channel
import PlotGrammar.Stat.Kind

/-!
# Geometries

A geometry is the mark a layer draws. Each one has exactly one `Geometry.Rule`: the channels that
must all be bound, a set of which at least one must be bound, the statistic it runs when the layer
names none, and the axis it runs along when the data leave that open.
-/

namespace PlotGrammar

/-- A mark type a layer can draw. -/
inductive Geometry where
  | line
  | bar
  | area
  | point
  | boxplot
  | violin
  | dotplot
  | histogram
  | density
  | freqpoly
  | ribbon
  deriving DecidableEq, Repr, Inhabited

namespace Geometry

/-- Every geometry, in listing order. -/
def all : List Geometry :=
  [line, bar, area, point, boxplot, violin, dotplot, histogram, density, freqpoly, ribbon]

/-- The name a geometry is written with. -/
def name : Geometry → String
  | line => "line"
  | bar => "bar"
  | area => "area"
  | point => "point"
  | boxplot => "boxplot"
  | violin => "violin"
  | dotplot => "dotplot"
  | histogram => "histogram"
  | density => "density"
  | freqpoly => "freqpoly"
  | ribbon => "ribbon"

/-- The geometry with exactly this name. -/
def ofName? (text : String) : Option Geometry :=
  all.find? fun g => g.name == text

/-- What a geometry asks of a mapping, and what it supplies when a layer leaves a choice open. -/
structure Rule where
  /-- Channels that must all be bound. -/
  required : List Channel
  /-- Channels of which one must be bound, unless the list is empty. -/
  oneOf : List Channel
  /-- The statistic of a layer that names none. -/
  defaultStat : StatKind
  /-- The axis the geometry runs along when the mapping leaves it open. -/
  orientation : Axis

/-- The rule of a geometry that needs both axes. -/
def Rule.both : Rule :=
  ⟨[.x, .y], [], .identity, .x⟩

/-- The rule of a geometry that computes one axis from the other. -/
def Rule.either (stat : StatKind) : Rule :=
  ⟨[], [.x, .y], stat, .x⟩

/-- The rule of each geometry. -/
def rule : Geometry → Rule
  | line | bar | area | point | boxplot | violin => .both
  | ribbon => ⟨[.x, .ymin, .ymax], [], .identity, .x⟩
  | histogram | freqpoly | dotplot => .either .bin
  | density => .either .density

end Geometry

end PlotGrammar
