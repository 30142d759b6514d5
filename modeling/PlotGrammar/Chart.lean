import PlotGrammar.Plot.Build

/-!
# Charts

A render specification is drawn as a chart: a mark with properties and encodings of channels, one
unit per layer, several units stacked in paint order.

* `Chart.ofSpec` refuses a specification without layers, a geometry that has no mark, a line type
  without a dash pattern, and data whose columns are not all named by texts.
* A binned bar spans its bin: `Chart.binnedAxis?` finds the axis whose encoding reads the edges.
* `Chart.toValue` is the chart as a plain value, with timestamps in ISO form.
-/

namespace PlotGrammar

/-- One encoding of a unit: which field it reads and how. -/
structure Encoding where
  field : String
  type : Option String
  title : Option String
  domain : Option (List Cell)

/-- One mark with its properties and its encodings, under the names the chart gives them. -/
structure ChartUnit where
  mark : String
  properties : List (Value × Value)
  encodings : List (String × Encoding)

/-- A chart: units in paint order, and what is set for the whole. -/
structure Chart where
  units : List ChartUnit
  settings : List (String × Value)

namespace Chart

/-- The mark a geometry is drawn with, if it can be drawn. -/
def mark? : Geometry → Option String
  | .line | .freqpoly => some "line"
  | .bar | .histogram => some "bar"
  | .area | .density | .ribbon => some "area"
  | .point => some "point"
  | .boxplot => some "boxplot"
  | .dotplot => some "circle"
  | .violin => none

/-- The name of the encoding of a channel; the lower end of an interval takes the place of `y`. -/
def encodingName : Channel → String
  | .x => "x"
  | .y | .ymin => "y"
  | .ymax => "y2"
  | .color => "color"
  | .fill => "fill"
  | .alpha => "opacity"
  | .size => "size"
  | .shape => "shape"
  | .linetype => "strokeDash"
  | .group => "detail"

/-- How a chart reads columns of a kind. -/
def kindType : ColumnKind → String
  | .continuous => "quantitative"
  | .discrete => "nominal"
  | .temporal => "temporal"

/-- Style keys and the mark properties they stand for. -/
def styleAliases : List (String × String) :=
  [("alpha", "opacity"), ("linetype", "strokeDash"), ("linewidth", "strokeWidth")]

/-- The line types and their dash patterns. -/
def dashes : List (String × List Int) :=
  [("solid", [1, 0]), ("dashed", [4, 4]), ("dotted", [1, 3]), ("dotdash", [1, 3, 4, 3]),
    ("longdash", [8, 4])]

/-- The mark property a style key stands for. -/
def propertyName (key : Value) : Value :=
  match key.characters?.bind fun s => styleAliases.lookup s with
  | some name => .text name
  | none => key

/-- The value of a mark property; a dash pattern may be given by name. -/
def propertyValue (name v : Value) : Except Failure Value :=
  match name.same (.text "strokeDash"), v.characters? with
  | true, some given =>
    match dashes.lookup given with
    | some pattern => .ok (.list (pattern.map .int))
    | none => .error (.misuse (.unknownLinetype given (dashes.map (·.1))))
  | _, _ => .ok v

/-- Adds a style entry to the mark properties; groups are no property. -/
def addProperty (properties : List (Value × Value)) (entry : Value × Value) :
    Except Failure (List (Value × Value)) := do
  let name := propertyName entry.1
  let v ← propertyValue name entry.2
  if name.same (.text "group") then pure properties else pure (Value.insert properties name v)

/-- The properties that are drawn: a shorthand is none. -/
def drawnProperties (properties : List (Value × Value)) : List (Value × Value) :=
  properties.filter fun p => !p.1.same (.text "shorthand")

/-- The mark properties of a style. -/
def markProperties (style : List (Value × Value)) : Except Failure (List (Value × Value)) :=
  style.foldlM addProperty []

/-- Whether a property can be set on a mark: it is named by a text other than those that the mark
keeps for its kind and for itself. -/
def isSettable (name : Value) : Bool :=
  match name.characters? with
  | some s => s != "type" && s != "self"
  | none => false

/-- The axis on which a binned bar spans its bin: the first one whose column has bin edges. -/
def binnedAxis? (layer : LayerSpec) : Option Axis :=
  if layer.stat.kind = .bin ∧ (layer.geometry = .histogram ∨ layer.geometry = .bar) then
    Axis.all.find? fun a =>
      match layer.mapping.column? a.channel with
      | some column => layer.data.contains (Stat.startName column)
      | none => false
  else none

/-- Puts an encoding under a name: in place of an earlier one, else at the end. -/
def place (encodings : List (String × Encoding)) (name : String) (e : Encoding) :
    List (String × Encoding) :=
  if encodings.any fun f => f.1 == name then
    encodings.map fun f => if f.1 == name then (name, e) else f
  else encodings ++ [(name, e)]

/-- The domain an encoding shows: that of the scale of its channel, unless the channel shows
none. -/
def shownDomain (scales : List Scale) (c : Channel) : Option (List Cell) :=
  match c with
  | .ymax | .group => none
  | c => (scales.find? fun s => decide (s.channel = c.scaleChannel)).map Scale.domain

/-- Adds the encodings of one channel of a layer. -/
def encode (layer : LayerSpec) (scales : List Scale) (encodings : List (String × Encoding))
    (entry : Channel × String) : Except Failure (List (String × Encoding)) := do
  let (c, column) := entry
  let type ← if c = .ymax then pure none
    else do pure (some (kindType (← layer.data.kind column)))
  let domain := shownDomain scales c
  let name := encodingName c
  if (binnedAxis? layer).map Axis.channel = some c then
    -- The encoding of the axis reads where the bin starts, its partner where the bin ends.
    let spans := place encodings (name ++ "2") ⟨Stat.stopName column, none, none, none⟩
    pure (place spans name ⟨Stat.startName column, type, some column, domain⟩)
  else pure (place encodings name ⟨column, type, none, domain⟩)

/-- The channels of a layer that are encoded: all that are bound to columns, except that the lower
end of an interval hides `y`. -/
def encodedColumns (mapping : Mapping) : List (Channel × String) :=
  mapping.columns.filter fun e => !(e.1 = .y && (mapping.column? .ymin).isSome)

/-- The encodings of a layer. -/
def encodings (layer : LayerSpec) (scales : List Scale) : Logged (List (String × Encoding)) := do
  if (layer.mapping.column? .ymin).isSome && (layer.mapping.column? .y).isSome then
    Logged.record (.encodingHidden layer.index)
  Logged.ofExcept ((encodedColumns layer.mapping).foldlM (encode layer scales) [])

/-- The unit that draws a layer. -/
def unit (scales : List Scale) (layer : LayerSpec) : Logged ChartUnit := do
  match mark? layer.geometry with
  | none => Logged.fail (.misuse (.undrawableGeometry layer.geometry))
  | some mark =>
    let properties ← markProperties layer.style
    if properties.all fun p => isSettable p.1 then
      let encodings ← encodings layer scales
      pure ⟨mark, drawnProperties properties, encodings⟩
    else Logged.fail (.fault .wrongShape)

/-- What a title may set besides its text. -/
def titleKeys : List String :=
  ["align", "anchor", "angle", "aria", "baseline", "color", "dx", "dy", "font", "fontSize",
    "fontStyle", "fontWeight", "frame", "limit", "lineHeight", "offset", "orient", "style",
    "subtitle", "subtitleColor", "subtitleFont", "subtitleFontSize", "subtitleFontStyle",
    "subtitleFontWeight", "subtitleLineHeight", "subtitlePadding", "text", "zindex"]

/-- Whether a value is a text, or a list of lines. -/
def isLines : Value → Bool
  | .list items => items.all fun v => v.characters?.isSome
  | v => v.characters?.isSome

/-- Whether a value can be a title: lines, or a dictionary that holds some. -/
def isTitle : Value → Bool
  | .dict entries =>
    isLines (Value.get entries "text") &&
      entries.all fun e => (e.1.characters?.map titleKeys.contains).getD false
  | v => isLines v

/-- Whether a value is a number; truth values are none. -/
def isNumber : Value → Bool
  | .int _ | .float _ => true
  | _ => false

/-- What a step may be measured for. -/
def isStepUse (v : Value) : Bool :=
  v.same (.text "position") || v.same (.text "offset")

/-- Whether a value can be a width or a height: a number, the word for the size of the container, or
a step for each level. -/
def isSize : Value → Bool
  | .dict entries =>
    isNumber (Value.get entries "step") &&
      entries.all fun e =>
        e.1.same (.text "step") || (e.1.same (.text "for") && isStepUse e.2)
  | v => isNumber v || v.same (.text "container")

/-- A setting of a chart as far as it is given; it has to pass a test. -/
def setting (name : String) (v : Value) (isGiven : Bool) (test : Value → Bool) :
    Except Failure (List (String × Value)) :=
  if !isGiven then .ok []
  else if test v then .ok [(name, v)]
  else .error (.fault .refusedValue)

/-- Draws a specification, with a title if it is not empty and a size as far as it is given. -/
def ofSpec (spec : RenderSpec) (title width height : Value) : Logged Chart := do
  if spec.layers.isEmpty then
    Logged.fail (.misuse .chartWithoutLayers)
  let units ← spec.layers.mapM (unit spec.scales)
  let titles ← setting "title" title title.isTruthy isTitle
  let widths ← setting "width" width width.given?.isSome isSize
  let heights ← setting "height" height height.given?.isSome isSize
  unless spec.layers.all fun l => l.data.fields.all fun f => f.label.isText do
    Logged.fail (.fault .badValue)
  pure ⟨units, titles ++ widths ++ heights⟩

mutual

/-- A value as a chart holds it: timestamps are ISO texts. -/
def plainValue : Value → Value
  | .time t => .text t.iso
  | .list items => .list (plainItems items)
  | .dict entries => .dict (plainEntries entries)
  | v => v

/-- The items of a list as a chart holds them. -/
def plainItems : List Value → List Value
  | [] => []
  | v :: vs => plainValue v :: plainItems vs

/-- The entries of a dictionary as a chart holds them. -/
def plainEntries : List (Value × Value) → List (Value × Value)
  | [] => []
  | (k, v) :: es => (k, plainValue v) :: plainEntries es

end

/-- A dictionary of texts and values. -/
def dictOf (entries : List (String × Value)) : Value :=
  .dict (entries.map fun e => (.text e.1, e.2))

/-- An encoding as a plain value. -/
def encodingValue (e : Encoding) : Value :=
  let domain := e.domain.map fun cells =>
    dictOf [("domain", .list (cells.map fun c => plainValue c.toValue))]
  let parts := [("field", some (Value.text e.field)), ("type", e.type.map .text),
    ("title", e.title.map .text), ("scale", domain)]
  dictOf (parts.filterMap fun p => p.2.map fun v => (p.1, v))

/-- A unit as named values. -/
def unitEntries (u : ChartUnit) : List (String × Value) :=
  let properties := u.properties.map fun p => (p.1, plainValue p.2)
  let mark : Value := .dict ((.text "type", .text u.mark) :: properties)
  let encodings := dictOf (u.encodings.map fun e => (e.1, encodingValue e.2))
  ("mark", mark) :: (if u.encodings.isEmpty then [] else [("encoding", encodings)])

/-- A chart as a plain value: one unit stands by itself, several stand in a list. -/
def toValue (chart : Chart) : Value :=
  let settings := chart.settings.map fun e => (e.1, plainValue e.2)
  match chart.units with
  | [u] => dictOf (unitEntries u ++ settings)
  | units => dictOf (("layer", .list (units.map fun u => dictOf (unitEntries u))) :: settings)

end Chart

end PlotGrammar
