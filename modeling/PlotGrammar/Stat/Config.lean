import PlotGrammar.Toolkit

/-!
# Parameters of statistics

A `StatConfig` is a kind of statistic with its parameters as they were given: any value may stand
anywhere. `StatConfig.settings` reads them, reports the first one that is out of range, and gives
parameters of the right types.

* `StatConfig.parse` reads the short forms: a kind by name, or `summary` with a reduction after a
  hyphen, an underscore or a colon.
-/

namespace PlotGrammar

/-- A kind of statistic and its parameters, as given. -/
structure StatConfig where
  kind : StatKind := .identity
  bins : Value := .null
  binWidth : Value := .null
  boundary : Value := .null
  aggregator : Value := .text "mean"
  bandwidth : Value := .null
  adjust : Value := .float 1
  kernel : Value := .text "gaussian"
  points : Value := .null
  orientation : Value := .null

/-- Parameters that are in range. -/
structure Settings where
  bins : Option Nat
  binWidth : Option Number
  boundary : Option Number
  bandwidth : Option Number
  adjust : Number
  points : Option Nat
  axis : Option Axis

namespace StatConfig

/-- The kind a value names. -/
def readKind (v : Value) : Except Failure StatKind :=
  match v.characters?.bind StatKind.ofName? with
  | some k => .ok k
  | none => .error (.misuse (.unknownStat v))

/-- The names of the parameters. -/
def optionNames : List String :=
  ["kind", "bins", "bin_width", "boundary", "aggregator", "bandwidth", "adjust", "kernel",
    "n_points", "orientation"]

/-- The statistic with one parameter set, if there is a parameter of this name. -/
def setOption? (stat : StatConfig) (name : String) (v : Value) : Option StatConfig :=
  match name with
  | "bins" => some { stat with bins := v }
  | "bin_width" => some { stat with binWidth := v }
  | "boundary" => some { stat with boundary := v }
  | "aggregator" => some { stat with aggregator := v }
  | "bandwidth" => some { stat with bandwidth := v }
  | "adjust" => some { stat with adjust := v }
  | "kernel" => some { stat with kernel := v }
  | "n_points" => some { stat with points := v }
  | "orientation" => some { stat with orientation := v }
  | _ => none

/-- The statistic with named parameters; the kind is one of them, and no other name is known. -/
def ofOptions (options : List (Value × Value)) : Except Failure StatConfig := do
  let stat ← options.foldlM (fun (stat : StatConfig) o =>
      match o.1.characters? with
      -- The kind is read last: an unknown name is reported before an unknown kind.
      | some "kind" => pure stat
      | some name =>
        match stat.setOption? name o.2 with
        | some stat => pure stat
        | none => throw (.fault .wrongShape)
      | none => throw (.fault .wrongShape)) {}
  match Value.lookupIn options "kind" with
  | some k => pure { stat with kind := ← readKind k }
  | none => pure stat

/-- The reduction named after `summary` and a separator. -/
def summaryName? (name : String) : Option String :=
  ["-", "_", ":"].findSome? fun separator =>
    let start := (StatKind.summary.name ++ separator).toList
    if start.isPrefixOf name.toList then some (String.ofList (name.toList.drop start.length))
    else none

/-- Reads the short form of a statistic. -/
def parse (v : Value) : Except Failure StatConfig :=
  match v with
  | .member (.stat k) => .ok { kind := k }
  | v =>
    if v.isWritable then
      let name := Text.trim v.plain
      match summaryName? name with
      | some aggregator => .ok { kind := .summary, aggregator := .text aggregator }
      | none => do pure { kind := ← readKind (.text name) }
    else .error (.fault .badValue)

/-- The printable name of the reduction. -/
def aggregatorName (stat : StatConfig) : String :=
  match stat.aggregator with
  | .function name => name
  | v => (v.characters?).getD v.quoted

/-- A count above zero. -/
def positiveCount? : Value → Option Nat
  | .int i => if 0 < i then some i.toNat else none
  | _ => none

/-- A number that is finite; truth values are no numbers here. -/
def finite (v : Value) : Except Failure (Option Number) :=
  let read (n : Number) : Except Failure (Option Number) :=
    match n.isFinite? with
    | some true => .ok (some n)
    | some false => .ok none
    | none => .error (.fault .overflow)
  match v with
  | .int i => read (.int i)
  | .float x => read (.float x)
  | _ => .ok none

/-- A number that is finite and above zero. -/
def positive (v : Value) : Except Failure (Option Number) := do
  pure ((← finite v).filter Number.isAboveZero)

/-- An optional parameter: null, or a value that can be read. -/
def optional {α : Type} (v : Value) (read : Value → Except Failure (Option α))
    (refusal : Failure) : Except Failure (Option α) :=
  match v.given? with
  | none => .ok none
  | some v => do
    match ← read v with
    | some a => pure (some a)
    | none => throw refusal

/-- The names a message lists as the known ones, after the given one that is not among them. -/
def known {α : Type} (given : Value) (entries : List (Value × α)) : Except Failure (List String) :=
  if given.isWritable then (Toolkit.shownNames entries).mapError .fault
  else .error (.fault .badValue)

/-- Reads the parameters; the first one out of range is reported for the layer. -/
def settings (kit : Toolkit) (layer : Option Int) (stat : StatConfig) :
    Except Failure Settings := do
  let refuse (cause : LayerCause) : Failure := .layer cause layer none
  let bins ← optional stat.bins (fun v => .ok (positiveCount? v)) (refuse (.bins stat.bins))
  let binWidth ← optional stat.binWidth positive (refuse (.binWidth stat.binWidth))
  if bins.isSome && binWidth.isSome then
    throw (refuse .binsAndWidth)
  let boundary ← optional stat.boundary finite (refuse (.boundary stat.boundary))
  let bandwidth ← optional stat.bandwidth positive (refuse (.bandwidth stat.bandwidth))
  let adjust ← match ← positive stat.adjust with
    | some n => pure n
    | none => throw (refuse (.adjust stat.adjust))
  let points ← optional stat.points
    (fun v => .ok ((positiveCount? v).filter fun n => decide (2 ≤ n)))
    (refuse (.points stat.points))
  if stat.kind = .summary then
    match stat.aggregator.characters? with
    | some name =>
      unless (kit.aggregator? stat.aggregator).isSome do
        throw (refuse (.unknownAggregator name (← known stat.aggregator kit.aggregators)))
    | none => pure ()
  if stat.kind = .density then
    unless stat.kernel.isKey do
      throw (.fault .wrongShape)
    unless (kit.kernel? stat.kernel).isSome do
      throw (refuse (.unknownKernel stat.kernel (← known stat.kernel kit.kernels)))
  let axis ← optional stat.orientation (fun v => .ok (v.characters?.bind Axis.ofName?))
    (refuse (.orientation stat.orientation))
  pure ⟨bins, binWidth, boundary, bandwidth, adjust, points, axis⟩

/-- Reports the first parameter that is out of range, for a layer of any number. -/
def check (kit : Toolkit) (layer : Option Int) (stat : StatConfig) : Except Failure Unit := do
  let _ ← (stat.settings kit layer).mapError Failure.numbered

/-- The reduction of a summary, by name or passed as a function. -/
def reduction (kit : Toolkit) (layer : Option Int) (stat : StatConfig) :
    Except Failure Aggregator :=
  match kit.reduction? stat.aggregator with
  | some reduce => .ok reduce
  | none =>
    if stat.aggregator.isKey then
      match kit.aggregator? stat.aggregator with
      | some reduce => .ok reduce
      | none => .error (.layer (.noAggregator stat.aggregator) layer none)
    else .error (.fault .wrongShape)

end StatConfig

end PlotGrammar
