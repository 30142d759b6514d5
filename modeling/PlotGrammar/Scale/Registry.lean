import PlotGrammar.Scale
import PlotGrammar.Stat.Orientation

/-!
# Scale registries

A registry collects the scales of a plot, one layer after the other, and then freezes them.

* `ScaleRegistry.accumulate` extends the scale of a channel by the column bound to it. A binned
  column brings the edges of its bins with it.
* `ScaleRegistry.accumulateLayer` does so for every channel of a layer that is bound to a column and
  gives the problems it met; what goes wrong on one channel does not keep the others from being fed.
* `ScaleRegistry.freeze` ends the collection: no later call changes a scale.

Every call gives the registry after it together with its outcome, so that a call that fails still
shows what it left behind.
-/

namespace PlotGrammar

/-- The scales collected so far, and the frozen ones once there are any. -/
structure ScaleRegistry where
  states : Channel → Option ScaleState
  frozen : Option (List Scale)

namespace ScaleRegistry

/-- The registry without scales. -/
def empty : ScaleRegistry :=
  ⟨fun _ => none, none⟩

/-- Whether a channel has a scale of its own. -/
def contains (r : ScaleRegistry) (c : Channel) : Bool :=
  (r.states c).isSome

/-- The registry with one scale put in its place. -/
def set (r : ScaleRegistry) (c : Channel) (s : ScaleState) : ScaleRegistry :=
  { r with states := fun d => if d = c then some s else r.states d }

/-- The scales as they stand, in channel order. -/
def snapshot (r : ScaleRegistry) : List Scale :=
  Channel.all.filterMap fun c => (r.states c).map fun s => s.freeze c

/-- Freezes the scales, unless they are frozen. -/
def freeze (r : ScaleRegistry) : ScaleRegistry × List Scale :=
  match r.frozen with
  | some scales => (r, scales)
  | none => ({ r with frozen := some r.snapshot }, r.snapshot)

/-- The columns that feed a scale when a column does: the edges of its bins come with it. -/
def feeding (table : Table) (column : String) : List String :=
  if table.computedBy = some StatKind.bin.name then
    column :: [Stat.startName column, Stat.stopName column].filter table.contains
  else [column]

/-- A scale extended by some columns, up to the first that cannot be read. -/
def extendBy (table : Table) : ScaleState → List String → ScaleState × Except Failure Unit
  | s, [] => (s, .ok ())
  | s, name :: rest =>
    match table.series name with
    | .error e => (s, .error e)
    | .ok column =>
      match ScaleState.usable s.kind column with
      | .error f => (s, .error (.fault f))
      | .ok cells => extendBy table (s.extend cells) rest

/-- Extends the scale of a channel by the column that a mapping binds to it. A channel without a
column changes nothing. -/
def accumulate (r : ScaleRegistry) (channel : Channel) (table : Table) (mapping : Mapping)
    (layer : Option Int) : ScaleRegistry × Logged Unit :=
  if r.frozen.isSome then (r, Logged.fail .scalesFrozen)
  else
    match mapping.column? channel with
    | none => (r, pure ())
    | some column =>
      match table.kind? column with
      | none =>
        (r, Logged.fail (.layer (.referenceAbsent channel column "data") layer (some channel.name)))
      | some kind =>
        let target := channel.scaleChannel
        match r.states target with
        | none =>
          let (s, outcome) := extendBy table (.empty kind) (feeding table column)
          (r.set target s, ⟨outcome, [.scaleCreated kind target column]⟩)
        | some state =>
          if state.kind = kind then
            let (s, outcome) := extendBy table state (feeding table column)
            (r.set target s, Logged.ofExcept outcome)
          else
            (r, Logged.fail (.layer (.scaleKind channel kind column state.kind) layer
              (some channel.name)))

/-- Extends the scales of some channels one after the other, collecting the problems. -/
def accumulateAll (table : Table) (mapping : Mapping) (layer : Option Int) :
    ScaleRegistry → List Channel → ScaleRegistry × Logged (List LayerProblem)
  | r, [] => (r, pure [])
  | r, c :: rest =>
    let (r, step) := r.accumulate c table mapping layer
    let problem : Option (List LayerProblem) :=
      match step.outcome with
      | .ok () => some []
      | .error (.problem (.layer p)) => some [p]
      | .error _ => none
    match problem with
    -- What is no problem of the layer ends the feeding.
    | none => (r, step.discard)
    | some found =>
      let (r, others) := accumulateAll table mapping layer r rest
      (r, ⟨others.outcome.map fun ps => found ++ ps, step.events ++ others.events⟩)

/-- Extends the scales of every channel of a layer that is bound to a column. -/
def accumulateLayer (r : ScaleRegistry) (table : Table) (mapping : Mapping)
    (layer : Option Int) : ScaleRegistry × Logged (List LayerProblem) :=
  accumulateAll table mapping layer r (mapping.columns.map (·.1))

end ScaleRegistry

end PlotGrammar
