import PlotGrammar.Mapping

/-!
# Logged operations

An operation may record events on its way, and keeps them when it fails. `Logged` pairs the outcome
with the events, in order; composing two operations composes the outcomes and appends the events of
the second one, if it ran.

* `Logged.outcome_bind` and `Logged.events_bind_ok` say so; with them the outcome of a logged
  operation is reasoned about as if nothing were recorded.
* `Event.level` and `Event.message` give an event its words.
-/

namespace PlotGrammar

/-- How much an event matters. -/
inductive Level where
  | debug
  | info
  | warning
  deriving DecidableEq, Repr

/-- Something an operation records. -/
inductive Event where
  | valuesDropped (layer : Option Int) (count : Nat) (column : String)
  | channelDropped (layer : Option Int) (channel : Channel) (column : String) (stat : StatKind)
  | columnReplaced (layer : Option Int) (channel : Channel) (stat : StatKind) (column : String)
  | scaleCreated (kind : ColumnKind) (channel : Channel) (column : String)
  | mappingResolved (layer : Nat) (geometry : Geometry) (mapping : Mapping)
  | specBuilt (layers : Nat) (scales : List Channel)
  | buildFailed (problems : Nat)
  | encodingHidden (layer : Int)
  | configRead (layers : Nat) (source : String)
  | buildOptions (options : Value)

namespace Event

open Misuse (ticked)

/-- The number of a layer, if there is one. -/
def layerText : Option Int → String
  | none => "None"
  | some i => toString i

/-- How much an event matters. -/
def level : Event → Level
  | valuesDropped .. | channelDropped .. | buildFailed .. => .warning
  | buildOptions .. => .info
  | _ => .debug

/-- The wording of an event. -/
def message : Event → String
  | valuesDropped layer count column =>
    "Layer " ++ layerText layer ++ ": dropped " ++ toString count ++
      " non-finite value(s) in column " ++ ticked column
  | channelDropped layer c column stat =>
    "Layer " ++ layerText layer ++ ": dropping channel " ++ ticked c.name ++ "; column " ++
      ticked column ++ " is not in the output of stat " ++ ticked stat.name
  | columnReplaced layer c stat column =>
    "Layer " ++ layerText layer ++ ": " ++ ticked c.name ++ " is computed by stat " ++
      ticked stat.name ++ "; replacing column " ++ ticked column
  | scaleCreated kind c column =>
    "Creating " ++ kind.name ++ " scale for channel " ++ ticked c.name ++ " from column " ++
      ticked column
  | mappingResolved layer g m =>
    "Layer " ++ toString layer ++ " (" ++ g.name ++ "): resolved mapping " ++ m.quoted
  | specBuilt layers scales =>
    "Built render spec with " ++ toString layers ++ " layer(s) and scales for " ++
      Misuse.bracketed (scales.map fun c => .member (.channel c))
  | buildFailed problems => "Plot build failed with " ++ toString problems ++ " error(s)"
  | encodingHidden layer =>
    "Layer " ++ toString layer ++ ": 'ymin' takes the y encoding; ignoring 'y'"
  | configRead layers source =>
    "[config] plot with " ++ toString layers ++ " layer(s) over source " ++ Text.quoted source
  | buildOptions v => "[config] build options: " ++ v.quoted

end Event

/-- The outcome of an operation and the events it recorded. -/
structure Logged (α : Type) where
  outcome : Except Failure α
  events : List Event

namespace Logged

variable {α β : Type}

/-- An outcome without events. -/
def ofExcept (outcome : Except Failure α) : Logged α :=
  ⟨outcome, []⟩

/-- Records one event. -/
def record (e : Event) : Logged Unit :=
  ⟨.ok (), [e]⟩

/-- Records some events. -/
def recordAll (es : List Event) : Logged Unit :=
  ⟨.ok (), es⟩

/-- Fails. -/
def fail (f : Failure) : Logged α :=
  ⟨.error f, []⟩

instance : Monad Logged where
  pure a := ⟨.ok a, []⟩
  bind x f :=
    match x.outcome with
    | .ok a => ⟨(f a).outcome, x.events ++ (f a).events⟩
    | .error e => ⟨.error e, x.events⟩

instance : MonadExcept Failure Logged where
  throw := fail
  tryCatch x handle :=
    match x.outcome with
    | .ok _ => x
    | .error e => ⟨(handle e).outcome, x.events ++ (handle e).events⟩

instance : MonadLift (Except Failure) Logged where
  monadLift := ofExcept

/-- The failure of an operation whose result is not wanted; its success stands for no result. -/
def discard {γ : Type} (x : Logged α) : Logged (List γ) :=
  ⟨x.outcome.map fun _ => [], x.events⟩

/-- The outcome as a value: success, or the problem that ended the operation. Failures that are no
problem of the description still end it. -/
def problemOrResult (x : Logged α) : Logged (Except Problem α) :=
  match x.outcome with
  | .ok a => ⟨.ok (.ok a), x.events⟩
  | .error (.problem p) => ⟨.ok (.error p), x.events⟩
  | .error e => ⟨.error e, x.events⟩

@[simp] theorem outcome_pure (a : α) : (pure a : Logged α).outcome = .ok a := rfl

@[simp] theorem events_pure (a : α) : (pure a : Logged α).events = [] := rfl

theorem outcome_bind (x : Logged α) (f : α → Logged β) :
    (x >>= f).outcome = x.outcome >>= fun a => (f a).outcome := by
  obtain ⟨o, es⟩ := x
  cases o <;> rfl

theorem events_bind_ok {x : Logged α} {a : α} (h : x.outcome = .ok a) (f : α → Logged β) :
    (x >>= f).events = x.events ++ (f a).events := by
  obtain ⟨o, es⟩ := x
  subst h
  rfl

@[simp] theorem outcome_ofExcept (o : Except Failure α) : (ofExcept o).outcome = o := rfl

@[simp] theorem events_ofExcept (o : Except Failure α) : (ofExcept o).events = [] := rfl

@[simp] theorem outcome_record (e : Event) : (record e).outcome = .ok () := rfl

@[simp] theorem events_record (e : Event) : (record e).events = [e] := rfl

end Logged

end PlotGrammar
