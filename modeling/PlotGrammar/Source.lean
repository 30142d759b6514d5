import PlotGrammar.Table

/-!
# Data sources

A description names its data; the caller supplies what the names stand for. A `Source` is a table,
or a bare frame that becomes a table once the kinds of its columns are settled.

* `Source.toTable` wraps a source. Declared kinds apply to a frame; a table keeps its own.
* `Catalogue.resolve` looks a name up. A plain listing wraps with the kinds asked for. A registry
  wraps with the kinds registered beside the source, and lays the kinds asked for over the result.
-/

namespace PlotGrammar

/-- What a name of a description can stand for. -/
inductive Source where
  | table (value : Table)
  | frame (value : Frame)
  /-- Something that is no data. -/
  | other (value : Value)

namespace Source

/-- The pair of a key and a value that a value spells out: two items, two characters, or the two
keys of a dictionary. -/
def readPair (v : Value) : Except Fault (Value × Value) :=
  let pair (items : List Value) : Except Fault (Value × Value) :=
    match items with
    | [key, entry] => if key.isKey then .ok (key, entry) else .error .wrongShape
    | _ => .error .badValue
  match v with
  | .list items => pair items
  | .dict entries => pair (entries.map (·.1))
  | v =>
    match v.characters? with
    | some s => pair (s.toList.map fun c => .text c.toString)
    | none => .error .wrongShape

/-- The entries that a value spells out: its own if it is a dictionary, else one for each pair. -/
def readEntries (v : Value) : Except Fault (List (Value × Value)) :=
  match v with
  | .dict entries => .ok entries
  | .list items => do
    let pairs ← items.mapM readPair
    pure (Value.overlay [] pairs)
  | v =>
    match v.characters? with
    | some "" => .ok []
    | some _ => .error .badValue
    | none => .error .wrongShape

/-- The declaration of kinds that a value spells out; one that is not given declares nothing. -/
def readKinds (v : Value) : Except Failure (List (Value × Value)) :=
  if v.isTruthy then (readEntries v).mapError .fault else .ok []

/-- The table of a source. -/
def toTable (source : Source) (kinds : Value) : Except Failure Table :=
  match source with
  | table t => .ok t
  | frame f => do Table.ofFrame f (← readKinds kinds) none
  | other v => .error (.misuse (.sourceShape v))

end Source

/-- Sources under their names, with kinds declared for some of them. -/
structure SourceRegistry where
  sources : List (Value × Source) := []
  kinds : List (Value × Value) := []

namespace SourceRegistry

/-- Adds or replaces a source; kinds are replaced if they are given. -/
def register (registry : SourceRegistry) (name : Value) (source : Source) (kinds : Value) :
    Except Failure SourceRegistry :=
  if name.isKey then
    .ok ⟨Value.insert registry.sources name source,
      match kinds with
      | .null => registry.kinds
      | kinds => Value.insert registry.kinds name kinds⟩
  else .error (.fault .wrongShape)

end SourceRegistry

/-- The source under a name. -/
def Source.find (sources : List (Value × Source)) (name : Value) : Except Failure Source :=
  if name.isKey then
    match Value.entry? sources name with
    | some source => .ok source
    | none => .error (.misuse (.unknownSource name))
  else .error (.fault .wrongShape)

/-- The table under a name of a registry. -/
def SourceRegistry.get (registry : SourceRegistry) (name : Value) : Except Failure Table := do
  let source ← Source.find registry.sources name
  source.toTable ((Value.entry? registry.kinds name).getD .null)

/-- The table of the same columns with kinds laid over its own. -/
def Table.redeclare (table : Table) (kinds : Value) : Except Failure Table :=
  if kinds.isTruthy then
    match kinds with
    | .dict entries =>
      let own := table.kinds.map fun k => (Value.text k.1, Value.text k.2.name)
      Table.ofFrame table.frame (Value.overlay own entries) none
    | _ => .error (.fault .wrongShape)
  else .ok table

/-- Where the names of a description are looked up. -/
inductive Catalogue where
  | listing (sources : List (Value × Source))
  | registry (value : SourceRegistry)

/-- The table a name stands for, with declared kinds. -/
def Catalogue.resolve (catalogue : Catalogue) (name kinds : Value) : Except Failure Table :=
  match catalogue with
  | listing sources => do (← Source.find sources name).toTable kinds
  | registry r => do (← r.get name).redeclare kinds

end PlotGrammar
