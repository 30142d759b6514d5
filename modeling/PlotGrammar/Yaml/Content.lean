import PlotGrammar.Value
import PlotGrammar.Yaml.Node
import PlotGrammar.Yaml.Scalar

/-!
# What nodes stand for

A tree of nodes stands for a plain value. Plain scalars are read by their spelling, other nodes by
their tag or else by their form.

* `Node.merge` lays the entries of a map over those that its merge marks take over, and refuses a
  text that is a key of one map twice.
* `Node.value` gives the value. A list or a map cannot be a key. Where two keys are equal otherwise,
  the later entry counts.
-/

namespace PlotGrammar.Yaml.Node

/-- A tag of the common set of tags. -/
def commonTag (name : String) : String :=
  "tag:yaml.org,2002:" ++ name

/-- What a scalar stands for, unless its tag is not known. -/
def scalarKind? : Node → Option Scalar.Kind
  | plain word => some (Scalar.kind word)
  | text _ => some .text
  | tagged tag _ =>
    [(commonTag "null", Scalar.Kind.nothing), (commonTag "bool", .truth),
      (commonTag "int", .integer), (commonTag "float", .double), (commonTag "str", .text),
      (commonTag "merge", .merge), (commonTag "value", .whole)].lookup tag
  | _ => none

/-- The characters of a scalar. -/
def content : Node → String
  | plain s | text s | tagged _ s => s
  | _ => ""

/-- Whether a node is the key under which a map takes over the entries of others. -/
def isMergeMark (n : Node) : Bool :=
  n.scalarKind? == some .merge

/-- The texts among keys. -/
def keyTexts (keys : List Node) : List String :=
  (keys.filter fun k => k.scalarKind? == some .text).map content

/-- The entries that a node offers to a map. Of several maps the first one counts most. -/
def offered : Node → Except Fault (List (Node × Node))
  | map _ entries => .ok entries
  | list _ items => do
    let each ← items.mapM fun n =>
      match n with
      | map _ entries => .ok entries
      | around => .error .endless
      | _ => .error .refusedNode
    pure each.reverse.flatten
  | around => .error .endless
  | _ => .error .refusedNode

mutual

/-- A node whose maps have taken over the entries of others. -/
def merge : Node → Except Fault Node
  | list tag items => do pure (list tag (← mergeItems items))
  | map tag entries => do
    if decide (keyTexts (entries.map (·.1))).Nodup then do
      let (taken, own) ← mergeEntries entries
      pure (map tag (taken ++ own))
    else throw .refusedNode
  | n => .ok n

/-- Items whose maps have taken over the entries of others. -/
def mergeItems : List Node → Except Fault (List Node)
  | [] => .ok []
  | n :: ns => do
    let n ← merge n
    pure (n :: (← mergeItems ns))

/-- The entries that the merge marks of a map take over, and its other entries. -/
def mergeEntries : List (Node × Node) → Except Fault (List (Node × Node) × List (Node × Node))
  | [] => .ok ([], [])
  | (k, v) :: es => do
    let v ← merge v
    if k.isMergeMark then do
      let given ← v.offered
      let (taken, own) ← mergeEntries es
      pure (given ++ taken, own)
    else do
      let (taken, own) ← mergeEntries es
      pure (taken, (k, v) :: own)

end

/-- Why a node stands for no value if its tag does not fit it. What is tagged as a map is asked for
its entries, and neither characters nor items are entries. -/
def misfit : Node → Fault
  | tagged tag s => if tag = commonTag "map" ∧ s ≠ "" then .badValue else .refusedNode
  | list tag items =>
    if tag = some (commonTag "map") ∧ !items.isEmpty then .wrongShape else .refusedNode
  | _ => .refusedNode

/-- The value of a scalar. -/
def scalarValue (n : Node) : Except Fault Value := do
  match n.scalarKind? with
  | some .nothing => pure .null
  | some .truth => do pure (.bool (← Scalar.truth n.content))
  | some .integer => do pure (.int (← Scalar.integer n.content))
  | some .double => do pure (.float (← Scalar.double n.content))
  | some .text => pure (.text n.content)
  | _ => throw n.misfit

/-- The value of a key. -/
def keyValue (n : Node) : Except Fault Value := do
  -- As a key, the mark for the whole value is a text.
  if n.scalarKind? == some .whole then pure (.text n.content) else n.scalarValue

mutual

/-- The value a node stands for. -/
def value : Node → Except Fault Value
  | list tag items =>
    if tag.all (· == commonTag "seq") then do pure (.list (← values items))
    else .error (misfit (.list tag items))
  | map tag entries =>
    if tag.all (· == commonTag "map") then do
      pure (.dict (Value.overlay [] (← entryValues entries)))
    else .error .refusedNode
  | around => .error .endless
  | n => n.scalarValue

/-- The values of the items of a list. -/
def values : List Node → Except Fault (List Value)
  | [] => .ok []
  | n :: ns => do
    let v ← value n
    pure (v :: (← values ns))

/-- The keys and values of the entries of a map. -/
def entryValues : List (Node × Node) → Except Fault (List (Value × Value))
  | [] => .ok []
  | (k, n) :: es => do
    let key ← keyValue k
    let v ← value n
    pure ((key, v) :: (← entryValues es))

end

end PlotGrammar.Yaml.Node
