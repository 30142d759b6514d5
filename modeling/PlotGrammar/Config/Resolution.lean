import PlotGrammar.Config.Reference
import PlotGrammar.Number.Numeral

/-!
# Following references

A `Place` of a configuration is a value together with the positions that lead to it from the root. A
reference stands for the place its path leads to, where references met on the way are followed, too;
the place may not be a section that the reference itself stands in.

* `Reference.settle` follows the references of the text at a place. A text that is one reference
  becomes the place it leads to; a reference inside a longer text becomes the text of that value,
  sections as they are written.
* `Value.expand` puts values in the place of the references below a value, for any way of following
  them. `Value.resolveReferences` expands a configuration by itself.

A chain of references that does not end comes back to a text already passed, and there are no more
texts than places. So following stops, without an answer, after as many references as the
configuration has places.
-/

namespace PlotGrammar

/-- A value of a configuration and where it stands: the positions that lead to it from the root. -/
structure Place where
  location : List Nat
  value : Value

namespace Place

/-- The word for a value that is still to be given. -/
def isAwaited (v : Value) : Bool :=
  v.same (.text "???")

/-- The entry of a list of entries under a text key, with its position. -/
def entryAt? (entries : List (Value × Value)) (key : String) : Option (Nat × Value) :=
  (entries.findIdx? fun e => e.1.same (.text key)).bind fun i =>
    entries[i]?.map fun e => (i, e.2)

/-- The item of a list under a written index, with its position. -/
def itemAt? (items : List Value) (index : Int) : Option (Nat × Value) :=
  if 0 ≤ index then items[index.toNat]?.map fun v => (index.toNat, v) else none

/-- The place one step below a place. Only dictionaries and lists have places below them, and a
place that is still to be given cannot be reached. -/
def child (p : Place) (step : String) : Except Fault Place := do
  let found ← match p.value with
    | .dict entries => pure (entryAt? entries step)
    | .list items =>
      match Numeral.groupedInteger? step.toList with
      | some i => pure (itemAt? items i)
      | none => throw .unresolvedReference
    | _ => throw .unresolvedReference
  match found with
  | none => throw .danglingReference
  | some (i, v) => if isAwaited v then throw .awaitedReference else pure ⟨p.location ++ [i], v⟩

/-- Whether a value is a list or a dictionary. -/
def isSection : Value → Bool
  | .list _ | .dict _ => true
  | _ => false

end Place

namespace Value

/-- The value at a location. -/
def at? (v : Value) : List Nat → Option Value
  | [] => some v
  | i :: rest =>
    match v with
    | dict entries => entries[i]?.bind fun e => at? e.2 rest
    | list items => items[i]?.bind fun w => at? w rest
    | _ => none

end Value

namespace Reference

/-- Where a path starts that stands in a text at a location. -/
def start (root : Value) (location : List Nat) (points : Nat) : Except Fault Place :=
  if points = 0 then .ok ⟨[], root⟩
  else if location.length < points then .error .danglingReference
  else
    let above := location.take (location.length - points)
    match root.at? above with
    | some v => .ok ⟨above, v⟩
    | none => .error .danglingReference

/-- Walks down from a place, settling at every step. -/
def walk (settle : Place → Except Fault Place) : Place → List String → Except Fault Place
  | p, [] => .ok p
  | p, step :: rest => do
    let below ← settle (← p.child step)
    walk settle below rest

/-- Follows a path that stands in a text at a location. It may not lead to a section around it. -/
def follow (settle : Place → Except Fault Place) (root : Value) (location : List Nat)
    (path : Path) : Except Fault Place := do
  let target ← walk settle (← start root location path.points) path.steps
  if Place.isSection target.value && target.location.isPrefixOf location then
    throw .unresolvedReference
  else pure target

/-- The text of pieces whose paths are followed. -/
def join (follow : Path → Except Fault Place) : List Piece → Except Fault String
  | [] => .ok ""
  | .literal s :: rest => do pure (s ++ (← join follow rest))
  | .path p :: rest => do
    let target ← follow p
    unless target.value.isWritable do
      throw .unresolvedReference
    pure (target.value.plain ++ (← join follow rest))
  | .call :: _ => .error .unknownResolver

/-- The place that the text at a place stands for, for a way of following paths. -/
def settleText (follow : Path → Except Fault Place) (location : List Nat) (text : String) :
    Except Fault Place :=
  match split? text with
  | none => .error .malformedReference
  | some [.path p] => follow p
  | some pieces => do pure ⟨location, .text (← join follow pieces)⟩

/-- The place that a place stands for, after at most so many references one after the other. -/
def settle (root : Value) : Nat → Place → Except Fault Place
  | 0, _ => .error .unresolvedReference
  | n + 1, p =>
    match p.value with
    | .text s => settleText (follow (settle root n) root p.location) p.location s
    | _ => .ok p

end Reference

namespace Value

mutual

/-- The value at a location with the references of its texts followed. -/
def expand (refer : List Nat → String → Except Fault Value) (location : List Nat) :
    Value → Except Fault Value
  | text s => refer location s
  | list items => do pure (list (← expandItems refer location 0 items))
  | dict entries => do pure (dict (← expandEntries refer location 0 entries))
  | v => .ok v

/-- The items of the list at a location, from a position on, with their references followed. -/
def expandItems (refer : List Nat → String → Except Fault Value) (location : List Nat) :
    Nat → List Value → Except Fault (List Value)
  | _, [] => .ok []
  | i, v :: vs => do
    let v ← expand refer (location ++ [i]) v
    pure (v :: (← expandItems refer location (i + 1) vs))

/-- The entries of the dictionary at a location, from a position on, with the references of their
values followed; keys stay. -/
def expandEntries (refer : List Nat → String → Except Fault Value) (location : List Nat) :
    Nat → List (Value × Value) → Except Fault (List (Value × Value))
  | _, [] => .ok []
  | i, (k, v) :: es => do
    let v ← expand refer (location ++ [i]) v
    pure ((k, v) :: (← expandEntries refer location (i + 1) es))

end

mutual

/-- The number of places in a value. -/
def places : Value → Nat
  | list items => placesOfItems items + 1
  | dict entries => placesOfEntries entries + 1
  | _ => 1

/-- The number of places in the items of a list. -/
def placesOfItems : List Value → Nat
  | [] => 0
  | v :: vs => places v + placesOfItems vs

/-- The number of places in the entries of a dictionary. -/
def placesOfEntries : List (Value × Value) → Nat
  | [] => 0
  | (_, v) :: es => places v + placesOfEntries es

end

/-- What the text at a location stands for. A section that it refers to is expanded where it stands,
as often as allowed. -/
def refer (root : Value) : Nat → List Nat → String → Except Fault Value
  | 0, _, _ => .error .unresolvedReference
  | n + 1, location, s => do
    let target ← Reference.settle root (root.places + 1) ⟨location, .text s⟩
    if Place.isSection target.value then expand (refer root n) target.location target.value
    else pure target.value

/-- The value with every reference into itself followed. -/
def resolveReferences (root : Value) : Except Fault Value :=
  root.expand (refer root (root.places + 1)) []

end Value

end PlotGrammar
