import PlotGrammar.Config.Reference

/-!
# What a configuration holds

A configuration holds lists and dictionaries of texts, numbers, truth values and members of
vocabularies. `Value.vet` looks at every key and value in order and reports the first that cannot
be held: timestamps and functions are no values of a configuration, a key has to be a text, a number
or a truth value, two keys of one dictionary may not be printed alike, and a text that begins a
reference has to spell one.
-/

namespace PlotGrammar.Value

/-- Whether a value can be a key of a configuration. -/
def isNamable : Value → Bool
  | bool _ | int _ | float _ | text _ | member _ => true
  | _ => false

/-- Whether a key is printed like one of some entries without being equal to it. -/
def isMistakable (entries : List (Value × Value)) (key : Value) : Bool :=
  entries.any fun e => e.1.plain == key.plain && !e.1.same key

mutual

/-- Reports the first value that a configuration cannot hold. -/
def vet : Value → Except Fault Unit
  | text s => if (Reference.split? s).isSome then .ok () else .error .malformedReference
  | time _ | function _ => .error .unkeptValue
  | list items => vetItems items
  | dict entries => vetEntries entries
  | null | bool _ | int _ | float _ | member _ => .ok ()

/-- Reports the first item that a configuration cannot hold. -/
def vetItems : List Value → Except Fault Unit
  | [] => .ok ()
  | v :: vs => do
    vet v
    vetItems vs

/-- Reports the first entry that a configuration cannot hold. -/
def vetEntries : List (Value × Value) → Except Fault Unit
  | [] => .ok ()
  | (k, v) :: es => do
    unless k.isNamable && !isMistakable es k do
      throw .unnamableKey
    vet v
    vetEntries es

end

end PlotGrammar.Value
