import PlotGrammar.Config
import PlotGrammar.Yaml.Document

/-!
# Configurations from documents

A configuration may be written as a text. A text that holds nothing is an empty configuration, and
one that holds a single word is a configuration with an empty section of that name.
-/

namespace PlotGrammar.Config

/-- A value that holds nothing which a configuration cannot hold. -/
def vetted (v : Value) : Except Failure Value := do
  v.vet.mapError .fault
  pure v

/-- The configuration a text holds. -/
def ofText (text : String) : Except Failure Value := do
  match ← (Yaml.read text).mapError .fault with
  | .null => pure (.dict [])
  | .text name => vetted (.dict [(.text name, .null)])
  | .dict own => vetted (.dict own)
  | .list items => vetted (.list items)
  | _ => throw (.fault .loneQuotedValue)

/-- The configuration a value stands for: a text is read, and lists and dictionaries stand for
themselves. -/
def ofValue (v : Value) : Except Failure Value :=
  match v with
  | .text s => ofText s
  | .null => .ok .null
  | .dict own => vetted (.dict own)
  | .list items => vetted (.list items)
  | _ => .error (.fault .refusedValue)

/-- The configuration a file holds; it has to be a dictionary. What is a text in the file is read
once more. -/
def load (path text : String) : Except Failure Value := do
  let config ← match ← (Yaml.read text).mapError .fault with
    | .null => pure (.dict [])
    | .text inner => ofText inner
    | .dict own => vetted (.dict own)
    | .list items => vetted (.list items)
    | _ => throw (.fault .loneValue)
  match config with
  | .list _ => throw (.misuse (.documentShape path))
  | config => pure config

end PlotGrammar.Config
