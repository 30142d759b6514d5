import PlotGrammar.Problem
import PlotGrammar.Text.Blank

/-!
# Mappings

A mapping says what feeds each visual channel: a column of the data, a constant, or, in a layer that
overrides another mapping, an explicit removal. A channel that has no binding is absent. Bindings
are never guessed from the shape of a value, so a text constant cannot pass for a column name.

* `Mapping.ofEntries` reads named entries and refuses a channel that is named twice.
* `Mapping.update` lets later entries win, after the same reading of names.
* `Mapping.resolve` merges the override of a layer over the mapping of a plot. Its two equations are
  `Mapping.resolve_binding` and `Mapping.resolve_of_isEmpty`.
-/

namespace PlotGrammar

/-- What feeds a channel. A column may be named by a member of a vocabulary; log lines show it. -/
inductive Binding where
  | column (name : String) (member : Option Member := none)
  | constant (value : Value)
  | removed

namespace Binding

/-- The column a binding refers to. -/
def column? : Binding → Option String
  | column name _ => some name
  | _ => none

/-- The constant a binding holds. -/
def constant? : Binding → Option Value
  | constant v => some v
  | _ => none

/-- Whether the binding removes what it overrides. -/
def isRemoved : Binding → Bool
  | removed => true
  | _ => false

/-- Binds to the column of a name, which has to be a text that is not blank. -/
def ofColumnName (name : Value) : Except Failure Binding :=
  let named (s : String) (member : Option Member) : Except Failure Binding :=
    if Text.allBlank s then .error (.misuse (.blankColumn name)) else .ok (column s member)
  match name with
  | .text s => named s none
  | .member m => named m.name (some m)
  | _ => .error (.misuse (.blankColumn name))

/-- Whether two bindings are equal. -/
def same : Binding → Binding → Bool
  | column m _, column n _ => m == n
  | constant v, constant w => v.same w
  | removed, removed => true
  | _, _ => false

/-- A binding as log lines show it. -/
def quoted : Binding → String
  | column name member => "ColumnRef(name=" ++ member.elim (Text.quoted name) Member.quoted ++ ")"
  | constant v => "Constant(value=" ++ v.quoted ++ ")"
  | removed => "Removed()"

end Binding

/-- The binding of each channel, if it has one. -/
@[ext] structure Mapping where
  binding : Channel → Option Binding

/-- What stands under a name before it is known to be a binding. -/
inductive Offer where
  | binding (b : Binding)
  | other (v : Value)

/-- The channel a value names. -/
def Channel.ofValue (name : Value) : Except Failure Channel :=
  match name with
  | .member (.channel c) => .ok c
  | v =>
    if v.isKey then
      match v.characters?.bind Channel.parse? with
      | some c => .ok c
      | none => .error (.misuse (.unknownChannel v))
    else .error (.fault .wrongShape)

namespace Mapping

/-- The mapping without bindings. -/
def empty : Mapping :=
  ⟨fun _ => none⟩

instance : Inhabited Mapping :=
  ⟨empty⟩

/-- The bound channels with their bindings, in channel order. -/
def entries (m : Mapping) : List (Channel × Binding) :=
  Channel.all.filterMap fun c => (m.binding c).map fun b => (c, b)

/-- Whether a channel has a binding, a removal included. -/
def contains (m : Mapping) (c : Channel) : Bool :=
  (m.binding c).isSome

/-- Whether no channel has a binding. -/
def isEmpty (m : Mapping) : Bool :=
  m.entries.isEmpty

/-- The column a channel is bound to. -/
def column? (m : Mapping) (c : Channel) : Option String :=
  (m.binding c).bind Binding.column?

/-- The constant a channel is bound to. -/
def constant? (m : Mapping) (c : Channel) : Option Value :=
  (m.binding c).bind Binding.constant?

/-- Whether a channel is bound to a column or a constant. -/
def isBound (m : Mapping) (c : Channel) : Bool :=
  match m.binding c with
  | some b => !b.isRemoved
  | none => false

/-- The channels bound to columns, in channel order. -/
def columns (m : Mapping) : List (Channel × String) :=
  Channel.all.filterMap fun c => (m.column? c).map fun n => (c, n)

/-- The channels bound to constants, in channel order. -/
def constants (m : Mapping) : List (Channel × Value) :=
  Channel.all.filterMap fun c => (m.constant? c).map fun v => (c, v)

/-- The mapping with one channel bound anew. -/
def set (m : Mapping) (c : Channel) (b : Binding) : Mapping :=
  ⟨fun d => if d = c then some b else m.binding d⟩

/-- The mapping without the bindings that fail a test. -/
def filter (m : Mapping) (keep : Channel → Binding → Bool) : Mapping :=
  ⟨fun c => (m.binding c).filter (keep c)⟩

/-- Whether two mappings bind the same channels to equal bindings. -/
def same (m n : Mapping) : Bool :=
  Channel.all.all fun c =>
    match m.binding c, n.binding c with
    | none, none => true
    | some a, some b => a.same b
    | _, _ => false

/-- Binds the channel that a name stands for, unless it is bound already. -/
def add (m : Mapping) (entry : Value × Offer) : Except Failure Mapping := do
  let c ← Channel.ofValue entry.1
  match entry.2 with
  | .other v => .error (.misuse (.notBinding c v))
  | .binding b =>
    if m.contains c then .error (.misuse (.channelRepeated c)) else .ok (m.set c b)

/-- Reads named bindings; no channel may be named twice. -/
def ofEntries (entries : List (Value × Offer)) : Except Failure Mapping :=
  entries.foldlM add empty

/-- Puts what stands under a name in the place of its channel: in place of an earlier entry, else at
the end. -/
def place (entries : List (Channel × Offer)) (c : Channel) (o : Offer) : List (Channel × Offer) :=
  if entries.any fun e => e.1 = c then entries.map fun e => if e.1 = c then (c, o) else e
  else entries ++ [(c, o)]

/-- The mapping with named entries in the place of its own; a later entry wins over an earlier one
for the same channel. -/
def update (m : Mapping) (entries : List (Value × Offer)) : Except Failure Mapping := do
  let own := m.entries.map fun e => (e.1, Offer.binding e.2)
  let merged ← entries.foldlM (fun es e => do pure (place es (← Channel.ofValue e.1) e.2)) own
  ofEntries (merged.map fun e => (.member (.channel e.1), e.2))

/-- Merges an override over a mapping: a binding of the override wins, a removal leaves the channel
absent, and a channel that the override does not mention keeps what it has. An override that
mentions nothing leaves the mapping as it is. -/
def resolve (root override : Mapping) : Mapping :=
  if override.isEmpty then root
  else ⟨fun c => ((override.binding c).or (root.binding c)).filter fun b => !b.isRemoved⟩

/-- A mapping as log lines show it. -/
def quoted (m : Mapping) : String :=
  "AestheticMapping(" ++
    ", ".intercalate (m.entries.map fun e => e.1.name ++ "=" ++ e.2.quoted) ++ ")"

@[simp] theorem empty_binding (c : Channel) : empty.binding c = none := rfl

theorem set_binding (m : Mapping) (c d : Channel) (b : Binding) :
    (m.set c b).binding d = if d = c then some b else m.binding d := rfl

theorem resolve_of_isEmpty {root override : Mapping} (h : override.isEmpty = true) :
    root.resolve override = root := by
  simp [resolve, h]

theorem resolve_binding {root override : Mapping} (h : override.isEmpty = false) (c : Channel) :
    (root.resolve override).binding c =
      ((override.binding c).or (root.binding c)).filter fun b => !b.isRemoved := by
  simp [resolve, h]

end Mapping

end PlotGrammar
