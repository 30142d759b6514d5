import PlotGrammar.Table.Conversion
import PlotGrammar.Table.Reading

/-!
# Tables

A `Frame` is an ordered list of labelled columns of one height. A `Table` is a frame whose columns
have a declared kind each and names that do not repeat; it may remember which statistic computed it.
Both facts are fields of the type, so every table has them.

A label is a text or an integer. Kinds are looked up by the printed name of a label, cells by the
label itself: a column labelled by an integer has a kind under its printed name, but its cells are
not found under that text.

* `Frame.ofColumns` needs columns of one height, `Frame.align` gives them one.
* `Table.ofFrame` declares kinds for some columns and infers the others, `Table.ofParts` needs a
  kind for each; both refuse names that repeat.
* `Table.ofRows` computes every cell of a new table from a row, one row after another.
-/

namespace PlotGrammar

/-- What a column of a frame is called. -/
inductive Label where
  | text (name : String)
  | index (number : Int)
  deriving DecidableEq, Repr

namespace Label

/-- The label as it is printed. -/
def name : Label → String
  | text s => s
  | index i => toString i

/-- Whether the label can be printed, as integers of more than 4300 digits cannot. -/
def isWritable : Label → Bool
  | text _ => true
  | index i => (Value.int i).isWritable

/-- Whether the label is a text. -/
def isText : Label → Bool
  | text _ => true
  | index _ => false

/-- Whether a plain value is this label. -/
def isValue : Label → Value → Bool
  | text s, v => v.characters? == some s
  | index i, v => v.number?.any fun n => n.same (.int i)

/-- The label that a plain value is: a text or an integer. -/
def ofValue? : Value → Option Label
  | .int i => some (index i)
  | v => v.characters?.map text

end Label

/-- An ordered list of labelled columns of one height. -/
structure Frame where
  columns : List (Label × Column)
  height : Nat
  uniform : ∀ c ∈ columns, c.2.cells.length = height

namespace Frame

/-- Whether the labels of all columns can be printed. -/
def hasNames (frame : Frame) : Bool :=
  frame.columns.all fun c => c.1.isWritable

/-- The frame of these columns, which have to be equally long. -/
def ofColumns (columns : List (Label × Column)) : Except Fault Frame :=
  let height := (columns.head?.map fun c => c.2.cells.length).getD 0
  if h : ∀ c ∈ columns, c.2.cells.length = height then .ok ⟨columns, height, h⟩
  else .error .badValue

/-- The height of the longest column. -/
def tallest (columns : List (Label × Column)) : Nat :=
  columns.foldr (fun c height => max c.2.cells.length height) 0

theorem length_le_tallest {columns : List (Label × Column)} {c : Label × Column}
    (h : c ∈ columns) : c.2.cells.length ≤ tallest columns := by
  induction columns with
  | nil => simp at h
  | cons d rest ih =>
    simp only [tallest, List.foldr_cons] at ih ⊢
    rcases List.mem_cons.1 h with rfl | h
    · omega
    · have := ih h
      omega

/-- The frame of these columns, the shorter ones with missing cells at their ends. -/
def align (columns : List (Label × Column)) : Frame where
  columns := columns.map fun c => (c.1, c.2.padTo (tallest columns))
  height := tallest columns
  uniform := by
    intro c hc
    obtain ⟨d, hd, rfl⟩ := List.mem_map.1 hc
    have := length_le_tallest hd
    simp only [Column.length_padTo]
    omega

/-- The frame of lists of values under labels. Their types are found by looking at the values; a
list without values makes a column of doubles. -/
def ofRecords (records : List (Label × List Value)) : Except Fault Frame := do
  let columns ← records.mapM fun r => do
    let type := if r.2.isEmpty then some ColumnType.float else none
    pure (r.1, ← Column.ofValues type r.2)
  ofColumns columns

end Frame

/-- A column of a table. -/
structure Field where
  label : Label
  kind : ColumnKind
  column : Column

/-- The printed name of the column. -/
def Field.name (f : Field) : String :=
  f.label.name

/-- Ordered columns of one height, each with a declared kind, under names that do not repeat. -/
structure Table where
  fields : List Field
  height : Nat
  /-- The name of the statistic that computed the table. -/
  computedBy : Option String
  uniform : ∀ f ∈ fields, f.column.cells.length = height
  distinct : (fields.map Field.name).Nodup

namespace Table

/-- The printed names of the columns, in order. -/
def names (t : Table) : List String :=
  t.fields.map Field.name

/-- Whether the table has a column of this printed name. -/
def contains (t : Table) (name : String) : Bool :=
  t.fields.any fun f => f.name == name

/-- Whether the table has no rows. -/
def isEmpty (t : Table) : Bool :=
  t.height == 0

/-- The kind of the column of this printed name, if there is one. -/
def kind? (t : Table) (name : String) : Option ColumnKind :=
  (t.fields.find? fun f => f.name == name).map Field.kind

/-- The column labelled by this text, if there is one. -/
def column? (t : Table) (name : String) : Option Column :=
  (t.fields.find? fun f => f.label == .text name).map Field.column

/-- The kinds under their names, in column order. -/
def kinds (t : Table) : List (String × ColumnKind) :=
  t.fields.map fun f => (f.name, f.kind)

/-- The failure of a look-up by a name that no column has. -/
def absent (t : Table) (name : String) : Failure :=
  .layer (.columnAbsent name t.names) none none

/-- The kind of the column of this printed name. -/
def kind (t : Table) (name : String) : Except Failure ColumnKind :=
  match t.kind? name with
  | some k => .ok k
  | none => .error (t.absent name)

/-- The column labelled by this text. -/
def series (t : Table) (name : String) : Except Failure Column :=
  match t.column? name with
  | some c => .ok c
  | none => .error (.fault .missingKey)

/-- The column of this name: the name must be printed above it, and it must be labelled so. -/
def column (t : Table) (name : String) : Except Failure Column :=
  if t.contains name then t.series name else .error (t.absent name)

/-- The frame of the columns, without their kinds. -/
def frame (t : Table) : Frame where
  columns := t.fields.map fun f => (f.label, f.column)
  height := t.height
  uniform := by
    intro c hc
    obtain ⟨f, hf, rfl⟩ := List.mem_map.1 hc
    exact t.uniform f hf

/-- The table of equally long columns, whose names must not repeat. -/
def ofFields (fields : List Field) (height : Nat)
    (uniform : ∀ f ∈ fields, f.column.cells.length = height) (computedBy : Option String) :
    Except Failure Table :=
  if h : (fields.map Field.name).Nodup then .ok ⟨fields, height, computedBy, uniform, h⟩
  else .error (.misuse (.repeatedNames (fields.map Field.name)))

/-- The fields of a frame whose columns are given kinds. -/
def fieldsOf (frame : Frame) (kind : Label × Column → ColumnKind) : List Field :=
  frame.columns.map fun c => ⟨c.1, kind c, c.2⟩

theorem uniform_fieldsOf (frame : Frame) (kind : Label × Column → ColumnKind) :
    ∀ f ∈ fieldsOf frame kind, f.column.cells.length = frame.height := by
  intro f hf
  obtain ⟨c, hc, rfl⟩ := List.mem_map.1 hf
  exact frame.uniform c hc

/-- Reads the name of a kind. -/
def readKind (v : Value) : Except Failure ColumnKind :=
  match v.characters?.bind ColumnKind.ofName? with
  | some k => .ok k
  | none => .error (.fault .badValue)

/-- Wraps a frame; kinds that are not declared are inferred from how the cells are stored. -/
def ofFrame (frame : Frame) (declared : List (Value × Value)) (computedBy : Option String) :
    Except Failure Table := do
  -- Names are compared as they stand: a text declares nothing for a column labelled by a number.
  let unknown := declared.filter fun d => !frame.columns.any fun c => c.1.isValue d.1
  unless unknown.isEmpty do
    throw (.misuse (.kindsWithoutData (unknown.map (·.1))))
  unless frame.hasNames do
    throw (.fault .badValue)
  let given (l : Label) := declared.find? fun d => l.isValue d.1
  let read ← frame.columns.filterMapM fun c => do
    match given c.1 with
    | some d => pure (some (c.1, ← readKind d.2))
    | none => pure none
  let kind (c : Label × Column) := (read.lookup c.1).getD c.2.type.kind
  ofFields (fieldsOf frame kind) frame.height (uniform_fieldsOf frame kind) computedBy

/-- Wraps a frame with a kind for every column, under its printed name. -/
def ofParts (frame : Frame) (declared : List (Value × Value)) (computedBy : Option String) :
    Except Failure Table := do
  unless frame.hasNames do
    throw (.fault .badValue)
  let names := frame.columns.map fun c => c.1.name
  unless decide names.Nodup do
    throw (.misuse (.repeatedNames names))
  let given (name : String) := declared.find? fun d => d.1.same (.text name)
  let undeclared := names.filter fun n => (given n).isNone
  unless undeclared.isEmpty do
    throw (.misuse (.undeclaredNames undeclared))
  let extra := declared.filter fun d => !names.any fun n => d.1.same (.text n)
  unless extra.isEmpty do
    throw (.misuse (.kindsOfUnknownColumns (extra.map (·.1))))
  let read ← names.filterMapM fun n => do
    match given n with
    | some d => pure (some (n, ← readKind d.2))
    | none => pure none
  let kind (c : Label × Column) := (read.lookup c.1.name).getD c.2.type.kind
  ofFields (fieldsOf frame kind) frame.height (uniform_fieldsOf frame kind) computedBy

/-- How one column of a computed table follows from a row. -/
structure Rule (ρ : Type) where
  name : String
  kind : ColumnKind
  /-- How the computed cells are stored. -/
  store : List Cell → ColumnType
  cell : ρ → Cell

/-- The column a rule computes from the rows. -/
def Rule.field {ρ : Type} (rows : List ρ) (r : Rule ρ) : Field :=
  let cells := rows.map r.cell
  ⟨.text r.name, r.kind, ⟨r.store cells, cells⟩⟩

/-- The table whose cells follow from rows, column by column. -/
def ofRows {ρ : Type} (rules : List (Rule ρ)) (rows : List ρ) (computedBy : String) :
    Except Failure Table :=
  ofFields (rules.map (Rule.field rows)) rows.length
    (by
      intro f hf
      obtain ⟨r, _, rfl⟩ := List.mem_map.1 hf
      simp [Rule.field])
    (some computedBy)

/-- The cells of some columns, row by row. -/
def rowsOf (height : Nat) (columns : List (List Cell)) : List (List Cell) :=
  (List.range height).map fun i => columns.map fun cells => cells.getD i .missing

theorem length_rowsOf (height : Nat) (columns : List (List Cell)) :
    (rowsOf height columns).length = height := by
  simp [rowsOf]

end Table

end PlotGrammar
