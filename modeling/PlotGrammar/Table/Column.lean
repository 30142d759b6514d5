import PlotGrammar.Number.Word
import PlotGrammar.Problem
import PlotGrammar.Table.Cell

/-!
# Columns

A column is a list of cells of one type. `Column.ofCells` stores cells as the narrowest type that
holds them, `Column.ofResults` stores results of computations, and `Column.padTo` adds missing
cells.

A column of integers holds them in words of 64 bits: all of them signed, or all of them unsigned.
Integers that fit neither way are stored as objects.
-/

namespace PlotGrammar

/-- How the cells of a column are stored. -/
inductive ColumnType where
  | float
  | int
  | bool
  | text
  | object
  | time (unit : TimeUnit)
  | nullableInt
  deriving DecidableEq, Repr, Inhabited

namespace ColumnType

/-- The name a storage type is asked for by. -/
def name : ColumnType → String
  | float => "float"
  | int => "int"
  | bool => "bool"
  | text => "str"
  | object => "object"
  | time _ => "datetime"
  | nullableInt => "Int64"

/-- Every storage type that can be asked for. -/
def all : List ColumnType :=
  [float, int, bool, text, object, time .micro, nullableInt]

/-- The storage type with exactly this name. -/
def ofName? (s : String) : Option ColumnType :=
  all.find? fun t => t.name == s

/-- The kind of a column that declares none. -/
def kind : ColumnType → ColumnKind
  | float | int | nullableInt => .continuous
  | time _ => .temporal
  | bool | text | object => .discrete

/-- The unit in which timestamps are counted: the coarser one if it loses nothing. -/
def timeUnit (cells : List Cell) : TimeUnit :=
  let isFine : Cell → Bool
    | .time t => t.nanos % 1000 != 0
    | _ => false
  if cells.any isFine then .nano else .micro

/-- The integers among cells. -/
def integers (cells : List Cell) : List Int :=
  cells.filterMap fun
    | .int i => some i
    | _ => none

/-- The type that holds all of these cells: the narrowest one, or objects if they are mixed. Behind
a missing cell integers are doubles, so that only those before it have to fit as words. -/
def ofCells (cells : List Cell) : ColumnType :=
  let present := cells.filter fun c => !c.isMissing
  if present.isEmpty then object
  else if cells.all Cell.isBool then bool
  else if present.all Cell.isNumber then
    if !Word.fit (integers (cells.takeWhile fun c => !c.isMissing)) then object
    else if cells.all Cell.isInt then int
    else float
  else if present.all Cell.isText then text
  else if present.all Cell.isTime then time (timeUnit present)
  else object

end ColumnType

/-- A list of cells of one type. -/
structure Column where
  type : ColumnType
  cells : List Cell

namespace Column

/-- A cell as a column of doubles holds it. -/
def floatCell (c : Cell) : Cell :=
  match c.toFloat? with
  | some x => .ofFloat x
  | none => .missing

/-- A cell as a column of a type holds it: among doubles an integer becomes one. -/
def storeCell : ColumnType → Cell → Cell
  | .float, .int i => floatCell (.int i)
  | _, c => c

/-- The column of these cells, stored as the narrowest type that holds them. A column without any
value is stored as objects unless a value that is no number shows that doubles were meant. -/
def ofCells (cells : List Cell) (numeric : Bool) : Column :=
  match ColumnType.ofCells cells with
  | .float => ⟨.float, cells.map floatCell⟩
  | .object =>
    if numeric && cells.all Cell.isMissing then ⟨.float, cells⟩ else ⟨.object, cells⟩
  | t => ⟨t, cells⟩

/-- Stores results computed from a column of the given type. Integers stay integers beside missing
results if the source could hold both. -/
def ofResults (source : ColumnType) (cells : List Cell) : Column :=
  if source = .nullableInt ∧ cells.all fun c => c.isInt || c.isMissing then ⟨.nullableInt, cells⟩
  else ofCells cells true

/-- The column with missing cells added at its end, up to a height. Beside a missing cell integers
become doubles, and truth values are stored as objects. -/
def padTo (height : Nat) (column : Column) : Column :=
  if height ≤ column.cells.length then column
  else
    let cells := column.cells ++ List.replicate (height - column.cells.length) .missing
    match column.type with
    | .int => ⟨.float, cells.map floatCell⟩
    | .bool => ⟨.object, cells⟩
    | t => ⟨t, cells⟩

/-- Whether the cells of a column can be compared as keys. -/
def isKeyed (column : Column) : Bool :=
  column.cells.all Cell.isKeyed

/-- Whether a column of integers holds them as unsigned words. -/
def isUnsigned (column : Column) : Bool :=
  !(ColumnType.integers column.cells).all Word.isSigned

/-- A cell of a column as a level of a scale. Timestamps that are counted in nanoseconds stand for
their counts. -/
def level (column : Column) (c : Cell) : Cell :=
  match column.type, c with
  | .time .nano, .time t => .int (t.count .nano)
  | _, c => c

theorem length_padTo (height : Nat) (column : Column) :
    (column.padTo height).cells.length = max height column.cells.length := by
  unfold padTo
  split
  · omega
  · split <;> simp <;> omega

end Column

end PlotGrammar
