import PlotGrammar.Number.Sum
import PlotGrammar.Table.Conversion

/-!
# Reductions of a column to one cell

Every reduction leaves missing cells out. A column without values has no mean, median or extreme,
its sum is zero and its count is zero.

* Means and medians are doubles; those of timestamps are timestamps. Texts have neither.
* Sums and extremes keep integers. Sums of integers run over at 64 bits.
* Objects are added one after the other (`Aggregate.plus`), a missing one counting as zero: what is
  added to something else has to be a number, but texts alone are joined, and so are lists.
-/

namespace PlotGrammar

/-- A reduction of a column to one cell. -/
abbrev Aggregator := Column → Except Fault Cell

namespace Aggregate

/-- The cells of a column that hold something. -/
def present (column : Column) : List Cell :=
  column.cells.filter fun c => !c.isMissing

/-- The number of cells that hold something. -/
def count : Aggregator := fun column =>
  .ok (.int (present column).length)

/-- The double in a cell that holds a number. -/
def double (c : Cell) : Except Fault Float :=
  match c.toFloat? with
  | some x => .ok x
  | none => .error (if c.number?.isSome then .overflow else .wrongShape)

/-- The double among objects that a median takes from a cell, a text being read as a numeral. -/
def objectDouble (c : Cell) : Except Fault Float :=
  match c with
  | .text s =>
    match Numeral.groupedDouble? (Column.numeralOf s) with
    | some x => .ok x
    | none => .error .wrongShape
  | c => double c

/-- Whether the present cells among objects have a middle: they are all truth values or all numbers,
or an integer is among them. -/
def isOrdered (cells : List Cell) : Bool :=
  cells.all Cell.isBool || cells.all Cell.isNumber || cells.any Cell.isInt

/-- The doubles that stand for the cells of a column, none for a missing one. Timestamps stand for
their counts. -/
def doubles (column : Column) : Except Fault (List (Option Float)) :=
  let read (f : Cell → Except Fault Float) : Except Fault (List (Option Float)) :=
    column.cells.mapM fun c => if c.isMissing then .ok none else (f c).map some
  match column.type with
  | .text => .error .wrongShape
  | .time unit => read fun
    | .time t => .ok (Float.ofInt (t.count unit))
    | _ => .error .wrongShape
  | .object => if isOrdered (present column) then read objectDouble else .error .wrongShape
  | .float | .int | .bool | .nullableInt => read double

/-- The cell of a result that is computed with doubles. -/
def ofDouble (type : ColumnType) (x : Float) : Cell :=
  match type with
  | .time unit => (Binary64.truncate? x).elim .missing fun n => .time (.ofCount unit n)
  | _ => .ofFloat x

/-- The sum of two objects. -/
def plus : Cell → Cell → Except Fault Cell
  | .text s, .text t => .ok (.text (s ++ t))
  | .compound (.list xs), .compound (.list ys) => .ok (.compound (.list (xs ++ ys)))
  | a, b =>
    match a.number?, b.number? with
    | some (.int i), some (.int j) => .ok (.int (i + j))
    | some _, some _ => do pure (.float ((← double a) + (← double b)))
    | _, _ => .error .wrongShape

/-- The sum of objects, one after the other; a single one is its own sum. -/
def objectSum (cells : List Cell) : Except Fault Cell :=
  match cells.map fun c => if c.isMissing then Cell.int 0 else c with
  | [] => .ok (.int 0)
  | c :: cs => cs.foldlM plus c

/-- The mean of objects. -/
def objectMean (cells : List Cell) : Except Fault Cell := do
  let total ← objectSum cells
  unless total.number?.isSome do
    throw .wrongShape
  match cells.filter fun c => !c.isMissing with
  | [] => pure .missing
  | values => pure (.ofFloat ((← double total) / Float.ofNat values.length))

/-- The mean; a single value is its own mean. -/
def mean : Aggregator := fun column => do
  if column.type = .object then objectMean column.cells
  else
    let cells ← doubles column
    match cells.filterMap id with
    | [] => pure .missing
    | [x] => pure (ofDouble column.type x)
    | xs =>
      -- A missing cell adds zero in its place, except among nullable integers.
      let added := if column.type = .nullableInt then xs else cells.map fun c => c.getD 0
      pure (ofDouble column.type (Sum.total added / Float.ofNat xs.length))

/-- The middle value, or the mean of the two middle ones. -/
def median : Aggregator := fun column => do
  let xs := ((← doubles column).filterMap id).mergeSort Binary64.le
  let n := xs.length
  match xs[n / 2]? with
  | none => pure .missing
  | some b =>
    let middle := if n % 2 = 1 then b else (xs.getD (n / 2 - 1) b + b) / 2
    pure (ofDouble column.type middle)

/-- The integer in a cell, a truth value counting as zero or one. -/
def wholeCell? : Cell → Option Int
  | .bool b => some (if b then 1 else 0)
  | .int i => some i
  | _ => none

/-- The text in a cell. -/
def textCell? : Cell → Option String
  | .text s => some s
  | _ => none

/-- The sum: of integers at 64 bits, of doubles, of texts end to end, or of objects. -/
def sum : Aggregator := fun column =>
  let cells := present column
  let wholes := (cells.filterMap wholeCell?).foldl (· + ·) 0
  match column.type with
  | .int | .nullableInt => .ok (.int (Word.wrap column.isUnsigned wholes))
  | .bool => .ok (.int wholes)
  | .float => (doubles column).map fun xs => .ofFloat (Sum.total (xs.map fun x => x.getD 0))
  | .text =>
    if cells.isEmpty then .ok (.int 0)
    else .ok (.text (String.join (cells.filterMap textCell?)))
  | .time _ => .error .wrongShape
  | .object => objectSum column.cells

/-- Whether one cell is below another; cells of different sorts cannot be compared. -/
def below : Cell → Cell → Except Fault Bool
  | .text a, .text b => .ok (decide (a < b))
  | .time a, .time b => .ok (decide (a.nanos < b.nanos))
  | a, b =>
    match a.number?, b.number? with
    | some m, some n => .ok (m.lt n)
    | _, _ => .error .wrongShape

/-- The cell that stays when each one meets the next: the later one if the test holds of it. -/
def champion (wins : Cell → Cell → Except Fault Bool) : Aggregator := fun column =>
  match present column with
  | [] => .ok .missing
  | c :: cs => cs.foldlM (fun best c => do pure (if ← wins c best then c else best)) c

/-- The least value. -/
def min : Aggregator :=
  champion below

/-- The greatest value. -/
def max : Aggregator :=
  champion fun c best => below best c

/-- The difference of two cells of one column; truth values have one among objects only. -/
def minus (column : Column) (a b : Cell) : Except Fault Cell :=
  match column.type, a, b with
  | _, .missing, _ | _, _, .missing => .ok .missing
  | .bool, _, _ => .error .wrongShape
  | .object, a, b =>
    match a.number?, b.number? with
    | some (.int i), some (.int j) => .ok (.int (i - j))
    | some _, some _ => do pure (.ofFloat ((← double a) - (← double b)))
    | _, _ => .error .wrongShape
  | _, .int i, .int j => .ok (.int (Word.wrap column.isUnsigned (i - j)))
  | _, .float x, .float y => .ok (.ofFloat (x - y))
  | _, _, _ => .error .wrongShape

/-- The greatest value less the least one. -/
def range : Aggregator := fun column => do
  minus column (← max column) (← min column)

/-- The first cell, missing or not. -/
def first : Aggregator := fun column =>
  match column.cells with
  | [] => .error .noFirst
  | c :: _ => .ok c

/-- The number of cells, missing or not. -/
def size : Aggregator := fun column =>
  .ok (.int column.cells.length)

/-- The list of the results of a function of numbers. A missing double counts as a non-number; no
other cell may be missing. -/
def each (f : Float → Float) : Aggregator := fun column => do
  let results ← column.cells.mapM fun c =>
    if c.isMissing && column.type = .float then pure (f Binary64.nan)
    else do pure (f (← double c))
  pure (.compound (.list (results.map .float)))

end Aggregate

end PlotGrammar
