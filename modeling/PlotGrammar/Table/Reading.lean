import PlotGrammar.Number.Numeral
import PlotGrammar.Table.Column
import PlotGrammar.Text.Blank
import PlotGrammar.Timestamp.Format

/-!
# Columns read as numbers and as timestamps

Scales and statistics read a column by its declared kind, whatever its type. `Column.amounts` takes
every cell as a number where that is possible, `Column.times` as a timestamp; cells that cannot be
read so become missing.

* The numbers of a column are all integers or all doubles; truth values stay what they are in a
  column that holds nothing else. A column of timestamps is read as their counts, and a missing
  timestamp as the least word.
* The texts of a column are read as dates in the format of the first one, if there is such a format;
  else each of them by itself. Numbers count nanoseconds.
-/

namespace PlotGrammar.Column

/-- The number a text stands for: an integer if it is written as one. -/
def textAmount? (s : String) : Option Number :=
  let cs := Text.trimWith Text.isPlainBlank s.toList
  match Numeral.integer? cs with
  | some i => some (.int i)
  | none => (Numeral.double? cs).map .float

/-- The number in a cell, a text being read as a numeral. -/
def amount? : Cell → Option Number
  | .text s => textAmount? s
  | c => if c.isMissing then none else c.number?

/-- The integer in a cell, a truth value counting as zero or one. -/
def wholeAmount? (c : Cell) : Option Int :=
  match amount? c with
  | some (.int i) => some i
  | _ => none

/-- How the cells of one column are taken as numbers: as they are, as integers, as doubles, or as
counts of a unit of time. -/
inductive Reading where
  | kept
  | whole
  | double
  | counted (unit : TimeUnit)
  deriving DecidableEq, Repr

/-- The reading of a column. -/
def reading (column : Column) : Reading :=
  match column.type with
  | .float | .int | .bool | .nullableInt => .kept
  | .time unit => .counted unit
  | .text | .object =>
    let wholes := column.cells.filterMap wholeAmount?
    if column.cells.all Cell.isBool then .kept
    else if wholes.length = column.cells.length ∧ Word.fit wholes then .whole
    else .double

/-- One cell under the reading of its column. -/
def amountCell : Reading → Cell → Cell
  | .kept, c => c
  | .whole, c => ((amount? c).map Cell.ofNumber).getD .missing
  | .double, c => (((amount? c).bind Number.toFloat?).map Cell.ofFloat).getD .missing
  | .counted unit, .time t => .int (t.count unit)
  | .counted _, _ => .int (-Word.half)

/-- The cells taken as numbers. -/
def amounts (column : Column) : List Cell :=
  column.cells.map (amountCell column.reading)

/-- The cells taken as finite doubles. -/
def finiteFloats (column : Column) : List (Option Float) :=
  column.amounts.map fun c => if c.isFinite then c.toFloat? else none

/-- The timestamp so many nanoseconds after the start of 1970; the least word stands for none. -/
def timeAfter? (nanos : Int) : Option Timestamp :=
  if -Word.half < nanos ∧ nanos < Word.half then some ⟨nanos⟩ else none

/-- A cell taken as a timestamp by itself. -/
def timeAlone? : Cell → Option Timestamp
  | .time t => some t
  | .int i => timeAfter? i
  | .float x => (Binary64.truncate? x).bind timeAfter?
  | .text s => Timestamp.parse? s
  | _ => none

/-- A cell taken as a timestamp whose text is in a format. -/
def timeIn? (format : Timestamp.Format) : Cell → Option Timestamp
  | .time t => some t
  | c => format.read? c.toValue.plain

/-- The texts that say nothing about the format of the others. -/
def formatlessWords : List String :=
  Timestamp.unknownWords ++ ["now", "today"]

/-- The format of a column: that of its first cell that is neither missing nor a word, if this is a
date. -/
def timeFormat? (cells : List Cell) : Option Timestamp.Format :=
  let shows : Cell → Bool
    | .text s => !formatlessWords.contains s
    | c => !c.isMissing
  match cells.find? shows with
  | some (.text s) => do
    let format ← Timestamp.Format.of? s
    let _ ← format.read? s
    if format.isUsual then some format else none
  | _ => none

/-- The cells taken as timestamps. -/
def times (column : Column) : List Cell :=
  let read? := (timeFormat? column.cells).elim timeAlone? timeIn?
  column.cells.map fun c => ((read? c).map Cell.time).getD .missing

theorem length_finiteFloats (column : Column) :
    column.finiteFloats.length = column.cells.length := by
  simp [finiteFloats, amounts]

end PlotGrammar.Column
