import PlotGrammar.Table.Conversion.Integer
import PlotGrammar.Timestamp.Format

/-!
# Columns from plain values

`Column.ofValues` reads a column from plain values, either by looking at the values or as a stated
type. A stated type converts: truth values count as zero and one, texts are read as numerals or
dates, and everything has a text. A value that a type has no conversion for is a fault.

* `Column.cellsAs` converts every value of a column to a stated type.
* `Column.ofUntyped` finds the type: integers stay integers only if they fit into words together.
-/

namespace PlotGrammar.Column

/-- The double a text spells. -/
def spelledDouble (text : String) : Except Fault Cell :=
  match Numeral.groupedDouble? (numeralOf text) with
  | some x => .ok (.ofFloat x)
  | none => .error .badValue

/-- The double in a value. -/
def doubleAs (v : Value) : Except Fault Cell :=
  match v with
  | .null => .ok .missing
  | .bool b => .ok (.float (if b then 1 else 0))
  | .int i => (Binary64.ofInt? i).elim (.error .overflow) fun x => .ok (.float x)
  | .float x => .ok (.ofFloat x)
  | .text s => spelledDouble s
  | .member m => spelledDouble m.name
  | .list _ => .error .badValue
  | .time _ | .dict _ | .function _ => .error .wrongShape

/-- The text of a value. -/
def textAs (v : Value) : Cell :=
  match v with
  | .null => .missing
  | v => if isNaNValue v then .missing else .text v.plain

/-- Why a text is no date. A moment in a zone, a small number and the letter of a clock are known
for what they are; all else cannot be read. -/
def dateFault (text : String) : Fault :=
  let isClockLetter := ["a", "m", "p", "t"].contains (text.toLower)
  let isSmall :=
    !text.startsWith "0" &&
      (Numeral.double? (numeralOf text)).any fun x => Binary64.rank x < Binary64.rank 1000
  if Timestamp.isZoned text || isClockLetter || isSmall then .badValue else .unreadableDate

/-- The timestamp a text spells, none if it is a word for an unknown date. -/
def spelledTime (unit : TimeUnit) (text : String) : Except Fault Cell :=
  if Timestamp.unknownWords.contains text then .ok .missing
  else
    match Timestamp.parse? text with
    | some t => .ok (.time (.ofCount unit (t.count unit)))
    | none => .error (dateFault text)

/-- The timestamp in a value, a number counting units. -/
def timeAs (unit : TimeUnit) (v : Value) : Except Fault Cell :=
  match v with
  | .null => .ok .missing
  | .int i => .ok (.time (.ofCount unit i))
  | .float x =>
    if Binary64.isNaN x then .ok .missing
    else
      match Binary64.truncate? x with
      | some i => .ok (.time (.ofCount unit i))
      | none => .error .overflow
  | .text s => spelledTime unit s
  | .member m => spelledTime unit m.name
  | .time t => .ok (.time (.ofCount unit (t.count unit)))
  | .bool _ | .list _ | .dict _ | .function _ => .error .wrongShape

/-- The cells of values in a column of a stated type. Where numbers or truth values are stored, a
list is refused before anything else is looked at. -/
def cellsAs (type : ColumnType) (values : List Value) : Except Fault (List Cell) :=
  let refusing (read : Except Fault (List Cell)) : Except Fault (List Cell) :=
    if values.any isListValue then .error .badValue else read
  match type with
  | .object => .ok (values.map .ofValue)
  | .text => .ok (values.map textAs)
  | .bool => refusing (.ok (values.map fun v => .bool v.isTruthy))
  | .float => refusing (values.mapM doubleAs)
  | .int => refusing (integersAs values)
  | .nullableInt => nullablesAs values
  | .time unit => values.mapM (timeAs unit)

/-- The integers that come before the first null. -/
def leadingIntegers (values : List Value) : List Int :=
  (values.takeWhile fun v => v.given?.isSome).filterMap fun
    | .int i => some i
    | _ => none

/-- Whether looking at values, one after the other, meets an integer beyond the doubles before it
meets one that shows the column to hold objects. -/
def overflows : List Value → Bool
  | [] => false
  | .int i :: vs =>
    if (Binary64.ofInt? i).isNone then true
    else if Word.isSigned i || Word.isUnsigned i then overflows vs
    else false
  | .null :: vs | .bool _ :: vs | .float _ :: vs => overflows vs
  | _ :: _ => false

/-- The column of values, of a type that is found by looking at them. -/
def ofUntyped (values : List Value) : Except Fault Column :=
  let cells := values.map Cell.ofValue
  if overflows values then .error .overflow
  else if Word.fit (leadingIntegers values) then .ok (ofCells cells (values.any isNaNValue))
  else .ok ⟨.object, cells⟩

/-- Reads a column from values, as a stated type or, without one, by looking at the values. -/
def ofValues (type : Option ColumnType) (values : List Value) : Except Fault Column :=
  match type with
  | some t => (cellsAs t values).map fun cells => ⟨t, cells⟩
  | none => ofUntyped values

end PlotGrammar.Column
