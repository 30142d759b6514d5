import PlotGrammar.Number.Numeral
import PlotGrammar.Table.Column
import PlotGrammar.Text.Blank

/-!
# Integers from plain values

Columns of integers, nullable or not, take values that are integers under another sort: truth
values, doubles without a fraction, and texts that spell integers. They never lose anything.

* `Column.integersAs` reads a list in which every value has to be present.
* `Column.nullablesAs` reads a list in which some are missing. How strictly a value is read depends
  on its company: a list of numbers is compared with its integers, a list with a text in it is read
  as it is printed, and a list with nulls in it has to be of one sort.
-/

namespace PlotGrammar.Column

/-- Whether a value is the double that is no number. -/
def isNaNValue : Value → Bool
  | .float x => Binary64.isNaN x
  | _ => false

/-- Whether a value is a list. -/
def isListValue : Value → Bool
  | .list _ => true
  | _ => false

/-- The characters of a text that is read as a numeral. -/
def numeralOf (text : String) : List Char :=
  Text.trimWith Text.isBlank text.toList

/-- An integer, if it is a signed word. -/
def word (i : Int) : Except Fault Int :=
  if Word.isSigned i then .ok i else .error .overflow

/-- The integer a text spells. -/
def spelledInteger (text : String) : Except Fault Int :=
  match Numeral.groupedInteger? (numeralOf text) with
  | some i => word i
  | none => .error .badValue

/-- The integer in a value; of a double the part before the point. -/
def integerAs (v : Value) : Except Fault Int :=
  match v with
  | .bool b => .ok (if b then 1 else 0)
  | .int i => word i
  | .float x =>
    match Binary64.truncate? x with
    | some i => word i
    | none => .error (if Binary64.isNaN x then .badValue else .overflow)
  | .text s => spelledInteger s
  | .member m => spelledInteger m.name
  | .list _ => .error .badValue
  | .null | .time _ | .dict _ | .function _ => .error .wrongShape

/-- Whether a value is the number that an integer is. -/
def isWhole (v : Value) (i : Int) : Bool :=
  v.number?.any fun n => n.same (.int i)

/-- The integers in values, none of which may be another number than its value. If a text is among
the values, each of them has to read as its integer is printed. -/
def integersAs (values : List Value) : Except Fault (List Cell) := do
  let is ← values.mapM integerAs
  let spelled := values.any fun v => v.characters?.isSome
  let agrees (v : Value) (i : Int) : Bool :=
    if spelled then v.plain == toString i else isWhole v i
  if (values.zip is).all fun e => agrees e.1 e.2 then pure (is.map .int)
  else throw .badValue

/-- Whether a value is missing where integers may be: a null or the double that is no number. -/
def isAbsent (v : Value) : Bool :=
  v.given?.isNone || isNaNValue v

/-- Whether values can be taken for integers together: texts alone, truth values alone, doubles
alone, or anything beside an integer. -/
def isIntegral (present : List Value) : Bool :=
  let isInt : Value → Bool
    | .int _ => true
    | _ => false
  let isBool : Value → Bool
    | .bool _ => true
    | _ => false
  let isFloat : Value → Bool
    | .float _ => true
    | _ => false
  present.any isInt || present.all isBool || present.all isFloat ||
    present.all fun v => v.characters?.isSome

/-- Reads what is present of values; the rest is missing. -/
def presentAs (read : Value → Except Fault Int) (values : List Value) : Except Fault (List Cell) :=
  values.mapM fun v => if isAbsent v then .ok .missing else (read v).map .int

/-- The integer that the printed form of a value spells. -/
def printedInteger (v : Value) : Except Fault Int :=
  spelledInteger (v.characters?.getD v.plain)

/-- The integer that a value is, if it is one and no other number. -/
def wholeInteger (v : Value) : Except Fault Int := do
  let i ← integerAs v
  if isWhole v i then pure i else throw .wrongShape

/-- The nullable integers in values of several sorts. All of them are converted before any is
compared with what it was. -/
def mixedNullables (values : List Value) : Except Fault (List Cell) := do
  let present := values.filter fun v => !isAbsent v
  if present.all fun v => v.characters?.isSome then presentAs printedInteger values
  else if !isIntegral present then throw .wrongShape
  else
    discard (presentAs integerAs values)
    presentAs wholeInteger values

/-- The nullable integers in numbers. A list whose greatest number is infinite runs over; any other
number that is no signed word is refused. -/
def numericNullables (values : List Value) : Except Fault (List Cell) :=
  let doubles := values.filterMap fun
    | .float x => if Binary64.isNaN x then none else some x
    | _ => none
  let present := values.filter fun v => !isAbsent v
  let isHigh (x : Float) : Bool := Binary64.same x Binary64.infinity
  let isLow (x : Float) : Bool := Binary64.same x (-Binary64.infinity)
  if doubles.any isHigh ||
      (!doubles.isEmpty && doubles.length == present.length && doubles.all isLow) then
    .error .overflow
  else presentAs (fun v => (wholeInteger v).mapError fun _ => .wrongShape) values

/-- The nullable integers in values. Numbers, and texts beside numbers, are looked at as they are
printed or counted; nulls, huge integers and other values make a list of several sorts. -/
def nullablesAs (values : List Value) : Except Fault (List Cell) :=
  let lengths := values.map fun
    | .list vs => some vs.length
    | _ => none
  let isPlain : Value → Bool
    | .bool _ | .float _ | .text _ | .member _ => true
    | .int i => Word.isSigned i || Word.isUnsigned i
    | _ => false
  if values.any isListValue then
    .error (if lengths.eraseDups.length = 1 then .wrongShape else .badValue)
  else if values.any fun v => v.characters?.isSome then
    if values.any fun v => v.number?.isNone && v.characters?.isNone then mixedNullables values
    else values.mapM fun v => (printedInteger v).map .int
  else if values.all isPlain then numericNullables values
  else mixedNullables values

end PlotGrammar.Column
