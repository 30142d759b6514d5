import PlotGrammar.Value

/-!
# Cells

A cell holds one datum: a truth value, a number, a text, a timestamp, or nothing. A number that is
no number counts as nothing. A cell may also hold a list, a dictionary or a function, which no
statistic reads.

Two cells are equal when they have one `Cell.key`. Keys treat numbers and truth values by amount, so
that `1`, `1.0` and *true* are equal while the text `1` is not; missing cells are all equal. Since
keys decide equality, it is an equivalence by construction. Lists and dictionaries are never looked
at as keys (`Cell.isKeyed`).
-/

namespace PlotGrammar

/-- One datum, or none. -/
inductive Cell where
  | missing
  | bool (value : Bool)
  | int (value : Int)
  | float (value : Float)
  | text (value : String)
  | time (value : Timestamp)
  | compound (value : Value)

instance : Inhabited Cell :=
  ⟨.missing⟩

/-- What two cells have to share to be equal. -/
inductive CellKey where
  | missing
  | whole (amount : Int)
  | fraction (rank : Int)
  | text (value : String)
  | time (value : Timestamp)
  | compound (shown : String)
  deriving DecidableEq, Repr

namespace Cell

/-- The cell of a double; a non-number leaves it empty. -/
def ofFloat (x : Float) : Cell :=
  if Binary64.isNaN x then missing else float x

/-- The cell of a number. -/
def ofNumber : Number → Cell
  | .int i => int i
  | .float x => ofFloat x

/-- The cell that holds a plain value. -/
def ofValue : Value → Cell
  | .null => missing
  | .bool b => bool b
  | .int i => int i
  | .float x => ofFloat x
  | .text s => text s
  | .time t => time t
  | .member m => text m.name
  | v => compound v

/-- The plain value of a cell. -/
def toValue : Cell → Value
  | missing => .null
  | bool b => .bool b
  | int i => .int i
  | float x => .float x
  | text s => .text s
  | time t => .time t
  | compound v => v

/-- The amount a cell stands for; truth values count as zero and one. -/
def number? : Cell → Option Number
  | bool b => some (.int (if b then 1 else 0))
  | int i => some (.int i)
  | float x => some (.float x)
  | _ => none

/-- Whether there is nothing in the cell. -/
def isMissing : Cell → Bool
  | missing => true
  | float x => Binary64.isNaN x
  | _ => false

/-- Whether the cell holds a truth value. -/
def isBool : Cell → Bool
  | bool _ => true
  | _ => false

/-- Whether the cell holds an integer. -/
def isInt : Cell → Bool
  | int _ => true
  | _ => false

/-- Whether the cell holds an integer or a double. -/
def isNumber : Cell → Bool
  | int _ | float _ => true
  | _ => false

/-- Whether the cell holds a text. -/
def isText : Cell → Bool
  | text _ => true
  | _ => false

/-- Whether the cell holds a timestamp. -/
def isTime : Cell → Bool
  | time _ => true
  | _ => false

/-- What an equal cell has to share. -/
def key : Cell → CellKey
  | missing => .missing
  | bool b => .whole (if b then 1 else 0)
  | int i => .whole i
  | float x =>
    if Binary64.isNaN x then .missing
    else
      match Binary64.toInt? x with
      | some i => .whole i
      | none => .fraction (Binary64.rank x)
  | text s => .text s
  | time t => .time t
  | compound v => .compound v.quoted

/-- Whether the cell can be compared with others as a key. -/
def isKeyed : Cell → Bool
  | compound v => v.isKey
  | _ => true

/-- Whether the cell holds a finite amount. -/
def isFinite : Cell → Bool
  | bool _ | int _ => true
  | float x => Binary64.isFinite x
  | _ => false

/-- The double nearest to the amount in a cell. -/
def toFloat? (c : Cell) : Option Float :=
  c.number?.bind Number.toFloat?

/-- Whether a cell is below another: timestamps by time, numbers by amount. Cells of different sorts
are not below each other. -/
def less : Cell → Cell → Bool
  | time s, time t => decide (s.nanos < t.nanos)
  | a, b =>
    match a.number?, b.number? with
    | some m, some n => m.below n
    | _, _ => false

end Cell

end PlotGrammar
