import PlotGrammar.Number.Binary64
import PlotGrammar.Number.Decimal

/-!
# Numbers

A number is an integer of any size or a double. The two never mix silently: an integer keeps its
digits until an operation asks for a double (`Number.toFloat?`), which fails beyond the finite
doubles.

* `Number.same` is equality of values: `1` and `1.0` are the same number. `Number.lt` is their
  order, and `Number.below` their order after an integer that meets a double has become one.
* `Number.isFinite?` and `Number.isPositive?` are the range checks of parameters; they too fail on
  an integer that no double is near to.
-/

namespace PlotGrammar

/-- An integer of any size, or a double. -/
inductive Number where
  | int (value : Int)
  | float (value : Float)

namespace Number

/-- Whether two numbers have one value. -/
def same : Number → Number → Bool
  | int i, int j => i == j
  | int i, float x => Binary64.toInt? x == some i
  | float x, int i => Binary64.toInt? x == some i
  | float x, float y => Binary64.same x y

/-- Whether a number is below another, compared exactly; a non-number is below nothing. -/
def lt : Number → Number → Bool
  | int i, int j => decide (i < j)
  | float x, float y => Binary64.lt x y
  | int i, float x =>
    match Binary64.ceil? x with
    | some above => decide (i < above)
    | none => Binary64.lt 0 x
  | float x, int i =>
    match Binary64.floor? x with
    | some below => decide (below < i)
    | none => Binary64.lt x 0

/-- Whether this is the double that is no number. -/
def isNaN : Number → Bool
  | int _ => false
  | float x => Binary64.isNaN x

/-- The place of the nearest double among all doubles. -/
def place : Number → Int
  | int i => Binary64.rankOfInt i
  | float x => Binary64.rank x

/-- Whether a number is below another: two integers are compared exactly, others as doubles. -/
def below : Number → Number → Bool
  | int i, int j => decide (i < j)
  | m, n => !m.isNaN && !n.isNaN && decide (m.place < n.place)

/-- The double nearest to the number, if there is one. -/
def toFloat? : Number → Option Float
  | int i => Binary64.ofInt? i
  | float x => some x

/-- Whether the number is finite; `none` for an integer beyond all doubles. -/
def isFinite? : Number → Option Bool
  | int i => (Binary64.ofInt? i).map fun _ => true
  | float x => some (Binary64.isFinite x)

/-- Whether the number is above zero. -/
def isAboveZero : Number → Bool
  | int i => decide (0 < i)
  | float x => Binary64.lt 0 x

/-- The product, exact for two integers. -/
def mul? : Number → Number → Option Number
  | int i, int j => some (int (i * j))
  | x, y => do
    let x ← x.toFloat?
    let y ← y.toFloat?
    some (float (x * y))

/-- Whether the number differs from zero; a non-number does. -/
def isNonzero : Number → Bool
  | int i => i != 0
  | float x => !Binary64.same x 0

/-- The number in the fewest digits. -/
def text : Number → String
  | int i => toString i
  | float x => Decimal.text x

end Number

end PlotGrammar
