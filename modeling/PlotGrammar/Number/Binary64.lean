/-!
# Doubles read exactly

A finite double is a signed natural number times a power of two. This module reads that number off
the bits, and defines from it the operations that need an exact answer: the order, rounding to the
integers below and above, and the passage between integers and doubles.

* `Binary64.rank` maps the doubles that are numbers to the integers and keeps their order; the two
  zeros have one rank, and a rank fixes its double up to the sign of zero.
* `Binary64.lt` compares by rank and is false as soon as one side is not a number.
* `Binary64.rankOfInt` is the rank of the double nearest to an integer, found without making it.
-/

namespace PlotGrammar

/-- The number `mantissa * 2 ^ exponent`, negated if `negative`. -/
structure Dyadic where
  negative : Bool
  mantissa : Nat
  exponent : Int
  deriving DecidableEq, Repr

namespace Dyadic

/-- The mantissa with its sign. -/
def signed (d : Dyadic) : Int :=
  if d.negative then -(d.mantissa : Int) else d.mantissa

/-- The greatest integer that is not above the number. -/
def floor (d : Dyadic) : Int :=
  if 0 ≤ d.exponent then d.signed * Nat.pow 2 d.exponent.toNat
  else Int.fdiv d.signed (Nat.pow 2 (-d.exponent).toNat)

/-- The least integer that is not below the number. -/
def ceil (d : Dyadic) : Int :=
  -(floor ⟨!d.negative, d.mantissa, d.exponent⟩)

/-- The number itself when it is an integer. -/
def toInt? (d : Dyadic) : Option Int :=
  if d.floor = d.ceil then some d.floor else none

end Dyadic

namespace Binary64

/-- The biased exponent, eleven bits wide. -/
def exponentField (x : Float) : Nat :=
  ((x.toBits >>> 52) &&& 0x7FF).toNat

/-- The stored part of the mantissa, fifty-two bits wide. -/
def fractionField (x : Float) : Nat :=
  (x.toBits &&& 0xFFFFFFFFFFFFF).toNat

/-- Whether the sign bit is set. -/
def isNegative (x : Float) : Bool :=
  x.toBits >>> 63 == 1

/-- Whether the double is neither infinite nor a non-number. -/
def isFinite (x : Float) : Bool :=
  exponentField x < 0x7FF

/-- Whether the double is a non-number. -/
def isNaN (x : Float) : Bool :=
  exponentField x == 0x7FF && fractionField x != 0

/-- The non-number. -/
def nan : Float :=
  Float.ofBits 0x7FF8000000000000

/-- The infinity above all numbers. -/
def infinity : Float :=
  Float.ofBits 0x7FF0000000000000

/-- The exact value of a finite double. -/
def dyadic (x : Float) : Dyadic :=
  if exponentField x = 0 then ⟨isNegative x, fractionField x, -1074⟩
  else ⟨isNegative x, Nat.pow 2 52 + fractionField x, (exponentField x : Int) - 1075⟩

/-- The place of a double among all doubles, zero for both zeros. -/
def rank (x : Float) : Int :=
  let magnitude : Int := (x.toBits &&& 0x7FFFFFFFFFFFFFFF).toNat
  if isNegative x then -magnitude else magnitude

/-- A quotient rounded to the nearest natural number, and to the even one of two that are equally
near. -/
def roundedQuotient (numerator denominator : Nat) : Nat :=
  let q := numerator / denominator
  let r := numerator % denominator
  if 2 * r < denominator ∨ 2 * r = denominator ∧ q % 2 = 0 then q else q + 1

/-- The place of the double nearest to a natural number. The mantissa has fifty-three digits; one
that is rounded up to a power of two passes into the next exponent by itself. -/
def rankOfNat (n : Nat) : Nat :=
  if n = 0 then 0
  else (n.log2 + 1022) * Nat.pow 2 52 + roundedQuotient (n * Nat.pow 2 52) (Nat.pow 2 n.log2)

/-- The place of the double nearest to an integer, as if there were doubles of any size. -/
def rankOfInt : Int → Int
  | .ofNat n => rankOfNat n
  | .negSucc n => -rankOfNat (n + 1)

/-- The strict order of the numbers. -/
def lt (x y : Float) : Bool :=
  !isNaN x && !isNaN y && rank x < rank y

/-- The order of the numbers. -/
def le (x y : Float) : Bool :=
  !isNaN x && !isNaN y && rank x ≤ rank y

/-- Equality of numbers: the two zeros are equal, and a non-number equals nothing. -/
def same (x y : Float) : Bool :=
  !isNaN x && !isNaN y && rank x == rank y

/-- The greatest integer not above a finite double. -/
def floor? (x : Float) : Option Int :=
  if isFinite x then some (dyadic x).floor else none

/-- The least integer not below a finite double. -/
def ceil? (x : Float) : Option Int :=
  if isFinite x then some (dyadic x).ceil else none

/-- The part of a finite double before the point. -/
def truncate? (x : Float) : Option Int :=
  if isNegative x then ceil? x else floor? x

/-- The integer a double stands for, if it stands for one. -/
def toInt? (x : Float) : Option Int :=
  if isFinite x then (dyadic x).toInt? else none

/-- The double nearest to an integer, unless the integer is beyond all finite doubles. -/
def ofInt? (i : Int) : Option Float :=
  let x := Float.ofInt i
  if isFinite x then some x else none

end Binary64

end PlotGrammar
