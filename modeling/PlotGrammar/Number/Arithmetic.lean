import PlotGrammar.Number.Binary64
import PlotGrammar.Problem

/-!
# Arithmetic of samples

Bins and density curves are computed from samples by the four operations, a comparison and rounding
to integers. `Arithmetic` names what they need, so that one definition runs on doubles and is
reasoned about on rationals.

* On doubles, comparisons are false as soon as one side is no number, and rounding to integers fails
  on the values that are not finite.
* On rationals nothing fails.
-/

namespace PlotGrammar

/-- Numbers that samples can be made of. -/
class Arithmetic (α : Type) extends Add α, Sub α, Mul α, Div α where
  ofInt : Int → α
  lt : α → α → Bool
  le : α → α → Bool
  floor : α → Except Fault Int
  ceil : α → Except Fault Int

namespace Arithmetic

variable {α : Type} [Arithmetic α]

/-- Zero. -/
def zero : α :=
  ofInt 0

/-- A natural number among the samples. -/
def ofNat (n : Nat) : α :=
  ofInt n

/-- Half of a number. -/
def half (x : α) : α :=
  x / ofInt 2

/-- Whether a number is neither above nor below zero. -/
def isZero (x : α) : Bool :=
  le x zero && le zero x

/-- The least of some numbers, the first of them if there are equal ones. -/
def least (x : α) (xs : List α) : α :=
  xs.foldl (fun m y => if lt y m then y else m) x

/-- The greatest of some numbers, the first of them if there are equal ones. -/
def greatest (x : α) (xs : List α) : α :=
  xs.foldl (fun m y => if lt m y then y else m) x

end Arithmetic

/-- Why a double has no neighbouring integers. -/
def Binary64.roundingFault (x : Float) : Fault :=
  if isNaN x then .badValue else .overflow

instance : Arithmetic Float where
  ofInt := Float.ofInt
  lt := Binary64.lt
  le := Binary64.le
  floor x := (Binary64.floor? x).elim (.error (Binary64.roundingFault x)) .ok
  ceil x := (Binary64.ceil? x).elim (.error (Binary64.roundingFault x)) .ok

instance : Arithmetic Rat where
  ofInt := Rat.ofInt
  lt x y := decide (x < y)
  le x y := decide (x ≤ y)
  floor x := .ok x.floor
  ceil x := .ok x.ceil

end PlotGrammar
