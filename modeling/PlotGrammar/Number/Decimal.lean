import PlotGrammar.Number.Binary64

/-!
# Decimal text of doubles

Which digits a double is written with, and how they are laid out, are two questions.

* `Decimal.shortest` chooses the fewest digits that read back to the same double, and among those
  the nearest to its exact value. `Decimal.rounded` chooses a fixed number of digits, ties to even.
* `Decimal.render` lays digits out under a `Layout`: in place while the decimal exponent is in the
  layout's range, with an explicit exponent outside it.

All comparisons are made on natural numbers, by cross-multiplication.
-/

namespace PlotGrammar

/-- The number `digits * 10 ^ scale`. -/
structure Decimal where
  digits : Nat
  scale : Int
  deriving DecidableEq, Repr

namespace Decimal

/-- Compares `a * 10 ^ i` with `b * 2 ^ j`. -/
def compareScaled (a : Nat) (i : Int) (b : Nat) (j : Int) : Ordering :=
  compare (a * Nat.pow 10 i.toNat * Nat.pow 2 (-j).toNat)
    (b * Nat.pow 2 j.toNat * Nat.pow 10 (-i).toNat)

/-- The integer part of `b * 2 ^ j / 10 ^ i`, and twice the remainder compared with the divisor. -/
def quotient (b : Nat) (j i : Int) : Nat × Ordering :=
  let above := b * Nat.pow 2 j.toNat * Nat.pow 10 (-i).toNat
  let below := Nat.pow 10 i.toNat * Nat.pow 2 (-j).toNat
  (above / below, compare (2 * (above % below)) below)

/-- The exponent of the leading decimal digit of the positive number `b * 2 ^ j`. -/
def leading (b : Nat) (j : Int) : Int :=
  -- 0.30103 is close to the decimal logarithm of two, so the estimate is off by one at most.
  let estimate := Int.fdiv (((b.log2 : Int) + j) * 30103) 100000
  if compareScaled 1 (estimate + 1) b j != .gt then estimate + 1
  else if compareScaled 1 estimate b j == .gt then estimate - 1
  else estimate

/-- Drops the zeros at the end of the digits. -/
def strip (d : Decimal) : Decimal :=
  go d.digits.log2 d
where
  go : Nat → Decimal → Decimal
    | 0, d => d
    | fuel + 1, d =>
      if d.digits ≠ 0 ∧ d.digits % 10 = 0 then go fuel ⟨d.digits / 10, d.scale + 1⟩ else d

/-- Whether a decimal lies among the reals that round to the positive double `m * 2 ^ q`: between
the halfway points to its neighbours, ends included exactly when `m` is even. -/
def readsBack (m : Nat) (q : Int) (d : Decimal) : Bool :=
  -- Below a power of two the doubles lie twice as dense, so the lower halfway point is nearer.
  let narrow := m == Nat.pow 2 52 && q > -1074
  let low := if narrow then 4 * m - 1 else 4 * m - 2
  let closed := m % 2 == 0
  let atLow := compareScaled d.digits d.scale low (q - 2)
  let atHigh := compareScaled d.digits d.scale (4 * m + 2) (q - 2)
  (atLow == .gt || (closed && atLow == .eq)) && (atHigh == .lt || (closed && atHigh == .eq))

/-- The nearer of the two neighbours of `m * 2 ^ q` among the multiples of `10 ^ scale` that read
back, if one does. -/
def candidate? (m : Nat) (q scale : Int) : Option Decimal :=
  let (below, half) := quotient m q scale
  let low : Decimal := ⟨below, scale⟩
  let high : Decimal := ⟨below + 1, scale⟩
  match readsBack m q low, readsBack m q high with
  | true, true =>
    some (if half == .lt || (half == .eq && below % 2 == 0) then low else high)
  | true, false => some low
  | false, true => some high
  | false, false => none

/-- The fewest digits that read back to the positive double `m * 2 ^ q`. Seventeen digits always
do; should none be found, the exact value is returned. -/
def shortest (m : Nat) (q : Int) : Decimal :=
  let top := leading m q
  let found := (List.range 17).findSome? fun n : Nat => candidate? m q (top - (n : Int))
  (found.getD ⟨m * Nat.pow 2 q.toNat * Nat.pow 5 (-q).toNat, min q 0⟩).strip

/-- The positive number `m * 2 ^ q` to so many significant digits, ties to even. -/
def rounded (places : Nat) (m : Nat) (q : Int) : Decimal :=
  let scale := leading m q - ((places : Int) - 1)
  let (below, half) := quotient m q scale
  let up := half == .gt || (half == .eq && below % 2 == 1)
  strip ⟨if up then below + 1 else below, scale⟩

/-- Where positional writing ends and how exponents are padded. -/
structure Layout where
  /-- The least exponent of a leading digit that is still written in place. -/
  least : Int
  /-- The first exponent of a leading digit that is no longer written in place. -/
  bound : Int
  /-- The least number of exponent digits. -/
  exponentDigits : Nat

/-- Numbers are written in place from `0.0001` to below `10 ^ 16`, always with a point; beyond,
the exponent carries its sign and at least two digits. -/
def Layout.plain : Layout :=
  ⟨-4, 16, 2⟩

/-- So many zeros. -/
def zeros (n : Nat) : String :=
  String.ofList (List.replicate n '0')

/-- Writes a positive decimal under a layout. -/
def render (layout : Layout) (d : Decimal) : String :=
  let text := toString d.digits
  let count : Int := text.length
  let top := d.scale + count - 1
  if layout.least ≤ top ∧ top < layout.bound then
    if 0 ≤ d.scale then text ++ zeros d.scale.toNat ++ ".0"
    else if 0 ≤ top then
      let whole := (top + 1).toNat
      (text.take whole).toString ++ "." ++ (text.drop whole).toString
    else "0." ++ zeros (-top - 1).toNat ++ text
  else
    let fraction := (text.drop 1).toString
    let mantissa := (text.take 1).toString ++ (if fraction = "" then "" else "." ++ fraction)
    let power := toString top.natAbs
    let sign := if top < 0 then "-" else "+"
    mantissa ++ "e" ++ sign ++ zeros (layout.exponentDigits - power.length) ++ power

/-- Writes a finite double with digits chosen by `choose`, zero as `0.0`. -/
def renderWith (choose : Nat → Int → Decimal) (d : Dyadic) : String :=
  let sign := if d.negative then "-" else ""
  if d.mantissa = 0 then sign ++ "0.0"
  else sign ++ render .plain (choose d.mantissa d.exponent)

/-- A double in the fewest digits that read back; the values that are no finite number have
names. -/
def text (x : Float) : String :=
  if Binary64.isFinite x then renderWith shortest (Binary64.dyadic x)
  else if Binary64.isNaN x then "nan"
  else if Binary64.isNegative x then "-inf"
  else "inf"

end Decimal

end PlotGrammar
