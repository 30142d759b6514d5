import PlotGrammar.Number.Arithmetic

/-!
# Sums that keep rounding errors small

A long list is halved, at a multiple of eight, and the sums of the halves are added; up to 128
numbers are added in eight lanes, and fewer than eight one after the other. In exact arithmetic this
is the sum of the list.
-/

namespace PlotGrammar.Sum

open Arithmetic

variable {α : Type} [Arithmetic α]

/-- Adds one after the other; a single number is its own sum. -/
def inOrder : List α → α
  | [] => zero
  | x :: xs => xs.foldl (· + ·) x

/-- Adds so many further rows of eight numbers to the lanes; also gives what is left. -/
def lanes : Nat → List α → List α → List α × List α
  | 0, acc, rest => (acc, rest)
  | n + 1, acc, rest => lanes n (List.zipWith (· + ·) acc (rest.take 8)) (rest.drop 8)

/-- Adds in eight lanes, then the numbers that fill no row. -/
def inLanes (xs : List α) : α :=
  match lanes (xs.length / 8 - 1) (xs.take 8) (xs.drop 8) with
  | ([a, b, c, d, e, f, g, h], rest) =>
    rest.foldl (· + ·) (((a + b) + (c + d)) + ((e + f) + (g + h)))
  | _ => inOrder xs

/-- Adds a list of any length. -/
def total (xs : List α) : α :=
  if xs.length < 8 then inOrder xs
  else if _h : xs.length ≤ 128 then inLanes xs
  else
    -- The first half is a number of full rows; what fills no row is left to the second one.
    let cut := xs.length / 2 - xs.length / 2 % 8
    total (xs.take cut) + total (xs.drop cut)
termination_by xs.length
decreasing_by
  all_goals simp only [List.length_take, List.length_drop]; omega

theorem total_singleton (x : α) : total [x] = x := by
  rw [total]
  rfl

end PlotGrammar.Sum
