import PlotGrammar.Number.Sum
import Mathlib

/-!
# Arithmetics around the rationals

What is computed from samples by one definition is computed alike in every arithmetic that the
rationals lie in. Such an arithmetic may answer as it likes where something is divided by zero, so
a computation that comes out the same in all of them divides nothing by zero.

* `Arithmetic.Embeds` says that a map carries the rationals into an arithmetic. In `Checked` a
  division by zero has no result, and neither has what is computed from it (`Checked.embeds`).
* `Sum.total_map` says that a map which keeps sums of two numbers keeps sums of lists, and
  `Sum.total_eq_sum` that on rationals these are what they are called.
-/

namespace PlotGrammar

namespace Arithmetic

/-- The rationals lie in an arithmetic, up to what is divided by zero there. -/
structure Embeds {β : Type} [Arithmetic β] (f : ℚ → β) : Prop where
  ofInt (i : ℤ) : f (ofInt i) = ofInt i
  add (x y : ℚ) : f (x + y) = f x + f y
  sub (x y : ℚ) : f (x - y) = f x - f y
  mul (x y : ℚ) : f (x * y) = f x * f y
  div {x y : ℚ} (hy : y ≠ 0) : f (x / y) = f x / f y
  lt (x y : ℚ) : lt (f x) (f y) = lt x y
  le (x y : ℚ) : le (f x) (f y) = le x y
  floor (x : ℚ) : floor (f x) = floor x
  ceil (x : ℚ) : ceil (f x) = ceil x

namespace Embeds

variable {β : Type} [Arithmetic β] {f : ℚ → β} (hf : Embeds f)

include hf

theorem zero : f Arithmetic.zero = Arithmetic.zero :=
  hf.ofInt 0

theorem ofNat (n : ℕ) : f (Arithmetic.ofNat n) = Arithmetic.ofNat n :=
  hf.ofInt n

theorem isZero (x : ℚ) : Arithmetic.isZero (f x) = Arithmetic.isZero x := by
  unfold Arithmetic.isZero
  rw [← hf.zero, hf.le, hf.le]

theorem half (x : ℚ) : f (Arithmetic.half x) = Arithmetic.half (f x) := by
  unfold Arithmetic.half
  rw [← hf.ofInt]
  exact hf.div (by decide)

theorem least (x : ℚ) (xs : List ℚ) :
    Arithmetic.least (f x) (xs.map f) = f (Arithmetic.least x xs) := by
  refine List.foldl_map_hom fun m y => ?_
  rw [hf.lt, apply_ite f]

theorem greatest (x : ℚ) (xs : List ℚ) :
    Arithmetic.greatest (f x) (xs.map f) = f (Arithmetic.greatest x xs) := by
  refine List.foldl_map_hom fun m y => ?_
  rw [hf.lt, apply_ite f]

end Embeds

end Arithmetic

/-! ### Divisions that are watched -/

/-- A rational, or nothing where something was divided by zero on the way. -/
def Checked : Type :=
  Option ℚ

namespace Checked

/-- A rational that nothing has been divided by zero for. -/
def of (x : ℚ) : Checked :=
  some x

/-- What two numbers are put together to, if both are there. -/
def both {γ : Type} (op : ℚ → ℚ → Option γ) : Checked → Checked → Option γ
  | some x, some y => op x y
  | _, _ => none

instance : Arithmetic Checked where
  add := both fun x y => some (x + y)
  sub := both fun x y => some (x - y)
  mul := both fun x y => some (x * y)
  div := both fun x y => if y = 0 then none else some (x / y)
  ofInt i := of (Rat.ofInt i)
  lt x y := (both (fun x y => some (decide (x < y))) x y).getD false
  le x y := (both (fun x y => some (decide (x ≤ y))) x y).getD false
  floor x := Option.elim x (.error .badValue) fun x => .ok x.floor
  ceil x := Option.elim x (.error .badValue) fun x => .ok x.ceil

/-- A function of rationals, where there is one. -/
def apply (op : ℚ → ℚ) (x : Checked) : Checked :=
  Option.map op x

theorem embeds : Arithmetic.Embeds of where
  ofInt _ := rfl
  add _ _ := rfl
  sub _ _ := rfl
  mul _ _ := rfl
  div hy := (if_neg hy).symm
  lt _ _ := rfl
  le _ _ := rfl
  floor _ := rfl
  ceil _ := rfl

end Checked

/-! ### Sums -/

namespace Sum

open Arithmetic

section Map

variable {α β : Type} [Arithmetic α] [Arithmetic β] {f : α → β}
  (hzero : f zero = zero) (hadd : ∀ x y, f (x + y) = f x + f y)

include hadd

theorem lanes_map (n : ℕ) (acc rest : List α) :
    lanes n (acc.map f) (rest.map f) =
      ((lanes n acc rest).1.map f, (lanes n acc rest).2.map f) := by
  induction n generalizing acc rest with
  | zero => rfl
  | succ n ih =>
    -- one more row of eight is added lane by lane on either side
    have hrow : List.zipWith (· + ·) (acc.map f) ((rest.map f).take 8) =
        (List.zipWith (· + ·) acc (rest.take 8)).map f := by
      rw [← List.map_take, List.zipWith_map, List.map_zipWith]
      simp only [hadd]
    unfold lanes
    rw [hrow, ← List.map_drop, ih]

include hzero

theorem inOrder_map (xs : List α) : inOrder (xs.map f) = f (inOrder xs) := by
  cases xs with
  | nil => exact hzero.symm
  | cons x xs => exact List.foldl_map_hom fun x y => (hadd x y).symm

theorem inLanes_map (xs : List α) : inLanes (xs.map f) = f (inLanes xs) := by
  unfold inLanes
  rw [List.length_map, ← List.map_take, ← List.map_drop, lanes_map hadd]
  generalize lanes (xs.length / 8 - 1) (xs.take 8) (xs.drop 8) = filled
  obtain ⟨acc, rest⟩ := filled
  -- only a list of eight is split into lanes; every other length is added in order
  match acc with
  | [a, b, c, d, e, g, h, i] =>
    simp only [List.map_cons, List.map_nil, ← hadd]
    exact List.foldl_map_hom fun x y => (hadd x y).symm
  | [] | [_] | [_, _] | [_, _, _] | [_, _, _, _] | [_, _, _, _, _] | [_, _, _, _, _, _]
  | [_, _, _, _, _, _, _] | _ :: _ :: _ :: _ :: _ :: _ :: _ :: _ :: _ :: _ =>
    exact inOrder_map hzero hadd xs

/-- A map that keeps sums of two numbers keeps the sum of a list. -/
theorem total_map (xs : List α) : total (xs.map f) = f (total xs) := by
  fun_induction total xs with
  | case1 xs hshort =>
    rw [total, if_pos (by rwa [List.length_map]), inOrder_map hzero hadd]
  | case2 xs hlong hfew =>
    rw [total, if_neg (by rwa [List.length_map]), dif_pos (by rwa [List.length_map]),
      inLanes_map hzero hadd]
  | case3 xs hlong hmany cut ihtake ihdrop =>
    rw [total, if_neg (by rwa [List.length_map]), dif_neg (by rwa [List.length_map]), hadd,
      ← ihtake, ← ihdrop, List.map_take, List.map_drop, List.length_map]

end Map

section Exact

/-- Rows that are filled keep what lanes and rest add up to. -/
theorem sum_lanes {n : ℕ} {acc rest : List ℚ} (hacc : acc.length = 8)
    (hrest : 8 * n ≤ rest.length) :
    (lanes n acc rest).1.sum + (lanes n acc rest).2.sum = acc.sum + rest.sum := by
  -- a step adds eight items to the lanes and takes them from the rest
  induction n generalizing acc rest with
  | zero => rfl
  | succ n ih =>
    have hrow : (rest.take 8).length = 8 := by
      rw [List.length_take]
      omega
    have hzip : (List.zipWith (· + ·) acc (rest.take 8)).length = 8 := by
      rw [List.length_zipWith, hacc, hrow, Nat.min_self]
    have hdrop : 8 * n ≤ (rest.drop 8).length := by
      rw [List.length_drop]
      omega
    have hsum := List.sum_add_sum_eq_sum_zipWith_of_length_eq acc (rest.take 8)
      (hacc.trans hrow.symm)
    unfold lanes
    rw [ih hzip hdrop]
    calc (List.zipWith (· + ·) acc (rest.take 8)).sum + (rest.drop 8).sum
        = acc.sum + (rest.take 8).sum + (rest.drop 8).sum := congrArg (· + _) hsum.symm
      _ = acc.sum + ((rest.take 8).sum + (rest.drop 8).sum) := add_assoc _ _ _
      _ = acc.sum + rest.sum := by rw [List.sum_take_add_sum_drop]

theorem foldl_add_eq (x : ℚ) (xs : List ℚ) : xs.foldl (· + ·) x = x + xs.sum := by
  calc xs.foldl (· + ·) x = xs.foldl (· + ·) (x + 0) := by rw [add_zero]
    _ = x + xs.foldl (· + ·) 0 := List.foldl_assoc
    _ = x + xs.sum := by rw [List.sum_eq_foldl]

theorem inOrder_eq_sum (xs : List ℚ) : inOrder xs = xs.sum := by
  cases xs with
  | nil => rfl
  | cons x xs => exact foldl_add_eq x xs

theorem inLanes_eq_sum {xs : List ℚ} (h : 8 ≤ xs.length) : inLanes xs = xs.sum := by
  have hacc : (xs.take 8).length = 8 := by
    rw [List.length_take]
    omega
  have hrest : 8 * (xs.length / 8 - 1) ≤ (xs.drop 8).length := by
    rw [List.length_drop]
    omega
  -- the lanes and what is left of the list have its sum between them
  have hsum := sum_lanes hacc hrest
  rw [List.sum_take_add_sum_drop] at hsum
  unfold inLanes
  split
  · next a b c d e f g h rest hfilled =>
    rw [hfilled] at hsum
    rw [← hsum, foldl_add_eq]
    simp only [List.sum_cons, List.sum_nil, add_zero, add_assoc]
  · exact inOrder_eq_sum xs

/-- Sums of rationals do not depend on how they are added. -/
theorem total_eq_sum (xs : List ℚ) : total xs = xs.sum := by
  fun_induction total xs with
  | case1 xs hshort => exact inOrder_eq_sum xs
  | case2 xs hlong hfew => exact inLanes_eq_sum (not_lt.1 hlong)
  | case3 xs hlong hmany cut ihtake ihdrop =>
    rw [ihtake, ihdrop]
    exact List.sum_take_add_sum_drop xs cut

end Exact

end Sum

end PlotGrammar
