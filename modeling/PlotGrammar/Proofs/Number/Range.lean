import PlotGrammar.Proofs.Number.Rounding

/-!
# Integers beyond all doubles

The doubles end below `2 ^ 1024`. An integer is rounded to the nearest double as if they went on,
and the last integer that is still rounded down to the greatest double is the one before
`2 ^ 1024 - 2 ^ 970`. `Binary64.ofInt?_eq_none_iff`: the integers from there on have no double.
-/

namespace PlotGrammar

open Float.Model Float.Model.UnpackedFloat

namespace Binary64

/-- The least natural number that no double is near to. -/
def leastBeyond : Nat :=
  2 ^ 1024 - 2 ^ 970

/-- How many times the least double above zero makes one. -/
def unitsOfOne : Nat :=
  2 ^ 1074

theorem two_pow_mul_two_pow : 2 ^ 53 * 2 ^ 1021 = unitsOfOne := by
  decide +kernel

/-- A natural number with more digits than a mantissa has is rounded at once. -/
theorem parts_ofNat_of_long {n : Nat} (h : 2 ^ 53 ≤ n) :
    parts (Float.ofNat n) =
      stored (roundWithAccuracy Format.binary64 .positive (n * 2 ^ 53) (-53) .exact) := by
  have hne : n ≠ 0 := by omega
  have hbits : Format.binary64.mantissaBits = 53 := rfl
  have hexponent : (2 : Int) ^ Format.binary64.exponentBits = 2048 := rfl
  -- a long integer is a product with a power of ten that is one, rounded to fit
  have hmodel : UnpackedFloat.ofScientific Format.binary64 n 0 =
      roundWithAccuracy Format.binary64 .positive (n * 2 ^ 53) (-53) .exact := by
    unfold UnpackedFloat.ofScientific
    simp only [hbits, hexponent]
    rw [dif_neg hne, if_neg (by decide), if_neg (by omega), if_pos (by decide)]
    unfold UnpackedFloat.mul
    dsimp only
    rw [Nat.shiftLeft_eq, Int.toNat_zero, Nat.pow_zero, Nat.mul_one]
    rfl
  change parts (Float.ofScientific n false 0) = _
  unfold Float.ofScientific
  rw [dif_neg fun hshort => absurd hshort.1 (Nat.not_lt.2 h)]
  exact congrArg stored hmodel

theorem rank_ofNat_of_long {n : Nat} (h : 2 ^ 53 ≤ n) :
    rank (Float.ofNat n) = (min (roundedPlace (n * unitsOfOne)) topPlace : Nat) := by
  have hpos : 0 < n := Nat.lt_of_lt_of_le (Nat.two_pow_pos 53) h
  have hmantissa : 0 < n * 2 ^ 53 := Nat.mul_pos hpos (Nat.two_pow_pos 53)
  have hlog : 52 ≤ (n * 2 ^ 53).log2 := by
    rw [log2_mul_two_pow hpos]
    omega
  have hparts := parts_ofNat_of_long h
  have hnumber : isNaN (Float.ofNat n) = false := by
    rw [isNaN_eq, hparts, isNaN_stored]
    exact isNaN_of_isFinite_parts (isFinite_roundWithAccuracy _ _ _ _)
  have happly : ∀ k : Nat, Sign.positive.apply (k : Int) = k := fun _ => rfl
  have hshift : ((-53 : Int) + 1074).toNat = 1021 := rfl
  have hunits : n * 2 ^ 53 * 2 ^ 1021 = n * unitsOfOne := by
    rw [Nat.mul_assoc, two_pow_mul_two_pow]
  -- the place of a rounded number is the rounded place of the number in units of the least double
  rw [rank_eq_place hnumber, hparts, place_roundWithAccuracy hmantissa (by omega) (Or.inl hlog),
    hshift, hunits, happly]

/-- A natural number has a finite double if it is not beyond all doubles. -/
theorem isFinite_ofNat_iff {n : Nat} : isFinite (Float.ofNat n) = true ↔ n < leastBeyond := by
  rcases Nat.lt_or_ge n (2 ^ 53) with hshort | hlong
  · refine iff_of_true (isFinite_ofNat hshort) (Nat.lt_trans hshort ?_)
    decide +kernel
  · -- places of rounded numbers grow with the numbers, so two of them have to be computed
    rw [isFinite_iff_rank, rank_ofNat_of_long hlong, Int.natAbs_natCast]
    constructor
    · intro h
      by_contra hbeyond
      have hle := roundedPlace_mono (Nat.mul_le_mul_right unitsOfOne (Nat.le_of_not_lt hbeyond))
      have htop : roundedPlace (leastBeyond * unitsOfOne) = topPlace := by decide +kernel
      omega
    · intro h
      have hle := roundedPlace_mono (Nat.mul_le_mul_right unitsOfOne (Nat.le_sub_one_of_lt h))
      have htop : roundedPlace ((leastBeyond - 1) * unitsOfOne) < topPlace := by decide +kernel
      omega

theorem isFinite_neg (x : Float) : isFinite (-x) = isFinite x := by
  have hread := reads x
  rw [isFinite_eq, isFinite_eq]
  change (stored (parts x).neg).isFinite = _
  generalize parts x = u at hread
  cases hread with
  | notANumber => rfl
  | infinity => exact (congrArg UnpackedFloat.isFinite (stored_infinity _)).trans rfl
  | zero => exact (congrArg UnpackedFloat.isFinite (stored_zero _)).trans rfl
  | finite hm _ he => exact isFinite_stored hm he

/-- **An integer has no double exactly if its size is at least `2 ^ 1024 - 2 ^ 970`.** -/
theorem ofInt?_eq_none_iff {i : Int} : ofInt? i = none ↔ leastBeyond ≤ i.natAbs := by
  have hfinite : isFinite (Float.ofInt i) = true ↔ i.natAbs < leastBeyond := by
    cases i with
    | ofNat n => exact isFinite_ofNat_iff
    | negSucc n => exact (isFinite_neg (Float.ofNat (n + 1)) ▸ isFinite_ofNat_iff)
  unfold ofInt?
  dsimp only
  split
  · next h =>
    exact ⟨fun hnone => (nomatch hnone), fun hle => absurd (hfinite.1 h) (Nat.not_lt.2 hle)⟩
  · next h => exact ⟨fun _ => Nat.le_of_not_lt fun hlt => h (hfinite.2 hlt), fun _ => rfl⟩

end Binary64

end PlotGrammar
