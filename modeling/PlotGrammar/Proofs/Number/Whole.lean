import PlotGrammar.Proofs.Number.Rounding

/-!
# Whole numbers that doubles hold

What is left of a finite double when its digits after the point are dropped
(`Binary64.truncate?_eq`) has at most 53 digits, up to zeros at its end. `Binary64.Spelled` says so
of a whole number. Such a number is a double: making it one and dropping digits gives it back
(`Binary64.truncate?_ofInt`).

So a count of units that was read off a double is read off it once more in the same way, and also
after a change to a unit of a thousand, if that loses nothing (`Binary64.Spelled.of_thousands`).
-/

namespace PlotGrammar

open Float.Model Float.Model.UnpackedFloat

namespace Binary64

/-! ### Dropping digits -/

/-- A mantissa times a power of two, without the digits after the point. -/
def whole (m : Nat) (e : Int) : Nat :=
  if 0 ≤ e then m * 2 ^ e.toNat else m / 2 ^ (-e).toNat

/-- A finite number without the digits after the point. -/
def wholePart : UnpackedFloat → Int
  | .finite s m e _ => s.apply (whole m e)
  | _ => 0

theorem whole_zero (e : Int) : whole 0 e = 0 := by
  unfold whole
  split
  · exact Nat.zero_mul _
  · exact Nat.zero_div _

theorem floor_eq_whole (m : Nat) (e : Int) : Dyadic.floor ⟨false, m, e⟩ = (whole m e : Int) := by
  unfold Dyadic.floor Dyadic.signed whole
  simp only [Nat.pow_eq]
  rw [if_neg Bool.false_ne_true]
  split
  · push_cast
    rfl
  · rw [Int.natCast_div]
    exact Int.fdiv_eq_ediv_of_nonneg _ (Int.natCast_nonneg _)

/-- The number that a finite double stands for is the one that its parts say. -/
theorem dyadic_of_parts {x : Float} {m : Nat} {e : Int} (hbelow : m < 2 ^ 53) (hlow : -1074 ≤ e)
    (hfull : 2 ^ 52 ≤ m ∨ e = -1074) (h : magnitude x = (e + 1074).toNat * 2 ^ 52 + m) :
    dyadic x = ⟨isNegative x, m, e⟩ := by
  rw [dyadic_eq, h]
  unfold dyadicAt
  generalize hk : (e + 1074).toNat = k
  -- the first digit of the mantissa is not stored unless the exponent is the least one
  by_cases hsmall : m < 2 ^ 52
  · obtain rfl : k = 0 := by omega
    rw [if_pos (by omega), Nat.zero_mul, Nat.zero_add, Nat.mod_eq_of_lt hsmall]
    exact congrArg (Dyadic.mk _ m) (by omega)
  · rw [if_neg (by omega)]
    congr 1 <;> omega

theorem truncate?_of_dyadic {x : Float} {m : Nat} {e : Int} (hx : isFinite x = true)
    (h : dyadic x = ⟨isNegative x, m, e⟩) : truncate? x = some ((sign x).apply (whole m e)) := by
  unfold truncate? ceil? floor? Dyadic.ceil sign
  rw [if_pos hx, if_pos hx, h]
  cases isNegative x with
  | false => exact congrArg some (floor_eq_whole m e)
  | true => exact congrArg (fun n => some (-n)) (floor_eq_whole m e)

/-- Dropping the digits after the point, part by part. -/
theorem truncate?_eq {x : Float} (hx : isFinite x = true) :
    truncate? x = some (wholePart (parts x)) := by
  have hread := reads x
  have hfinite := isFinite_eq x
  rw [hx] at hfinite
  generalize parts x = u at hread hfinite
  cases hread with
  | notANumber | infinity => exact nomatch hfinite
  | zero h =>
    rw [truncate?_of_dyadic hx (dyadic_of_parts (m := 0) (by decide) (by decide) (Or.inr rfl) h),
      whole_zero]
    cases sign x <;> rfl
  | finite hm hfits he h =>
    exact truncate?_of_dyadic hx (dyadic_of_parts hfits.below hfits.low hfits.full h)

theorem isFinite_of_truncate? {x : Float} {n : Int} (h : truncate? x = some n) :
    isFinite x = true := by
  unfold truncate? ceil? floor? at h
  cases hx : isFinite x with
  | true => rfl
  | false =>
    rw [hx] at h
    split at h <;> exact nomatch h

/-! ### Numbers of 53 digits -/

/-- A number of at most 53 digits, followed by zeros that are not too many for a double. -/
def Spelled (n : Nat) : Prop :=
  ∃ m k, n = m * 2 ^ k ∧ m < 2 ^ 53 ∧ k ≤ 971

theorem Spelled.of_lt {n : Nat} (h : n < 2 ^ 53) : Spelled n :=
  ⟨n, 0, (Nat.mul_one n).symm, h, by decide⟩

/-- A thousandth of a number that a double holds is such a number, if it is whole. -/
theorem Spelled.of_thousands {n : Nat} (h : Spelled (n * 1000)) : Spelled n := by
  obtain ⟨m, k, hdigits, hm, hzeros⟩ := h
  by_cases hk : 3 ≤ k
  · -- three of the zeros are those of the thousand, and the others stay
    obtain ⟨j, rfl⟩ := Nat.exists_eq_add_of_le' hk
    have hodd : n * 125 = m * 2 ^ j := by
      refine Nat.eq_of_mul_eq_mul_right (by decide : 0 < 8) ?_
      rw [Nat.mul_assoc, hdigits, Nat.pow_add, Nat.mul_assoc]
    have hcoprime : Nat.Coprime (2 ^ j) 125 := Nat.Coprime.pow_left j (by decide)
    obtain ⟨q, rfl⟩ : 2 ^ j ∣ n := hcoprime.dvd_of_dvd_mul_right ⟨m, by rw [hodd, Nat.mul_comm]⟩
    have hq : q * 125 = m := by
      refine Nat.eq_of_mul_eq_mul_right (Nat.two_pow_pos j) ?_
      rw [← hodd]
      ring
    exact ⟨q, j, Nat.mul_comm _ _, by omega, by omega⟩
  · -- without these zeros the number is small
    have hpow : 2 ^ k ≤ 2 ^ 2 := Nat.pow_le_pow_right (by decide) (by omega)
    have hle : m * 2 ^ k ≤ m * 4 := Nat.mul_le_mul_left m hpow
    exact .of_lt (by omega)

/-- **What is left of a double has at most 53 digits**, up to zeros at its end. -/
theorem spelled_of_truncate? {x : Float} {n : Int} (h : truncate? x = some n) :
    Spelled n.natAbs := by
  have hx := isFinite_of_truncate? h
  have hheld := held_parts hx
  rw [truncate?_eq hx] at h
  cases h
  -- a truncated number is the whole part of 53 digits, shifted up or cut
  generalize parts x = u at hheld
  cases hheld with
  | zero s => exact .of_lt (Nat.two_pow_pos 53)
  | @finite s m e hm hfits he =>
    have hbelow := hfits.below
    have habs : (s.apply (whole m e : Int)).natAbs = whole m e := by
      cases s with
      | positive => exact Int.natAbs_natCast _
      | negative => exact (Int.natAbs_neg _).trans (Int.natAbs_natCast _)
    unfold wholePart
    dsimp only
    rw [habs]
    unfold whole
    split
    · exact ⟨m, e.toNat, rfl, hbelow, by omega⟩
    · exact .of_lt (Nat.lt_of_le_of_lt (Nat.div_le_self _ _) hbelow)

/-- A longer number with zeros at its end is a double, too. -/
theorem parts_ofNat_long {m k : Nat} (hfull : 2 ^ 52 ≤ m) (hbelow : m < 2 ^ 53) (hk : 0 < k)
    (hzeros : k ≤ 971) :
    parts (Float.ofNat (m * 2 ^ k)) = .finite .positive m k (by omega) := by
  have hm : 0 < m := by omega
  have hpos : m * 2 ^ k ≠ 0 := (Nat.mul_pos hm (Nat.two_pow_pos k)).ne'
  -- the number is too long for the short way, so it is scaled by a power of two
  have hlong : ¬ (m * 2 ^ k < 2 ^ 53 ∧ 0 ≤ 22) := by
    have hpow : 2 ^ 1 ≤ 2 ^ k := Nat.pow_le_pow_right (by decide) hk
    have hle : m * 2 ^ 1 ≤ m * 2 ^ k := Nat.mul_le_mul_left m hpow
    omega
  have hfits : Fits m k := ⟨hbelow, by omega, Or.inl hfull⟩
  -- the product is one of the numbers that are kept, so rounding changes nothing
  have hexact := roundWithAccuracy_exact hm hfits (.positive * .positive) (k + 53)
  have hshift : (m * 2 ^ k) <<< 53 * 10 ^ Int.toNat 0 = m * 2 ^ (k + 53) := by
    rw [Nat.shiftLeft_eq, Nat.pow_add, ← Nat.mul_assoc]
    exact Nat.mul_one _
  have hexponent : (-(53 : Nat) + 0 : Int) = (k : Int) - ((k + 53 : Nat) : Int) := by omega
  have hbits : Format.binary64.mantissaBits = 53 := rfl
  have hall : (2 : Int) ^ Format.binary64.exponentBits = 2048 := rfl
  have hscientific : UnpackedFloat.ofScientific Format.binary64 (m * 2 ^ k) 0 =
      .finite .positive m k hm := by
    unfold UnpackedFloat.ofScientific
    simp only [hbits, hall]
    rw [dif_neg hpos, if_neg (by decide), if_neg (by omega), if_pos (by decide)]
    unfold UnpackedFloat.mul
    dsimp only
    rw [hshift, hexponent]
    exact hexact
  change parts (Float.ofScientific (m * 2 ^ k) false 0) = _
  unfold Float.ofScientific
  rw [dif_neg hlong]
  change stored (UnpackedFloat.ofScientific Format.binary64 (m * 2 ^ k) 0) = _
  rw [hscientific]
  exact stored_finite hm hfits (by omega)

/-- The parts of a number of 53 digits and some zeros say this number. -/
theorem wholePart_ofNat {n : Nat} (h : Spelled n) :
    Held (parts (Float.ofNat n)) ∧ wholePart (parts (Float.ofNat n)) = n := by
  rcases Nat.eq_zero_or_pos n with rfl | hn
  · rw [parts_zero]
    exact ⟨.zero _, rfl⟩
  by_cases hshort : n < 2 ^ 53
  · have hlog : n.log2 < 53 := (Nat.log2_lt hn.ne').2 hshort
    rw [parts_ofNat hn hshort]
    refine ⟨.finite _ (fits_whole hn hshort) (by omega), ?_⟩
    -- the mantissa has zeros for the digits after the point
    change ((whole (n * 2 ^ (52 - n.log2)) ((n.log2 : Int) - 52) : Nat) : Int) = n
    unfold whole
    split
    · have hnone : 52 - n.log2 = 0 := by omega
      have hzero : ((n.log2 : Int) - 52).toNat = 0 := by omega
      rw [hnone, hzero, Nat.pow_zero, Nat.mul_one, Nat.mul_one]
    · have hsame : (-((n.log2 : Int) - 52)).toNat = 52 - n.log2 := by omega
      rw [hsame, Nat.mul_div_cancel _ (Nat.two_pow_pos _)]
  · obtain ⟨m, k, rfl, hm, hk⟩ := h
    have hpos : 0 < m := Nat.pos_of_mul_pos_right hn
    -- the mantissa takes as many of the zeros as it has place for
    have hlog : m.log2 < 53 := (Nat.log2_lt hpos.ne').2 hm
    have hlong : 53 ≤ m.log2 + k := by
      rw [← log2_mul_two_pow hpos]
      exact (Nat.le_log2 hn.ne').2 (Nat.not_lt.1 hshort)
    obtain ⟨j, hj⟩ : ∃ j, j + (52 - m.log2) = k := ⟨k - (52 - m.log2), by omega⟩
    have hfull : (m * 2 ^ (52 - m.log2)).log2 = 52 := by
      rw [log2_mul_two_pow hpos]
      omega
    have hne : m * 2 ^ (52 - m.log2) ≠ 0 := (Nat.mul_pos hpos (Nat.two_pow_pos _)).ne'
    obtain ⟨hlow, hhigh⟩ := (Nat.log2_eq_iff hne).1 hfull
    have hsame : m * 2 ^ k = m * 2 ^ (52 - m.log2) * 2 ^ j := by
      rw [Nat.mul_assoc, ← Nat.pow_add, Nat.add_comm, hj]
    rw [hsame, parts_ofNat_long hlow hhigh (by omega) (by omega)]
    refine ⟨.finite _ ⟨hhigh, by omega, Or.inl hlow⟩ (by omega), ?_⟩
    change ((whole (m * 2 ^ (52 - m.log2)) j : Nat) : Int) = _
    unfold whole
    rw [if_pos (by omega), Int.toNat_natCast]

theorem wholePart_neg (u : UnpackedFloat) : wholePart u.neg = -wholePart u := by
  cases u with
  | notANumber | infinity | zero => rfl
  | finite s m e hm => exact apply_neg s _

/-- **A number of 53 digits and some zeros is a double.** -/
theorem truncate?_ofInt {n : Int} (h : Spelled n.natAbs) : truncate? (Float.ofInt n) = some n := by
  have hparts : Held (parts (Float.ofInt n)) ∧ wholePart (parts (Float.ofInt n)) = n := by
    -- a negative number is the opposite of a natural one, whose digits are the same
    cases n with
    | ofNat n => exact wholePart_ofNat h
    | negSucc n =>
      obtain ⟨hheld, hwhole⟩ := wholePart_ofNat h
      have hneg : parts (Float.ofInt (.negSucc n)) = (parts (Float.ofNat (n + 1))).neg := by
        change stored (parts (Float.ofNat (n + 1))).neg = _
        exact hheld.neg.stored
      rw [hneg, wholePart_neg]
      refine ⟨hheld.neg, ?_⟩
      change wholePart (parts (Float.ofNat (n + 1))) = _ at hwhole
      rw [hwhole]
      rfl
  have hfinite : isFinite (Float.ofInt n) = true := by
    have hheld := hparts.1
    rw [isFinite_eq]
    generalize parts (Float.ofInt n) = u at hheld
    cases hheld <;> rfl
  rw [truncate?_eq hfinite, hparts.2]

end Binary64

end PlotGrammar
