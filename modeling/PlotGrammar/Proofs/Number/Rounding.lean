import PlotGrammar.Proofs.Number.Parts

/-!
# Rounding

A result is computed exactly and then rounded to 53 digits. A finite double is a whole number of
units, the least double above zero (`Binary64.units`), and rounding takes a number of units to a
place among the doubles (`Binary64.roundedPlace`).

* What fits into a double is rounded to itself (`Binary64.roundWithAccuracy_exact`). So a whole
  number of up to 53 digits is a double (`Binary64.parts_ofNat`), and dividing by one changes
  nothing.
* Dividing by a whole number above zero does not overflow (`Binary64.isFinite_div_ofNat`).
* Rounding keeps the order (`Binary64.roundedUnits_mono`). The place of a sum is rounded from the
  sum of the units (`Binary64.rank_add`), that of a difference from their difference.
-/

namespace PlotGrammar

open Float.Model Float.Model.UnpackedFloat

namespace Binary64

/-! ### Exact results -/

theorem log2_mul_two_pow {m : Nat} (hm : 0 < m) (k : Nat) : (m * 2 ^ k).log2 = m.log2 + k := by
  refine (Nat.log2_eq_iff (Nat.mul_pos hm (Nat.two_pow_pos k)).ne').2 ⟨?_, ?_⟩
  · rw [Nat.pow_add]
    exact Nat.mul_le_mul_right _ (Nat.log2_self_le hm.ne')
  · rw [Nat.add_right_comm, Nat.pow_add]
    exact Nat.mul_lt_mul_of_pos_right Nat.lt_log2_self (Nat.two_pow_pos k)

theorem targetExponent_eq (t : Int) : Format.binary64.targetExponent t = max (t - 53) (-1074) := rfl

theorem Fits.targetExponent {m : Nat} {e : Int} (h : Fits m e) (hm : 0 < m) :
    Format.binary64.targetExponent (totalExponent m e) = e := by
  obtain ⟨hbelow, hlow, hfull⟩ := h
  have hlog : m.log2 < 53 := (Nat.log2_lt hm.ne').2 hbelow
  rw [targetExponent_eq]
  unfold totalExponent
  rcases hfull with hfull | rfl
  · have hlog' : 52 ≤ m.log2 := (Nat.le_log2 hm.ne').2 hfull
    omega
  · omega

/-- Digits that are zero are shifted out without a trace. -/
theorem shiftRight_exact (m k : Nat) :
    (⟨m * 2 ^ k, false, false⟩ : ExtendedMantissa) >>> k = ⟨m, false, false⟩ := by
  change Nat.repeat ExtendedMantissa.shiftRightOne k _ = _
  induction k generalizing m with
  | zero => rw [Nat.pow_zero, Nat.mul_one]; rfl
  | succ k ih =>
    have hstep : m * 2 ^ (k + 1) = m * 2 * 2 ^ k := by rw [Nat.pow_succ']; ring
    change ExtendedMantissa.shiftRightOne (Nat.repeat ExtendedMantissa.shiftRightOne k _) = _
    rw [hstep, ih]
    unfold ExtendedMantissa.shiftRightOne
    simp

theorem shiftToTargetExponent_exact {m : Nat} {e : Int} (hm : 0 < m) (h : Fits m e) (k : Nat) :
    shiftToTargetExponent Format.binary64 (m * 2 ^ k) (e - k) .exact = (⟨m, false, false⟩, e) := by
  have htotal : totalExponent (m * 2 ^ k) (e - k) = totalExponent m e := by
    unfold totalExponent
    rw [log2_mul_two_pow hm]
    push_cast
    ring
  have hshift : (e - (e - (k : Int))).toNat = k := by omega
  have hend : e - (k : Int) + (k : Int) = e := by omega
  unfold shiftToTargetExponent shiftToExponent
  rw [htotal, h.targetExponent hm]
  dsimp only
  rw [hshift, hend]
  exact congrArg (·, e) (shiftRight_exact m k)

/-- **What fits is rounded to itself**, whichever zeros it ends in. -/
theorem roundWithAccuracy_exact {m : Nat} {e : Int} (hm : 0 < m) (h : Fits m e) (s : Sign)
    (k : Nat) :
    roundWithAccuracy Format.binary64 s (m * 2 ^ k) (e - k) .exact = .finite s m e hm := by
  have hsecond := shiftToTargetExponent_exact hm h 0
  rw [Nat.pow_zero, Nat.mul_one, Nat.cast_zero, Int.sub_zero] at hsecond
  unfold roundWithAccuracy
  rw [shiftToTargetExponent_exact hm h k]
  dsimp only
  have hrounded : (⟨m, false, false⟩ : ExtendedMantissa).roundedMantissa = m := rfl
  simp only [hrounded, hsecond]
  exact dif_neg hm.ne'

/-! ### Whole numbers -/

/-- The mantissa of a whole number of up to 53 digits takes all digits. -/
theorem fits_whole {n : Nat} (hn : 0 < n) (h : n < 2 ^ 53) :
    Fits (n * 2 ^ (52 - n.log2)) ((n.log2 : Int) - 52) := by
  have hlog : n.log2 < 53 := (Nat.log2_lt hn.ne').2 h
  have hwhole : (n * 2 ^ (52 - n.log2)).log2 = 52 := by
    rw [log2_mul_two_pow hn]
    omega
  have hpos : n * 2 ^ (52 - n.log2) ≠ 0 := (Nat.mul_pos hn (Nat.two_pow_pos _)).ne'
  obtain ⟨hlow, hhigh⟩ := (Nat.log2_eq_iff hpos).1 hwhole
  exact ⟨hhigh, by omega, Or.inl hlow⟩

theorem parts_toFloat {n : Nat} (hn : 0 < n) (h : n < 2 ^ 53) :
    parts n.toUInt64.toFloat = .finite .positive (n * 2 ^ (52 - n.log2)) ((n.log2 : Int) - 52)
      (Nat.mul_pos hn (Nat.two_pow_pos _)) := by
  have hfits := fits_whole hn h
  have hpos := Nat.mul_pos hn (Nat.two_pow_pos (52 - n.log2))
  have hlog : n.log2 < 53 := (Nat.log2_lt hn.ne').2 h
  have hword : n.toUInt64.toNat = n := Nat.mod_eq_of_lt (Nat.lt_trans h (by decide))
  -- the number is normalized with exponent zero, so all of its digits are shifted up
  change stored (UnpackedFloat.normalize Format.binary64 (n.toUInt64.toNat : Int) 0 .positive) = _
  have hsign : compare (n : Int) 0 = .gt := Int.compare_eq_gt.2 (by omega)
  have htarget : Format.binary64.targetExponent (totalExponent n 0) = (n.log2 : Int) - 52 := by
    rw [targetExponent_eq]
    unfold totalExponent
    omega
  have hshift : (0 - ((n.log2 : Int) - 52)).toNat = 52 - n.log2 := by omega
  have hexponent : 0 - ((52 - n.log2 : Nat) : Int) = (n.log2 : Int) - 52 := by omega
  have hexact := roundWithAccuracy_exact hpos hfits .positive 0
  rw [Nat.pow_zero, Nat.mul_one, Nat.cast_zero, Int.sub_zero] at hexact
  unfold UnpackedFloat.normalize UnpackedFloat.round decreaseExponent
  rw [hword, hsign]
  dsimp only
  rw [Int.toNat_natCast, htarget, hshift, hexponent, Nat.shiftLeft_eq, hexact]
  exact stored_finite hpos hfits (by omega)

/-- **A whole number of up to 53 digits is a double.** -/
theorem parts_ofNat {n : Nat} (hn : 0 < n) (h : n < 2 ^ 53) :
    parts (Float.ofNat n) = .finite .positive (n * 2 ^ (52 - n.log2)) ((n.log2 : Int) - 52)
      (Nat.mul_pos hn (Nat.two_pow_pos _)) := by
  have hfits := fits_whole hn h
  have hpos := Nat.mul_pos hn (Nat.two_pow_pos (52 - n.log2))
  have hlog : n.log2 < 53 := (Nat.log2_lt hn.ne').2 h
  -- a number below `2 ^ 53` is read by the short way, as a word times one
  have hproduct : Float.ofNat n = n.toUInt64.toFloat * Float.ofBits 4607182418800017408 := by
    change Float.ofScientific n false 0 = _
    unfold Float.ofScientific
    rw [dif_pos ⟨h, by decide⟩]
    rfl
  have hone : parts (Float.ofBits 4607182418800017408) =
      .finite .positive (2 ^ 52) (-52) (Nat.two_pow_pos 52) := by rfl
  -- the product of a word with one is exact
  have hexact := roundWithAccuracy_exact hpos hfits (.positive * .positive) 52
  rw [hproduct]
  change stored (UnpackedFloat.mul Format.binary64 (parts n.toUInt64.toFloat)
    (parts (Float.ofBits 4607182418800017408))) = _
  rw [parts_toFloat hn h, hone]
  unfold UnpackedFloat.mul
  dsimp only
  rw [← Int.sub_eq_add_neg]
  exact (congrArg stored hexact).trans (stored_finite hpos hfits (by omega))

/-! ### Quotients -/

theorem mantissa_shiftRight_eq (a : ExtendedMantissa) (n : Nat) :
    (a >>> n).mantissa = a.mantissa / 2 ^ n := by
  change (Nat.repeat ExtendedMantissa.shiftRightOne n a).mantissa = a.mantissa / 2 ^ n
  induction n with
  | zero => exact (Nat.div_one _).symm
  | succ n ih =>
    change (Nat.repeat ExtendedMantissa.shiftRightOne n a).mantissa / 2 = _
    rw [ih, Nat.div_div_eq_div_mul, ← Nat.pow_succ]

/-- Rounding raises an exponent to that of 53 digits, and by one more if the digits overflow. -/
theorem exponent_roundWithAccuracy {s s' : Sign} {m m' : Nat} {e e' bound : Int} {hm : 0 < m'}
    {accuracy : Accuracy}
    (h : roundWithAccuracy Format.binary64 s m e accuracy = .finite s' m' e' hm)
    (he : e ≤ bound) (hlow : -1074 ≤ bound) (hlog : (m.log2 : Int) + e - 52 ≤ bound) :
    e' ≤ bound + 1 := by
  have hfirst : ∀ m e accuracy, shiftToTargetExponent Format.binary64 m e accuracy =
      (ExtendedMantissa.ofMantissaAndAccuracy m accuracy >>>
        (max ((m.log2 : Int) + 1 + e - 53) (-1074) - e).toNat,
        e + (max ((m.log2 : Int) + 1 + e - 53) (-1074) - e).toNat) := fun _ _ _ => rfl
  unfold roundWithAccuracy at h
  rw [hfirst m e accuracy] at h
  dsimp only at h
  generalize hshift : (max ((m.log2 : Int) + 1 + e - 53) (-1074) - e).toNat = k at h
  generalize hfirst' : ExtendedMantissa.ofMantissaAndAccuracy m accuracy >>> k = a at h
  have hmantissa : a.mantissa = m / 2 ^ k := by
    rw [← hfirst', mantissa_shiftRight_eq, mantissa_ofMantissaAndAccuracy]
  -- the digits that are left are 53, or one more after they have been rounded
  have hdigits : a.mantissa < 2 ^ 53 := by
    rw [hmantissa, Nat.div_lt_iff_lt_mul (Nat.two_pow_pos k), ← Nat.pow_add]
    exact Nat.lt_of_lt_of_le Nat.lt_log2_self (Nat.pow_le_pow_right (by decide) (by omega))
  have hrounded := roundedMantissa_le a
  have hcarry : (a.roundedMantissa).log2 ≤ 53 := by
    by_cases hzero : a.roundedMantissa = 0
    · rw [hzero]
      decide
    · exact Nat.le_of_lt_succ ((Nat.log2_lt hzero).2 (by omega))
  rw [hfirst a.roundedMantissa] at h
  split at h
  · cases h
  · obtain ⟨-, -, rfl⟩ := UnpackedFloat.finite.inj h
    omega

/-- The quotient of two mantissas has at most as many digits more as the first has more than the
second. -/
theorem log2_div_le {a b k : Nat} (hb : 0 < b) (hq : a * 2 ^ k / b ≠ 0) :
    (a * 2 ^ k / b).log2 + b.log2 ≤ a.log2 + k := by
  have hle : 2 ^ ((a * 2 ^ k / b).log2 + b.log2) ≤ a * 2 ^ k := by
    rw [Nat.pow_add]
    exact Nat.le_trans (Nat.mul_le_mul (Nat.log2_self_le hq) (Nat.log2_self_le hb.ne'))
      (Nat.div_mul_le_self _ _)
  have hlt : a * 2 ^ k < 2 ^ (a.log2 + 1 + k) := by
    rw [Nat.pow_add]
    exact Nat.mul_lt_mul_of_pos_right Nat.lt_log2_self (Nat.two_pow_pos k)
  have := (Nat.pow_lt_pow_iff_right (by decide : 1 < 2)).1 (Nat.lt_of_le_of_lt hle hlt)
  omega

/-- Where the digits of a quotient end before it is rounded. -/
def quotientExponent (m : Nat) (e : Int) (m' : Nat) (e' : Int) : Int :=
  min (e - e') (max (totalExponent m e - totalExponent m' e' - 53) (-1074))

theorem div_finite {s s' : Sign} {m m' : Nat} {e e' : Int} (hm : 0 < m) (hm' : 0 < m') {k : Nat}
    {t : Int} (ht : quotientExponent m e m' e' = t) (hk : (e - e' - t).toNat = k) :
    UnpackedFloat.div Format.binary64 (.finite s m e hm) (.finite s' m' e' hm') =
      roundWithAccuracy Format.binary64 (s / s') (m * 2 ^ k / m') t
        (accuracyOfFraction (m * 2 ^ k % m') m') := by
  rw [← Nat.shiftLeft_eq, ← hk, ← ht]
  rfl

/-- A quotient by two or more does not overflow. -/
theorem isFinite_div_of_two_le {s s' : Sign} {m m' : Nat} {e e' : Int} (hm : 0 < m) (hm' : 0 < m')
    (h : Fits m e) (he : e ≤ 971) (htwo : 2 ≤ totalExponent m' e') :
    (stored (UnpackedFloat.div Format.binary64 (.finite s m e hm)
      (.finite s' m' e' hm'))).isFinite = true := by
  have hlog : m.log2 < 53 := (Nat.log2_lt hm.ne').2 h.below
  obtain ⟨t, ht⟩ : ∃ t, quotientExponent m e m' e' = t := ⟨_, rfl⟩
  obtain ⟨k, hk⟩ : ∃ k, (e - e' - t).toNat = k := ⟨_, rfl⟩
  rw [div_finite hm hm' ht hk]
  unfold quotientExponent totalExponent at ht
  unfold totalExponent at htwo
  generalize hround : roundWithAccuracy Format.binary64 (s / s') (m * 2 ^ k / m') t
    (accuracyOfFraction (m * 2 ^ k % m') m') = u
  have hfinite : u.isFinite = true := hround ▸ isFinite_roundWithAccuracy _ _ _ _
  cases u with
  | notANumber | infinity => exact absurd hfinite Bool.false_ne_true
  | zero s => rw [stored_zero]; rfl
  | finite s m₁ e₁ hm₁ =>
    -- a divisor of at least two takes one off the exponent, or more
    have hbound : ((m * 2 ^ k / m').log2 : Int) + t - 52 ≤ 970 := by
      by_cases hzero : m * 2 ^ k / m' = 0
      · have hlog2 : Nat.log2 0 = 0 := rfl
        rw [hzero, hlog2]
        omega
      · have hquotient := log2_div_le hm' hzero
        omega
    have he₁ : e₁ ≤ 970 + 1 := exponent_roundWithAccuracy hround (by omega) (by omega) hbound
    exact isFinite_stored hm₁ he₁

/-- **A quotient by one is what is divided.** -/
theorem div_one_parts {s : Sign} {m : Nat} {e : Int} (hm : 0 < m) (h : Fits m e) :
    UnpackedFloat.div Format.binary64 (.finite s m e hm)
      (.finite .positive (2 ^ 52) (-52) (Nat.two_pow_pos 52)) = .finite s m e hm := by
  have hlog : m.log2 < 53 := (Nat.log2_lt hm.ne').2 h.below
  have hone : Nat.log2 (2 ^ 52) = 52 := by rw [Nat.log2_two_pow]
  have hsign : s / .positive = s := by cases s <;> rfl
  -- the quotient is taken to some digits more than there are, and these are zeros
  obtain ⟨j, hj⟩ : ∃ j : Nat, quotientExponent m e (2 ^ 52) (-52) = e - j := by
    refine ⟨(e - quotientExponent m e (2 ^ 52) (-52)).toNat, ?_⟩
    unfold quotientExponent totalExponent
    rw [hone]
    have := h.low
    omega
  have hk : (e - -52 - (e - j)).toNat = 52 + j := by omega
  have hmul : m * 2 ^ (52 + j) = m * 2 ^ j * 2 ^ 52 := by rw [Nat.pow_add]; ring
  rw [div_finite hm (Nat.two_pow_pos 52) hj hk, hmul, Nat.mul_div_cancel _ (Nat.two_pow_pos 52),
    Nat.mul_mod_left, hsign]
  exact roundWithAccuracy_exact hm h s j

/-- **Dividing by a whole number above zero does not overflow.** -/
theorem isFinite_div_ofNat {x : Float} (hx : isFinite x = true) {n : Nat} (hn : 0 < n)
    (h : n < 2 ^ 53) : isFinite (x / Float.ofNat n) = true := by
  have hread := reads x
  rw [isFinite_eq] at hx ⊢
  change (stored (UnpackedFloat.div Format.binary64 (parts x)
    (parts (Float.ofNat n)))).isFinite = true
  rw [parts_ofNat hn h]
  generalize parts x = u at hx hread
  -- only a finite dividend that is not zero needs the bound on the quotient
  cases hread with
  | notANumber | infinity => exact absurd hx Bool.false_ne_true
  | zero => exact (congrArg UnpackedFloat.isFinite (stored_zero _)).trans rfl
  | finite hm hfits he =>
    -- a division by one leaves the number as it is
    by_cases hone : n = 1
    · subst hone
      have hquotient := congrArg stored (div_one_parts (s := sign x) hm hfits)
      exact congrArg UnpackedFloat.isFinite (hquotient.trans (stored_finite hm hfits he))
    · refine isFinite_div_of_two_le hm _ hfits he ?_
      have hlog : 1 ≤ n.log2 := (Nat.le_log2 hn.ne').2 (by omega)
      unfold totalExponent
      rw [log2_mul_two_pow hn]
      have := (Nat.log2_lt hn.ne').2 h
      omega

/-! ### Places and units -/

/-- A finite number in units of the least double above zero. -/
def units : UnpackedFloat → Int
  | .finite s m e _ => s.apply (m * 2 ^ (e + 1074).toNat : Nat)
  | _ => 0

/-- The place of the parts of a double among all doubles. -/
def place : UnpackedFloat → Int
  | .infinity s => s.apply (2047 * 2 ^ 52 : Nat)
  | .finite s m e _ => s.apply ((e + 1074).toNat * 2 ^ 52 + m : Nat)
  | _ => 0

theorem rank_eq_place {x : Float} (h : isNaN x = false) : rank x = place (parts x) := by
  have hsign : ∀ n : Nat, (if isNegative x then -(n : Int) else n) = (sign x).apply n := by
    intro n
    unfold sign
    cases isNegative x <;> rfl
  have hread := reads x
  rw [rank_eq]
  rw [isNaN_eq] at h
  generalize parts x = u at h hread
  cases hread with
  | notANumber => exact absurd h.symm Bool.false_ne_true
  | infinity hm => rw [hm, hsign]; rfl
  | zero hm => rw [hm, hsign]; cases sign x <;> rfl
  | finite _ _ _ hm => rw [hm, hsign]; rfl

/-- The place that a number of units is rounded to: all but 53 digits are dropped. -/
def roundedPlace (n : Nat) : Nat :=
  (n.log2 - 52) * 2 ^ 52 + roundedQuotient n (2 ^ (n.log2 - 52))

theorem roundedQuotient_one (n : Nat) : roundedQuotient n 1 = n := by
  unfold roundedQuotient
  simp [Nat.mod_one]

theorem roundedQuotient_mul (m : Nat) {d : Nat} (hd : 0 < d) : roundedQuotient (m * d) d = m := by
  unfold roundedQuotient
  rw [Nat.mul_div_cancel _ hd, Nat.mul_mod_left]
  exact if_pos (Or.inl (by omega))

theorem roundedPlace_exact {m : Nat} {e : Int} (hm : 0 < m) (h : Fits m e) :
    roundedPlace (m * 2 ^ (e + 1074).toNat) = (e + 1074).toNat * 2 ^ 52 + m := by
  have hlog : m.log2 < 53 := (Nat.log2_lt hm.ne').2 h.below
  have hlow := h.low
  unfold roundedPlace
  rw [log2_mul_two_pow hm]
  rcases h.full with hfull | rfl
  · have hlog' : 52 ≤ m.log2 := (Nat.le_log2 hm.ne').2 hfull
    have hdigits : m.log2 + (e + 1074).toNat - 52 = (e + 1074).toNat := by omega
    rw [hdigits, roundedQuotient_mul m (Nat.two_pow_pos _)]
  · have hdigits : m.log2 + (-1074 + 1074 : Int).toNat - 52 = 0 := by
      change m.log2 + 0 - 52 = 0
      omega
    rw [hdigits, Nat.pow_zero, roundedQuotient_one]
    change 0 * 2 ^ 52 + m * 1 = 0 * 2 ^ 52 + m
    rw [Nat.mul_one]

/-- The digits that are left of a number are at most 53, and no fewer if any were dropped. -/
theorem roundedQuotient_bounds {n : Nat} (h : 52 < n.log2) :
    2 ^ 52 ≤ roundedQuotient n (2 ^ (n.log2 - 52)) ∧
      roundedQuotient n (2 ^ (n.log2 - 52)) ≤ 2 ^ 53 := by
  have hn : n ≠ 0 := by
    rintro rfl
    exact absurd h (by decide)
  -- both bounds are those of `n` itself, divided by the last place
  have hsplit : ∀ j, 2 ^ (j + (n.log2 - 52)) = 2 ^ j * 2 ^ (n.log2 - 52) :=
    fun j => Nat.pow_add 2 j _
  have hlow : 2 ^ 52 * 2 ^ (n.log2 - 52) ≤ n := by
    rw [← hsplit, Nat.add_sub_cancel' (Nat.le_of_lt h)]
    exact Nat.log2_self_le hn
  have hhigh : n < 2 ^ 53 * 2 ^ (n.log2 - 52) := by
    rw [← hsplit, show 53 + (n.log2 - 52) = n.log2 + 1 by omega]
    exact Nat.lt_log2_self
  have hquotient : 2 ^ 52 ≤ n / 2 ^ (n.log2 - 52) :=
    (Nat.le_div_iff_mul_le (Nat.two_pow_pos _)).2 hlow
  have hquotient' : n / 2 ^ (n.log2 - 52) < 2 ^ 53 :=
    (Nat.div_lt_iff_lt_mul (Nat.two_pow_pos _)).2 hhigh
  have hle := div_le_roundedQuotient n (2 ^ (n.log2 - 52))
  have hle' := roundedQuotient_le n (2 ^ (n.log2 - 52))
  omega

/-- **Rounding keeps the order.** -/
theorem roundedPlace_mono {a b : Nat} (h : a ≤ b) : roundedPlace a ≤ roundedPlace b := by
  by_cases ha : a = 0
  · subst ha
    exact Nat.zero_le _
  have hb : b ≠ 0 := by omega
  have hlog : a.log2 ≤ b.log2 := (Nat.le_log2 hb).2 (Nat.le_trans (Nat.log2_self_le ha) h)
  unfold roundedPlace
  rcases Nat.lt_or_eq_of_le (Nat.sub_le_sub_right hlog 52) with hlt | heq
  · -- the digits of `a` reach at most the next exponent, which those of `b` exceed
    have hupper : roundedQuotient a (2 ^ (a.log2 - 52)) ≤ 2 ^ 53 := by
      by_cases hdigits : 52 < a.log2
      · exact (roundedQuotient_bounds hdigits).2
      · have hzero : a.log2 - 52 = 0 := by omega
        rw [hzero, Nat.pow_zero, roundedQuotient_one]
        have := (Nat.log2_lt ha).1 (show a.log2 < 53 by omega)
        omega
    have hlower := (roundedQuotient_bounds (n := b) (by omega)).1
    have hstep : (a.log2 - 52 + 1) * 2 ^ 52 ≤ (b.log2 - 52) * 2 ^ 52 := Nat.mul_le_mul_right _ hlt
    omega
  -- at the same exponent the mantissas are compared
  · rw [heq]
    exact Nat.add_le_add_left (roundedQuotient_mono h) _

/-! ### Rounding by shifting -/

/-- What has been shifted out is kept in two bits: the last digit, and whether there are others. -/
theorem shiftRight_succ (m k : Nat) :
    (⟨m, false, false⟩ : ExtendedMantissa) >>> (k + 1) =
      ⟨m / 2 ^ (k + 1), m / 2 ^ k % 2 != 0, m % 2 ^ k != 0⟩ := by
  -- the sticky bit gathers one more digit in each step
  induction k with
  | zero =>
    change ExtendedMantissa.mk (m / 2) (m % 2 != 0) false = _
    rw [Nat.pow_zero, Nat.div_one, Nat.mod_one, Nat.zero_add, Nat.pow_one]
    rfl
  | succ k ih =>
    change ExtendedMantissa.shiftRightOne ((⟨m, false, false⟩ : ExtendedMantissa) >>> (k + 1)) = _
    -- the digits below the last one are zero if and only if all digits shifted out are
    have hsticky : (m / 2 ^ k % 2 != 0 || m % 2 ^ k != 0) = (m % 2 ^ (k + 1) != 0) := by
      rw [Nat.mod_pow_succ, Bool.eq_iff_iff, Bool.or_eq_true, bne_iff_ne, bne_iff_ne, bne_iff_ne]
      have hpos := Nat.two_pow_pos k
      constructor
      · rintro (h | h) hzero
        · have := (Nat.mul_eq_zero.1 (Nat.eq_zero_of_add_eq_zero hzero).2).resolve_left hpos.ne'
          omega
        · exact h (Nat.eq_zero_of_add_eq_zero hzero).1
      · intro h
        by_contra hnone
        rw [not_or, not_not, not_not] at hnone
        rw [hnone.1, hnone.2] at h
        exact h rfl
    rw [ih]
    unfold ExtendedMantissa.shiftRightOne
    dsimp only
    rw [hsticky, Nat.div_div_eq_div_mul, ← Nat.pow_succ]

/-- **Shifting out digits rounds to the nearest number**, and to the even one of two. -/
theorem roundedMantissa_shiftRight (m k : Nat) :
    ((⟨m, false, false⟩ : ExtendedMantissa) >>> k).roundedMantissa = roundedQuotient m (2 ^ k) := by
  cases k with
  | zero =>
    rw [Nat.pow_zero, roundedQuotient_one]
    rfl
  | succ k =>
    have hpos := Nat.two_pow_pos k
    have hlow := Nat.mod_lt m hpos
    -- the remainder is the last digit that goes and, below it, all others
    have hsplit : m % 2 ^ (k + 1) = m % 2 ^ k + 2 ^ k * (m / 2 ^ k % 2) := Nat.mod_pow_succ
    have hwidth : 2 ^ (k + 1) = 2 * 2 ^ k := Nat.pow_succ'
    have hdigit : m / 2 ^ k % 2 = 0 ∨ m / 2 ^ k % 2 = 1 := Nat.mod_two_eq_zero_or_one _
    rw [shiftRight_succ]
    unfold roundedQuotient
    dsimp only
    rw [hsplit, hwidth]
    generalize m / (2 * 2 ^ k) = q
    rcases hdigit with hdigit | hdigit
    · -- the last digit that was shifted out is zero, so the rest is below a half
      rw [hdigit, Nat.mul_zero, Nat.add_zero, if_pos (Or.inl (by omega))]
      by_cases hrest : m % 2 ^ k = 0
      · rw [hrest]; rfl
      · have hset : (m % 2 ^ k != 0) = true := bne_iff_ne.2 hrest
        rw [hset]; rfl
    · -- it is one, so exactly a half was shifted out, or more if there are other digits
      rw [hdigit, Nat.mul_one]
      by_cases hrest : m % 2 ^ k = 0
      · rw [hrest, Nat.zero_add]
        change q + q % 2 = _
        by_cases heven : q % 2 = 0
        · rw [if_pos (Or.inr ⟨rfl, heven⟩), heven, Nat.add_zero]
        · rw [if_neg (by omega)]
          omega
      · have hset : (m % 2 ^ k != 0) = true := bne_iff_ne.2 hrest
        rw [hset, if_neg (by omega)]
        rfl

/-- Rounding takes two shifts: one drops digits, the other takes back a carry. -/
theorem roundWithAccuracy_of_shift {s : Sign} {m m' i : Nat} {e e' : Int} {accuracy : Accuracy}
    {a : ExtendedMantissa} (hshift : shiftToTargetExponent Format.binary64 m e accuracy = (a, e'))
    (hrounded : a.roundedMantissa = m' * 2 ^ i) (hm' : 0 < m') (h : Fits m' (e' + i)) :
    roundWithAccuracy Format.binary64 s m e accuracy = .finite s m' (e' + i) hm' := by
  have hcarry := shiftToTargetExponent_exact hm' h i
  rw [Int.add_sub_cancel] at hcarry
  unfold roundWithAccuracy
  rw [hshift]
  dsimp only
  simp only [hrounded, hcarry]
  exact dif_neg hm'.ne'

theorem roundedQuotient_scale (m d : Nat) {c : Nat} (hc : 0 < c) :
    roundedQuotient (m * c) (d * c) = roundedQuotient m d := by
  have hhalf : 2 * (m % d * c) = 2 * (m % d) * c := (Nat.mul_assoc _ _ _).symm
  unfold roundedQuotient
  dsimp only
  rw [Nat.mul_div_mul_right _ _ hc, Nat.mul_mod_mul_right, hhalf]
  simp only [Nat.mul_lt_mul_right hc, Nat.mul_left_inj hc.ne']

/-- The rounded digits of a number of units, after a carry. -/
theorem exists_fits_rounded {m : Nat} {e : Int} (hm : 0 < m) (hlow : -1074 ≤ e)
    (hdigits : 52 ≤ m.log2 ∨ e = -1074) :
    ∃ m' i : Nat, roundedQuotient m (2 ^ (max ((m.log2 : Int) + e - 52) (-1074) - e).toNat) =
        m' * 2 ^ i ∧ 0 < m' ∧ Fits m' (max ((m.log2 : Int) + e - 52) (-1074) + i) ∧
      roundedPlace (m * 2 ^ (e + 1074).toNat) =
        (max ((m.log2 : Int) + e - 52) (-1074) + i + 1074).toNat * 2 ^ 52 + m' := by
  -- names for the exponents, so that arithmetic sees numbers
  obtain ⟨j, hj⟩ : ∃ j, (e + 1074).toNat = j := ⟨_, rfl⟩
  obtain ⟨t, ht⟩ : ∃ t, max ((m.log2 : Int) + e - 52) (-1074) = t := ⟨_, rfl⟩
  obtain ⟨k, hk⟩ : ∃ k, (t - e).toNat = k := ⟨_, rfl⟩
  have hunits : (m * 2 ^ j).log2 - 52 = k + j := by
    rw [log2_mul_two_pow hm]
    omega
  have hquotient : roundedQuotient (m * 2 ^ j) (2 ^ ((m * 2 ^ j).log2 - 52)) =
      roundedQuotient m (2 ^ k) := by
    rw [hunits, Nat.pow_add]
    exact roundedQuotient_scale m _ (Nat.two_pow_pos j)
  have hplace : roundedPlace (m * 2 ^ j) = (k + j) * 2 ^ 52 + roundedQuotient m (2 ^ k) := by
    unfold roundedPlace
    rw [hquotient, hunits]
  rw [ht, hj, hk, hplace]
  rcases Nat.eq_zero_or_pos (k + j) with hnone | hsome
  · -- a number of up to 53 digits is kept
    have hlog : m.log2 ≤ 52 := by omega
    have hbelow : m < 2 ^ 53 := (Nat.log2_lt hm.ne').1 (Nat.lt_succ_of_le hlog)
    have hzero : k = 0 := by omega
    refine ⟨m, 0, ?_, hm, ⟨hbelow, by omega, Or.inr (by omega)⟩, ?_⟩
    · rw [hzero, Nat.pow_zero, roundedQuotient_one, Nat.mul_one]
    · rw [hzero, Nat.pow_zero, roundedQuotient_one]
      have hexponent : (t + (0 : Nat) + 1074).toNat = 0 + j := by omega
      rw [hexponent]
  · obtain ⟨hfull, hcarry⟩ := roundedQuotient_bounds (n := m * 2 ^ j) (by omega)
    rw [hquotient] at hfull hcarry
    -- rounding up may give 54 digits, all zeros but the first one
    rcases Nat.lt_or_eq_of_le hcarry with hbelow | heq
    · refine ⟨roundedQuotient m (2 ^ k), 0, (Nat.mul_one _).symm, by omega,
        ⟨hbelow, by omega, Or.inl hfull⟩, ?_⟩
      have hexponent : (t + (0 : Nat) + 1074).toNat = k + j := by omega
      rw [hexponent]
    · refine ⟨2 ^ 52, 1, heq, by decide, ⟨by decide, by omega, Or.inl (Nat.le_refl _)⟩, ?_⟩
      have hexponent : (t + (1 : Nat) + 1074).toNat = k + j + 1 := by omega
      rw [hexponent, heq, Nat.succ_mul, Nat.add_assoc]
      rfl

/-- The greatest place, that of the infinity above all numbers. -/
def topPlace : Nat :=
  2047 * 2 ^ 52

theorem place_stored {s : Sign} {m : Nat} {e : Int} (hm : 0 < m) (h : Fits m e) :
    place (stored (.finite s m e hm)) =
      s.apply (min ((e + 1074).toNat * 2 ^ 52 + m) topPlace : Nat) := by
  obtain ⟨hbelow, hlow, hfull⟩ := h
  unfold topPlace
  rcases lt_or_ge 971 e with he | he
  · rw [stored_overflow hm he, Nat.min_eq_right (by omega)]
    rfl
  · rw [stored_finite hm ⟨hbelow, hlow, hfull⟩ he, Nat.min_eq_left (by omega)]
    rfl

/-- **Rounding gives the place of the number of units**, up to the infinities. -/
theorem place_roundWithAccuracy {m : Nat} {e : Int} (hm : 0 < m) (hlow : -1074 ≤ e)
    (hdigits : 52 ≤ m.log2 ∨ e = -1074) (s : Sign) :
    place (stored (roundWithAccuracy Format.binary64 s m e .exact)) =
      s.apply (min (roundedPlace (m * 2 ^ (e + 1074).toNat)) topPlace : Nat) := by
  obtain ⟨m', i, hrounded, hm', hfits, hplace⟩ := exists_fits_rounded hm hlow hdigits
  -- the exponent is that of 53 digits, unless it would fall below the least one
  have htarget : Format.binary64.targetExponent (totalExponent m e) =
      max ((m.log2 : Int) + e - 52) (-1074) := by
    rw [targetExponent_eq]
    unfold totalExponent
    omega
  have hshift : shiftToTargetExponent Format.binary64 m e .exact =
      ((⟨m, false, false⟩ : ExtendedMantissa) >>>
        (max ((m.log2 : Int) + e - 52) (-1074) - e).toNat,
        max ((m.log2 : Int) + e - 52) (-1074)) := by
    unfold shiftToTargetExponent shiftToExponent
    rw [htarget]
    dsimp only
    refine Prod.ext rfl ?_
    dsimp only
    omega
  rw [← roundedMantissa_shiftRight] at hrounded
  rw [roundWithAccuracy_of_shift hshift hrounded hm' hfits, place_stored hm' hfits, hplace]

/-! ### Sums and differences -/

/-- The place that a signed number of units is rounded to. -/
def roundedUnits (n : Int) : Int :=
  if n < 0 then -(min (roundedPlace n.natAbs) topPlace : Nat)
  else (min (roundedPlace n.natAbs) topPlace : Nat)

theorem roundedUnits_mono {a b : Int} (h : a ≤ b) : roundedUnits a ≤ roundedUnits b := by
  have hstep : ∀ {m n : Nat}, m ≤ n →
      min (roundedPlace m) topPlace ≤ min (roundedPlace n) topPlace := fun hle =>
    Nat.le_min.2 ⟨Nat.le_trans (Nat.min_le_left _ _) (roundedPlace_mono hle),
      Nat.min_le_right _ _⟩
  unfold roundedUnits
  by_cases ha : a < 0
  · rw [if_pos ha]
    by_cases hb : b < 0
    · rw [if_pos hb]
      have := hstep (show b.natAbs ≤ a.natAbs by omega)
      omega
    · rw [if_neg hb]
      omega
  · rw [if_neg ha, if_neg (by omega)]
    have := hstep (show a.natAbs ≤ b.natAbs by omega)
    omega

theorem roundedUnits_neg (n : Int) : roundedUnits (-n) = -roundedUnits n := by
  unfold roundedUnits
  rw [Int.natAbs_neg]
  rcases Int.lt_trichotomy n 0 with h | rfl | h
  · rw [if_neg (by omega), if_pos h, Int.neg_neg]
  · rfl
  · rw [if_pos (by omega), if_neg (by omega)]

theorem place_round {m : Nat} {e : Int} (hm : 0 < m) (hlow : -1074 ≤ e) (s : Sign) :
    place (stored (UnpackedFloat.round Format.binary64 s m e)) =
      s.apply (min (roundedPlace (m * 2 ^ (e + 1074).toNat)) topPlace : Nat) := by
  obtain ⟨k, hk⟩ : ∃ k, (e - max ((m.log2 : Int) + 1 + e - 53) (-1074)).toNat = k := ⟨_, rfl⟩
  have hround : UnpackedFloat.round Format.binary64 s m e =
      roundWithAccuracy Format.binary64 s (m * 2 ^ k) (e - k) .exact := by
    rw [← hk, ← Nat.shiftLeft_eq]
    rfl
  have hunits : m * 2 ^ k * 2 ^ (e - k + 1074).toNat = m * 2 ^ (e + 1074).toNat := by
    rw [Nat.mul_assoc, ← Nat.pow_add]
    congr 2
    omega
  rw [hround, place_roundWithAccuracy (Nat.mul_pos hm (Nat.two_pow_pos k)) (by omega), hunits]
  rw [log2_mul_two_pow hm]
  omega

theorem place_normalize (n : Int) {e : Int} (hlow : -1074 ≤ e) (s : Sign) :
    place (stored (UnpackedFloat.normalize Format.binary64 n e s)) =
      roundedUnits (n * 2 ^ (e + 1074).toNat) := by
  have hpow : 0 < (2 : Int) ^ (e + 1074).toNat := by positivity
  have habs : (n * 2 ^ (e + 1074).toNat).natAbs = n.natAbs * 2 ^ (e + 1074).toNat := by
    rw [Int.natAbs_mul, Int.natAbs_pow]
    rfl
  unfold UnpackedFloat.normalize roundedUnits
  rw [habs]
  -- the sign is taken off before rounding, so the three signs are treated apart
  rcases Int.lt_trichotomy n 0 with h | rfl | h
  · rw [Int.compare_eq_lt.2 h, if_pos (Int.mul_neg_of_neg_of_pos h hpow)]
    have hnat : (-n).toNat = n.natAbs := by omega
    dsimp only
    rw [place_round (by omega) hlow, hnat]
    rfl
  · rw [Int.zero_mul, if_neg (Int.lt_irrefl 0), Int.natAbs_zero, Nat.zero_mul]
    change place (stored (.zero s)) = _
    rw [stored_zero]
    rfl
  · rw [Int.compare_eq_gt.2 h, if_neg (Int.not_lt.2 (Int.mul_nonneg h.le hpow.le))]
    have hnat : n.toNat = n.natAbs := by omega
    dsimp only
    rw [place_round (by omega) hlow, hnat]
    rfl

theorem apply_mul (s : Sign) (n k : Int) : s.apply n * k = s.apply (n * k) := by
  cases s with
  | positive => rfl
  | negative => exact Int.neg_mul n k

/-- Digits that are aligned to a lower exponent are as many units as before. -/
theorem units_aligned {s : Sign} {m : Nat} {e t : Int} (hm : 0 < m) (hlow : -1074 ≤ t)
    (ht : t ≤ e) :
    s.apply (m <<< (e - t).toNat : Nat) * 2 ^ (t + 1074).toNat = units (.finite s m e hm) := by
  have hdigits : m * 2 ^ (e - t).toNat * 2 ^ (t + 1074).toNat = m * 2 ^ (e + 1074).toNat := by
    rw [Nat.mul_assoc, ← Nat.pow_add]
    congr 2
    omega
  change _ = s.apply (m * 2 ^ (e + 1074).toNat : Nat)
  rw [apply_mul, ← hdigits, Nat.shiftLeft_eq]
  push_cast
  rfl

/-- The parts of a finite double. -/
inductive Held : UnpackedFloat → Prop
  | zero (s : Sign) : Held (.zero s)
  | finite {s : Sign} {m : Nat} {e : Int} (hm : 0 < m) (hfits : Fits m e) (he : e ≤ 971) :
      Held (.finite s m e hm)

theorem held_parts {x : Float} (hx : isFinite x = true) : Held (parts x) := by
  have hread := reads x
  rw [isFinite_eq] at hx
  generalize parts x = u at hx hread
  cases hread with
  | notANumber | infinity => exact absurd hx Bool.false_ne_true
  | zero => exact .zero _
  | finite hm hfits he => exact .finite hm hfits he

section Sums

variable {u v : UnpackedFloat}

theorem Held.neg (h : Held u) : Held u.neg := by
  cases h with
  | zero => exact .zero _
  | finite hm hfits he => exact .finite hm hfits he

theorem units_neg (u : UnpackedFloat) : units u.neg = -units u := by
  cases u with
  | notANumber | infinity | zero => rfl
  | finite s m e hm =>
    cases s with
    | positive => rfl
    | negative => exact (Int.neg_neg _).symm

theorem Held.stored (h : Held u) : stored u = u := by
  cases h with
  | zero s => exact stored_zero s
  | finite hm hfits he => exact stored_finite hm hfits he

/-- A finite number is rounded to its own place. -/
theorem Held.roundedUnits (h : Held u) : roundedUnits (units u) = place u := by
  cases h with
  | zero => exact (by decide : Binary64.roundedUnits 0 = 0)
  | @finite s m e hm hfits he =>
    have hunits : 0 < m * 2 ^ (e + 1074).toNat := Nat.mul_pos hm (Nat.two_pow_pos _)
    have hpositive : Binary64.roundedUnits (m * 2 ^ (e + 1074).toNat : Nat) =
        ((e + 1074).toNat * 2 ^ 52 + m : Nat) := by
      have hbelow := hfits.below
      unfold Binary64.roundedUnits topPlace
      rw [if_neg (by omega), Int.natAbs_natCast, roundedPlace_exact hm hfits,
        Nat.min_eq_left (by omega)]
    cases s with
    | positive => exact hpositive
    | negative => exact (roundedUnits_neg _).trans (congrArg Neg.neg hpositive)

/-- **A sum is rounded from the sum of the units.** -/
theorem place_add (hu : Held u) (hv : Held v) :
    place (Binary64.stored (UnpackedFloat.add Format.binary64 u v)) =
      Binary64.roundedUnits (units u + units v) := by
  -- zeros add nothing; two other numbers are aligned to the smaller exponent
  cases hu with
  | zero s =>
    cases hv with
    | zero s' => cases s <;> cases s' <;> decide
    | @finite s' m e hm hfits he =>
      have hv := Held.finite (s := s') hm hfits he
      exact (congrArg place hv.stored).trans
        (hv.roundedUnits.symm.trans (congrArg _ (Int.zero_add _).symm))
  | @finite s m e hm hfits he =>
    cases hv with
    | zero =>
      have hu := Held.finite (s := s) hm hfits he
      exact (congrArg place hu.stored).trans
        (hu.roundedUnits.symm.trans (congrArg _ (Int.add_zero _).symm))
    | @finite s' m' e' hm' hfits' he' =>
      have hlow := hfits.low
      have hlow' := hfits'.low
      change place (Binary64.stored
        (UnpackedFloat.normalize Format.binary64 (_ + _) (min e e') .positive)) = _
      rw [place_normalize _ (by omega), Int.add_mul]
      exact congrArg _ (congrArg₂ _ (units_aligned hm (by omega) (by omega))
        (units_aligned hm' (by omega) (by omega)))

theorem apply_neg (s : Sign) (n : Int) : (-s).apply n = -s.apply n := by
  cases s with
  | positive => rfl
  | negative => exact (Int.neg_neg n).symm

/-- Subtracting is adding the opposite. -/
theorem sub_eq_add_neg_parts (hu : Held u) (hv : Held v) :
    UnpackedFloat.sub Format.binary64 u v = UnpackedFloat.add Format.binary64 u v.neg := by
  cases hu with
  | zero s =>
    cases hv with
    | zero s' => cases s <;> cases s' <;> rfl
    | finite => rfl
  | finite =>
    cases hv with
    | zero => rfl
    | finite =>
      change UnpackedFloat.normalize Format.binary64 (_ - _) _ .positive =
        UnpackedFloat.normalize Format.binary64 (_ + (-_ : Sign).apply _) _ .positive
      rw [apply_neg, ← Int.sub_eq_add_neg]

variable {x y : Float}

theorem rank_eq_roundedUnits (hx : isFinite x = true) :
    rank x = Binary64.roundedUnits (units (parts x)) := by
  rw [rank_eq_place (isNaN_of_isFinite hx), (held_parts hx).roundedUnits]

theorem rank_add (hx : isFinite x = true) (hy : isFinite y = true) :
    rank (x + y) = Binary64.roundedUnits (units (parts x) + units (parts y)) := by
  rw [rank_eq_place (isNaN_add hx (isNaN_of_isFinite hy)).1]
  exact place_add (held_parts hx) (held_parts hy)

theorem isNaN_sub (hx : isFinite x = true) (hy : isFinite y = true) : isNaN (x - y) = false := by
  rw [isFinite_eq] at hx hy
  rw [isNaN_eq]
  exact (isNaN_stored _).trans (isNaN_of_isFinite_parts (isFinite_sub_parts.2 ⟨hx, hy⟩))

/-- **A difference is rounded from the difference of the units.** -/
theorem rank_sub (hx : isFinite x = true) (hy : isFinite y = true) :
    rank (x - y) = Binary64.roundedUnits (units (parts x) - units (parts y)) := by
  have hsub := sub_eq_add_neg_parts (held_parts hx) (held_parts hy)
  rw [rank_eq_place (isNaN_sub hx hy), Int.sub_eq_add_neg, ← units_neg,
    ← place_add (held_parts hx) (held_parts hy).neg, ← hsub]
  rfl

end Sums

/-! ### Orders of places and of units -/

theorem natAbs_roundedUnits (n : Int) :
    (roundedUnits n).natAbs = min (roundedPlace n.natAbs) topPlace := by
  unfold roundedUnits
  split
  · exact (Int.natAbs_neg _).trans (Int.natAbs_natCast _)
  · exact Int.natAbs_natCast _

/-- Where a number is among all doubles says whether it is finite. -/
theorem isFinite_iff_rank (x : Float) : isFinite x = true ↔ (rank x).natAbs < topPlace := by
  rw [← magnitude_eq_natAbs]
  unfold isFinite topPlace
  rw [exponentField_eq_div, decide_eq_true_eq, Nat.div_lt_iff_lt_mul (Nat.two_pow_pos 52)]

theorem natAbs_units {s : Sign} {m : Nat} {e : Int} (hm : 0 < m) :
    (units (.finite s m e hm)).natAbs = m * 2 ^ (e + 1074).toNat := by
  cases s with
  | positive => exact Int.natAbs_natCast _
  | negative => exact (Int.natAbs_neg _).trans (Int.natAbs_natCast _)

/-- Two finite numbers of one place are one number. -/
theorem units_of_place {u v : UnpackedFloat} (hu : Held u) (hv : Held v) (h : place u = place v) :
    units u = units v := by
  -- zero has a place of its own, and a number elsewhere is not there
  cases hu with
  | zero =>
    cases hv with
    | zero => rfl
    | @finite s m e hm =>
      change 0 = s.apply ((e + 1074).toNat * 2 ^ 52 + m : Nat) at h
      cases s with
      | positive => exact absurd h.symm (Int.natCast_ne_zero.2 (by omega))
      | negative => exact absurd h.symm (Int.neg_ne_zero.2 (Int.natCast_ne_zero.2 (by omega)))
  | @finite s m e hm hfits =>
    obtain ⟨hbelow, hlow, hfull⟩ := hfits
    cases hv with
    | zero =>
      change s.apply ((e + 1074).toNat * 2 ^ 52 + m : Nat) = 0 at h
      cases s with
      | positive => exact absurd h (Int.natCast_ne_zero.2 (by omega))
      | negative => exact absurd h (Int.neg_ne_zero.2 (Int.natCast_ne_zero.2 (by omega)))
    | @finite s' m' e' hm' hfits' =>
      obtain ⟨hbelow', hlow', hfull'⟩ := hfits'
      change s.apply ((e + 1074).toNat * 2 ^ 52 + m : Nat) =
        s'.apply ((e' + 1074).toNat * 2 ^ 52 + m' : Nat) at h
      -- the places of positive and negative numbers have different signs
      have hsign : s = s' ∧ (e + 1074).toNat * 2 ^ 52 + m = (e' + 1074).toNat * 2 ^ 52 + m' := by
        cases s <;> cases s' <;> dsimp only [Sign.apply] at h
        case positive.positive => exact ⟨rfl, Int.natCast_inj.1 h⟩
        case negative.negative => exact ⟨rfl, Int.natCast_inj.1 (Int.neg_inj.1 h)⟩
        all_goals omega
      obtain ⟨rfl, hplace⟩ := hsign
      -- mantissas of 53 digits keep the places of different exponents apart
      obtain ⟨j, hj⟩ : ∃ j, (e + 1074).toNat = j := ⟨_, rfl⟩
      obtain ⟨j', hj'⟩ : ∃ j, (e' + 1074).toNat = j := ⟨_, rfl⟩
      rw [hj, hj'] at hplace
      have hexponent : j = j' := by omega
      subst hexponent
      have hmantissa : m = m' := by omega
      subst hmantissa
      change s.apply (m * 2 ^ (e + 1074).toNat : Nat) = s.apply (m * 2 ^ (e' + 1074).toNat : Nat)
      rw [hj, hj']

/-- The order of places is that of units. -/
theorem units_le_of_place_le {u v : UnpackedFloat} (hu : Held u) (hv : Held v)
    (h : place u ≤ place v) : units u ≤ units v := by
  by_contra hlt
  have hle : place v ≤ place u := by
    rw [← hu.roundedUnits, ← hv.roundedUnits]
    exact roundedUnits_mono (Int.le_of_lt (Int.not_le.1 hlt))
  exact hlt (Int.le_of_eq (units_of_place hu hv (Int.le_antisymm h hle)))

/-- The exponent of the greatest finite number, in units. -/
def topExponent : Nat :=
  2045

/-- The greatest finite number, in units. -/
def greatestUnits : Nat :=
  (2 ^ 53 - 1) * 2 ^ topExponent

/-- The exponent of one half, in units. -/
def halfExponent : Nat :=
  1073

/-- One half, in units. -/
def halfUnits : Nat :=
  2 ^ halfExponent

theorem Held.natAbs_units_le {u : UnpackedFloat} (h : Held u) :
    (units u).natAbs ≤ greatestUnits := by
  cases h with
  | zero => exact Nat.zero_le _
  | @finite s m e hm hfits he =>
    have hbelow := hfits.below
    have hmantissa : m ≤ 2 ^ 53 - 1 := by omega
    have hexponent : (e + 1074).toNat ≤ topExponent := by
      unfold topExponent
      omega
    rw [natAbs_units hm]
    unfold greatestUnits
    exact Nat.mul_le_mul hmantissa (Nat.pow_le_pow_right (by decide) hexponent)

/-- Less than half of the last digit is dropped. -/
theorem roundedPlace_add {m k r : Nat} (hfull : 2 ^ 52 ≤ m) (hbelow : m < 2 ^ 53)
    (hr : 2 * r < 2 ^ k) : roundedPlace (m * 2 ^ k + r) = k * 2 ^ 52 + m := by
  have hlog : (m * 2 ^ k + r).log2 = 52 + k := by
    have hpos := Nat.mul_pos (show 0 < m by omega) (Nat.two_pow_pos k)
    refine (Nat.log2_eq_iff (by omega)).2 ⟨?_, ?_⟩
    · rw [Nat.pow_add]
      exact Nat.le_add_right_of_le (Nat.mul_le_mul_right _ hfull)
    · have hcarry : (m + 1) * 2 ^ k ≤ 2 ^ 53 * 2 ^ k := Nat.mul_le_mul_right _ hbelow
      rw [Nat.succ_mul] at hcarry
      rw [Nat.add_right_comm, Nat.pow_add]
      omega
  have hquotient : roundedQuotient (m * 2 ^ k + r) (2 ^ k) = m := by
    have hlt : r < 2 ^ k := by omega
    unfold roundedQuotient
    rw [Nat.mul_comm m, Nat.mul_add_div (Nat.two_pow_pos k), Nat.div_eq_of_lt hlt, Nat.add_zero,
      Nat.mul_add_mod, Nat.mod_eq_of_lt hlt]
    exact if_pos (Or.inl hr)
  unfold roundedPlace
  rw [hlog, Nat.add_sub_cancel_left, hquotient]

/-- A number that exceeds the greatest finite one by a half at most is rounded to a finite one. -/
theorem natAbs_roundedUnits_lt {n : Int} (h : n.natAbs ≤ greatestUnits + halfUnits) :
    (roundedUnits n).natAbs < topPlace := by
  have hsmall : 2 * halfUnits < 2 ^ topExponent := by
    unfold halfUnits
    rw [← Nat.pow_succ']
    exact Nat.pow_lt_pow_right (by decide) (by decide)
  have hplace : roundedPlace (greatestUnits + halfUnits) = topExponent * 2 ^ 52 + (2 ^ 53 - 1) := by
    unfold greatestUnits
    exact roundedPlace_add (by decide) (by decide) hsmall
  have htop : topExponent * 2 ^ 52 + (2 ^ 53 - 1) < topPlace := by decide
  have hmono := roundedPlace_mono h
  rw [hplace] at hmono
  rw [natAbs_roundedUnits]
  exact Nat.lt_of_le_of_lt (Nat.min_le_left _ _) (Nat.lt_of_le_of_lt hmono htop)

/-! ### Infinities -/

section Infinite

variable {x y : Float} {s : Sign} {n : Nat}

theorem parts_of_infinite (hx : isNaN x = false) (h : isFinite x = false) :
    parts x = .infinity (sign x) := by
  have hread := reads x
  rw [isNaN_eq] at hx
  rw [isFinite_eq] at h
  generalize parts x = u at hx h hread
  cases hread with
  | notANumber => exact absurd hx.symm Bool.false_ne_true
  | infinity => rfl
  | zero | finite => exact absurd h.symm Bool.false_ne_true

theorem rank_infinity (h : parts x = .infinity s) : rank x = s.apply topPlace := by
  have hnumber : isNaN x = false := by rw [isNaN_eq, h]; rfl
  rw [rank_eq_place hnumber, h]
  rfl

theorem infinity_div_ofNat (hx : parts x = .infinity s) (hn : 0 < n) (h : n < 2 ^ 53) :
    parts (x / Float.ofNat n) = .infinity s := by
  have hsign : s / .positive = s := by cases s <;> rfl
  change stored (UnpackedFloat.div Format.binary64 (parts x) (parts (Float.ofNat n))) = _
  rw [hx, parts_ofNat hn h]
  change stored (.infinity (s / .positive)) = _
  rw [hsign, stored_infinity]

theorem ofNat_mul_infinity (hx : parts x = .infinity s) (hn : 0 < n) (h : n < 2 ^ 53) :
    parts (Float.ofNat n * x) = .infinity s := by
  have hsign : .positive * s = s := by cases s <;> rfl
  change stored (UnpackedFloat.mul Format.binary64 (parts (Float.ofNat n)) (parts x)) = _
  rw [hx, parts_ofNat hn h]
  change stored (.infinity (.positive * s)) = _
  rw [hsign, stored_infinity]

theorem parts_zero : parts (Float.ofNat 0) = .zero .positive := by rfl

theorem isNaN_zero_mul_infinity (hx : parts x = .infinity s) :
    isNaN (Float.ofNat 0 * x) = true := by
  rw [isNaN_eq]
  refine (isNaN_stored _).trans ?_
  change (UnpackedFloat.mul Format.binary64 (parts (Float.ofNat 0)) (parts x)).isNaN = true
  rw [hx, parts_zero]
  rfl

theorem infinity_add (hx : parts x = .infinity s) (hy : isFinite y = true) :
    parts (x + y) = .infinity s := by
  change stored (UnpackedFloat.add Format.binary64 (parts x) (parts y)) = _
  rw [isFinite_eq] at hy
  rw [hx]
  generalize parts y = v at hy
  cases v with
  | notANumber | infinity => exact absurd hy Bool.false_ne_true
  | zero | finite => exact stored_infinity s

theorem isNaN_add_of_left (hx : isNaN x = true) : isNaN (x + y) = true := by
  rw [isNaN_eq] at hx ⊢
  refine (isNaN_stored _).trans ?_
  change (UnpackedFloat.add Format.binary64 (parts x) (parts y)).isNaN = true
  generalize parts x = u at hx
  cases u with
  | notANumber => rfl
  | infinity | zero | finite => exact absurd hx Bool.false_ne_true

end Infinite

/-! ### Zero -/

section Zero

variable {x y z : Float} {s : Sign}

/-- A zero times a finite number adds nothing. -/
theorem rank_zero_mul_add (hz : parts z = .zero s) (hx : isFinite x = true)
    (hy : isFinite y = true) : rank (z * x + y) = rank y := by
  have hproduct : ∃ s', parts (z * x) = .zero s' := by
    change ∃ s', stored (UnpackedFloat.mul Format.binary64 (parts z) (parts x)) = .zero s'
    rw [isFinite_eq] at hx
    rw [hz]
    generalize parts x = u at hx
    cases u with
    | notANumber | infinity => exact absurd hx Bool.false_ne_true
    | zero | finite => exact ⟨_, stored_zero _⟩
  obtain ⟨s', hs'⟩ := hproduct
  have hfinite : isFinite (z * x) = true := by rw [isFinite_eq, hs']; rfl
  rw [rank_add hfinite hy, hs', rank_eq_roundedUnits hy]
  exact congrArg roundedUnits (Int.zero_add _)

theorem zero_div_ofNat {n : Nat} (hn : 0 < n) (h : n < 2 ^ 53) :
    parts (Float.ofNat 0 / Float.ofNat n) = .zero .positive := by
  change stored (UnpackedFloat.div Format.binary64 (parts (Float.ofNat 0))
    (parts (Float.ofNat n))) = _
  rw [parts_zero, parts_ofNat hn h]
  exact stored_zero _

theorem isFinite_ofNat {n : Nat} (h : n < 2 ^ 53) : isFinite (Float.ofNat n) = true := by
  rw [isFinite_eq]
  rcases Nat.eq_zero_or_pos n with rfl | hn
  · rw [parts_zero]
    rfl
  · rw [parts_ofNat hn h]
    rfl

end Zero

end Binary64

end PlotGrammar
