import PlotGrammar.Proofs.Number.Rank
import PlotGrammar.Proofs.Number.Word

/-!
# Doubles and their parts

The operations on doubles read off a sign, a mantissa and an exponent, compute with these, and store
what comes out. `Binary64.parts` are the parts of a double, `Binary64.stored` are the parts that are
left of a result when it has been stored.

* `Binary64.reads` says what the parts tell about the bits: whether the double is a number, whether
  it is finite, and where it stands among all doubles.
* A mantissa and an exponent that fit (`Binary64.Fits`) are stored as they are. Storing may lose a
  finite result to an infinity; it never makes a non-number of a number (`Binary64.isNaN_stored`).
* So an operation on finite numbers gives a number, unless it divides by zero. Conversely a finite
  difference has two finite sides, and a finite quotient by a finite number a finite numerator.
-/

namespace PlotGrammar

open Float.Model Float.Model.UnpackedFloat

namespace Binary64

/-! ### The parts of a double -/

/-- The sign, mantissa and exponent of a double. -/
def parts (x : Float) : UnpackedFloat :=
  x.toModel.unpack

/-- The parts that are left of a result when it is stored. -/
def stored (u : UnpackedFloat) : UnpackedFloat :=
  unpack Format.binary64 (UnpackedFloat.pack Format.binary64 u)

/-- The sign of a double. -/
def sign (x : Float) : Sign :=
  if isNegative x then .negative else .positive

/-- A mantissa and an exponent that a double can have: 53 digits, all of them taken unless the
exponent is the least one. -/
structure Fits (m : Nat) (e : Int) : Prop where
  below : m < 2 ^ 53
  low : -1074 ≤ e
  full : 2 ^ 52 ≤ m ∨ e = -1074

theorem fractionField_eq (x : Float) :
    fractionField x = (@unpackMantissa Format.binary64 x.toBits.toBitVec).toNat := by
  unfold fractionField unpackMantissa
  rw [BitVec.toNat_cast, BitVec.extractLsb_toNat, UInt64.toNat_and]
  exact Nat.and_two_pow_sub_one_eq_mod _ 52

theorem sign_eq (x : Float) :
    Sign.ofBitVec (@unpackSign Format.binary64 x.toBits.toBitVec) = sign x := by
  -- both read the bit in the first place, as a vector of one bit or as a word
  have hbit : (@unpackSign Format.binary64 x.toBits.toBitVec).toNat = (x.toBits >>> 63).toNat := by
    unfold unpackSign
    rw [BitVec.toNat_cast, BitVec.extractLsb_toNat, UInt64.toNat_shiftRight]
    change x.toBits.toNat >>> 63 % 2 ^ 1 = x.toBits.toNat >>> 63
    have hlt := x.toBits.toNat_lt
    rw [Nat.shiftRight_eq_div_pow]
    omega
  have hclear : @unpackSign Format.binary64 x.toBits.toBitVec = 0#1 ↔ isNegative x = false := by
    unfold isNegative
    rw [beq_eq_false_iff_ne, ne_eq, ← UInt64.toNat_inj, ← hbit, ← BitVec.toNat_inj]
    have hlt := (@unpackSign Format.binary64 x.toBits.toBitVec).isLt
    change (@unpackSign Format.binary64 x.toBits.toBitVec).toNat = 0 ↔
      ¬ (@unpackSign Format.binary64 x.toBits.toBitVec).toNat = 1
    omega
  unfold Sign.ofBitVec sign
  by_cases hzero : @unpackSign Format.binary64 x.toBits.toBitVec = 0#1
  · rw [if_pos hzero, hclear.1 hzero]
    rfl
  · have hset : isNegative x = true := by
      cases hsign : isNegative x with
      | true => rfl
      | false => exact absurd (hclear.2 hsign) hzero
    rw [if_neg hzero, hset]
    rfl

theorem one_append (v : BitVec 52) : (1#1 ++ v).toNat = 2 ^ 52 + v.toNat := by
  rw [BitVec.toNat_append, ← Nat.shiftLeft_add_eq_or_of_lt v.isLt, Nat.shiftLeft_eq]
  rfl

/-- What the parts of a double say about its bits. -/
inductive Reads (x : Float) : UnpackedFloat → Prop
  | notANumber (h : isNaN x = true) : Reads x .notANumber
  | infinity (h : magnitude x = 2047 * 2 ^ 52) : Reads x (.infinity (sign x))
  | zero (h : magnitude x = 0) : Reads x (.zero (sign x))
  | finite {m : Nat} {e : Int} (hm : 0 < m) (hfits : Fits m e) (he : e ≤ 971)
      (h : magnitude x = (e + 1074).toNat * 2 ^ 52 + m) : Reads x (.finite (sign x) m e hm)

theorem magnitude_eq_fields (x : Float) :
    magnitude x = exponentField x * 2 ^ 52 + fractionField x := by
  rw [magnitude_eq_mod, exponentField_eq_mod, fractionField_eq_mod]
  omega

theorem reads (x : Float) : Reads x (parts x) := by
  have hmagnitude := magnitude_eq_fields x
  have hlt : fractionField x < 2 ^ 52 :=
    fractionField_eq x ▸ (@unpackMantissa Format.binary64 _).isLt
  have hlt' : exponentField x < 2 ^ 11 :=
    exponentField_eq x ▸ (@unpackExponent Format.binary64 _).isLt
  have hbias : ((Format.binary64.exponentBias : Nat) : Int) = 1023 := rfl
  change Reads x (UnpackedFloat.unpack Format.binary64 x.toBits.toBitVec)
  unfold UnpackedFloat.unpack
  dsimp only
  rw [sign_eq, hbias]
  -- the exponent field is all ones, all zeros, or neither
  split
  · next hones =>
    have hall : exponentField x = 2047 := by
      rw [exponentField_eq, hones]
      rfl
    split
    · next hzero =>
      have hfraction : fractionField x = 0 := by
        rw [fractionField_eq, hzero]
        rfl
      exact .infinity (by omega)
    · next hsome =>
      have hfraction : fractionField x ≠ 0 := by
        rw [fractionField_eq]
        exact fun h => hsome (BitVec.eq_of_toNat_eq h)
      refine .notANumber ?_
      unfold isNaN
      simp [hall, hfraction]
  -- with an exponent that is not all ones the number is finite
  · next hones =>
    have hfinite : exponentField x ≠ 2047 := by
      rw [exponentField_eq]
      exact fun h => hones (BitVec.eq_of_toNat_eq h)
    split
    · next hzeros =>
      have hnone : exponentField x = 0 := by
        rw [exponentField_eq, hzeros]
        rfl
      split
      · next hzero =>
        have hfraction : fractionField x = 0 := by
          rw [fractionField_eq, hzero]
          rfl
        exact .zero (by omega)
      · simp only [← fractionField_eq, ← exponentField_eq, hnone]
        refine .finite _ ⟨Nat.lt_trans hlt (by decide), by decide, Or.inr rfl⟩ (by decide) ?_
        rw [hmagnitude, hnone]
        rfl
    -- a normal number has its first digit put back
    · next hzeros =>
      have hsome : exponentField x ≠ 0 := by
        rw [exponentField_eq]
        exact fun h => hzeros (BitVec.eq_of_toNat_eq h)
      have hmantissa := one_append (@unpackMantissa Format.binary64 x.toBits.toBitVec)
      rw [← fractionField_eq] at hmantissa
      simp only [hmantissa, ← exponentField_eq]
      refine .finite _ ⟨by omega, by omega, Or.inl (by omega)⟩ (by omega) ?_
      have hfield : ((exponentField x : Int) - (1023 + (52 : Nat)) + 1074).toNat + 1 =
          exponentField x := by omega
      rw [hmagnitude, ← Nat.add_assoc, ← Nat.succ_mul, Nat.succ_eq_add_one, hfield]

/-! ### Numbers and finite numbers -/

theorem exponentField_eq_div (x : Float) : exponentField x = magnitude x / 2 ^ 52 := by
  rw [magnitude_eq_mod, exponentField_eq_mod]
  omega

theorem isFinite_eq (x : Float) : isFinite x = (parts x).isFinite := by
  have hfield := exponentField_eq_div x
  have hread := reads x
  generalize parts x = u at hread
  unfold isFinite
  -- a number is finite exactly if its exponent is not all ones
  cases hread with
  | notANumber h =>
    unfold isNaN at h
    rw [Bool.and_eq_true, beq_iff_eq] at h
    exact decide_eq_false (by omega)
  | infinity h => exact decide_eq_false (by omega)
  | zero h => exact decide_eq_true (by omega)
  | finite hm hfits he h =>
    have hbelow := hfits.below
    exact decide_eq_true (by omega)

theorem isNaN_eq (x : Float) : isNaN x = (parts x).isNaN := by
  have hmagnitude := magnitude_eq_fields x
  have hfinite := isFinite_eq x
  have hread := reads x
  generalize parts x = u at hread hfinite
  cases hread with
  | notANumber h => exact h
  -- an infinity differs from what is no number by its fraction alone
  | infinity h =>
    have hfield := exponentField_eq_div x
    have hfraction : fractionField x = 0 := by omega
    unfold isNaN
    rw [hfraction]
    exact Bool.and_false _
  | zero | finite => exact isNaN_of_isFinite hfinite

theorem sign_unpack (s : Sign) (ev : BitVec 11) (mv : BitVec 52) :
    Sign.ofBitVec (unpackSign (packComponents Format.binary64 s ev mv)) = s := by
  simp only [unpackSign, packComponents, BitVec.extractLsb]
  rw [BitVec.extractLsb'_append_eq_of_le (by omega), BitVec.extractLsb'_append_eq_of_le (by omega)]
  cases s <;> rfl

theorem unpack_components (s : Sign) (ev : BitVec 11) (mv : BitVec 52) :
    unpack Format.binary64 (packComponents Format.binary64 s ev mv) =
      if ev = -1#11 then if mv = 0#52 then .infinity s else .notANumber
      else if ev = 0#11 then
        if h : mv = 0#52 then .zero s
        else .finite s mv.toNat (-1074) (Nat.pos_of_ne_zero fun h0 => h (BitVec.eq_of_toNat_eq h0))
      else .finite s (2 ^ 52 + mv.toNat) (ev.toNat - 1075) (Nat.add_pos_left (by decide) _) := by
  unfold UnpackedFloat.unpack
  simp only [unpackMantissa_packComponents, unpackExponent_packComponents, sign_unpack]
  -- an exponent of all ones, of all zeros, and any other
  by_cases hones : ev = -1#11
  · rw [if_pos hones, if_pos hones]
  · rw [if_neg hones, if_neg hones]
    by_cases hzeros : ev = 0#11
    · subst hzeros
      rfl
    · rw [if_neg hzeros, if_neg hzeros]
      simp only [one_append]
      rfl

/-- The field of an exponent that is neither the least nor beyond the greatest. -/
theorem toNat_field {e : Int} (hlow : -1074 ≤ e) (hhigh : e ≤ 971) :
    (BitVec.ofNat 11 (e + 1075).toNat).toNat = (e + 1075).toNat := by
  rw [BitVec.toNat_ofNat]
  omega

/-- What fits is stored as it is. -/
theorem stored_finite {s : Sign} {m : Nat} {e : Int} (hm : 0 < m) (h : Fits m e) (he : e ≤ 971) :
    stored (.finite s m e hm) = .finite s m e hm := by
  obtain ⟨hbelow, hlow, hfull⟩ := h
  have hbias : ((Format.binary64.exponentBias : Nat) : Int) = 1023 := rfl
  have hfrac : ((Format.binary64.mantissaBitsWithoutImplicit : Nat) : Int) = 52 := rfl
  have hbits : Format.binary64.mantissaBits = 53 := rfl
  have hall : (2 : Nat) ^ Format.binary64.exponentBits = 2048 := rfl
  have hbiased : e + 1023 + 52 = e + 1075 := by omega
  unfold stored UnpackedFloat.pack
  dsimp only
  -- one case for each side of the least normal number, since only there the first digit is dropped
  rw [hbias, hfrac, hbits, hall, hbiased, if_neg (by omega)]
  by_cases hnormal : 2 ^ 52 ≤ m
  · -- the first digit is not stored; the exponent field is neither all zeros nor all ones
    have hlog : m.log2 = 52 := (Nat.log2_eq_iff (by omega)).2 ⟨hnormal, hbelow⟩
    have hfield := toNat_field hlow he
    have hones : BitVec.ofNat 11 (e + 1075).toNat ≠ -1#11 := by
      intro h
      have h := congrArg BitVec.toNat h
      change _ = 2047 at h
      omega
    have hzeros : BitVec.ofNat 11 (e + 1075).toNat ≠ 0#11 := by
      intro h
      have h := congrArg BitVec.toNat h
      change _ = 0 at h
      omega
    have hmantissa : 2 ^ 52 + (BitVec.ofNat 52 m).toNat = m := by
      rw [BitVec.toNat_ofNat]
      omega
    have hexponent : ((BitVec.ofNat 11 (e + 1075).toNat).toNat : Int) - 1075 = e := by omega
    rw [if_pos (by omega)]
    refine (unpack_components s _ _).trans ?_
    rw [if_neg hones, if_neg hzeros]
    simp only [hmantissa, hexponent]
  · -- a number below the least exponent has all its digits stored
    obtain rfl : e = -1074 := hfull.resolve_left hnormal
    have hlog : m.log2 < 52 := (Nat.log2_lt (by omega)).2 (by omega)
    have hmantissa : (BitVec.ofNat 52 m).toNat = m := by
      rw [BitVec.toNat_ofNat]
      omega
    have hsome : BitVec.ofNat 52 m ≠ 0#52 := by
      intro h
      have h := congrArg BitVec.toNat h
      change _ = 0 at h
      omega
    rw [if_neg (by omega)]
    refine (unpack_components s _ _).trans ?_
    rw [if_neg (by decide), if_pos rfl, dif_neg hsome]
    simp only [hmantissa]

theorem stored_infinity (s : Sign) : stored (.infinity s) = .infinity s := by
  cases s <;> rfl

theorem stored_zero (s : Sign) : stored (.zero s) = .zero s := by
  cases s <;> rfl

/-- A finite result that is not too large stays finite. -/
theorem isFinite_stored {s : Sign} {m : Nat} {e : Int} (hm : 0 < m) (he : e ≤ 971) :
    (stored (.finite s m e hm)).isFinite = true := by
  have hbias : ((Format.binary64.exponentBias : Nat) : Int) = 1023 := rfl
  have hfrac : ((Format.binary64.mantissaBitsWithoutImplicit : Nat) : Int) = 52 := rfl
  have hall : (2 : Nat) ^ Format.binary64.exponentBits = 2048 := rfl
  unfold stored UnpackedFloat.pack
  dsimp only
  rw [hbias, hfrac, hall, if_neg (by omega)]
  split
  -- an exponent that is not too large does not fill the field with ones
  · have hones : BitVec.ofNat 11 (e + 1023 + 52).toNat ≠ -1#11 := by
      intro h
      have h := congrArg BitVec.toNat h
      rw [BitVec.toNat_ofNat] at h
      change _ = 2047 at h
      omega
    refine (congrArg UnpackedFloat.isFinite (unpack_components s _ _)).trans ?_
    rw [if_neg hones]
    split
    · split <;> rfl
    · rfl
  · refine (congrArg UnpackedFloat.isFinite (unpack_components s _ _)).trans ?_
    rw [if_neg (by decide), if_pos rfl]
    split <;> rfl

theorem stored_overflow {s : Sign} {m : Nat} {e : Int} (hm : 0 < m) (he : 971 < e) :
    stored (.finite s m e hm) = .infinity s := by
  have hbias : ((Format.binary64.exponentBias : Nat) : Int) = 1023 := rfl
  have hfrac : ((Format.binary64.mantissaBitsWithoutImplicit : Nat) : Int) = 52 := rfl
  have hall : (2 : Nat) ^ Format.binary64.exponentBits = 2048 := rfl
  unfold stored UnpackedFloat.pack
  dsimp only
  rw [hbias, hfrac, hall, if_pos (by omega)]
  exact stored_infinity s

theorem isNaN_of_isFinite_parts {u : UnpackedFloat} (h : u.isFinite = true) : u.isNaN = false := by
  cases u with
  | notANumber | infinity => exact absurd h Bool.false_ne_true
  | zero | finite => rfl

/-- Storing a finite result may lose it to an infinity, but it does not make it a non-number. -/
theorem isNaN_stored (u : UnpackedFloat) : (stored u).isNaN = u.isNaN := by
  cases u with
  | notANumber => rfl
  | infinity s => rw [stored_infinity]
  | zero s => rw [stored_zero]
  | finite s m e hm =>
    rcases lt_or_ge 971 e with he | he
    · rw [stored_overflow hm he]
      rfl
    · exact isNaN_of_isFinite_parts (isFinite_stored hm he)

theorem isFinite_of_stored {u : UnpackedFloat} (h : (stored u).isFinite = true) :
    u.isFinite = true := by
  cases u with
  | notANumber => exact h
  | infinity s => rwa [stored_infinity] at h
  | zero | finite => rfl

/-! ### The four operations -/

theorem isFinite_roundWithAccuracy (s : Sign) (m : Nat) (e : Int) (accuracy : Accuracy) :
    (roundWithAccuracy Format.binary64 s m e accuracy).isFinite = true := by
  unfold roundWithAccuracy
  dsimp only
  split <;> rfl

theorem isFinite_normalize (m e : Int) (s : Sign) :
    (UnpackedFloat.normalize Format.binary64 m e s).isFinite = true := by
  unfold UnpackedFloat.normalize UnpackedFloat.round
  split
  · exact isFinite_roundWithAccuracy _ _ _ _
  · rfl
  · exact isFinite_roundWithAccuracy _ _ _ _

section Parts

variable {u v : UnpackedFloat}

/-- Only infinities have no sum. -/
theorem isNaN_add_parts (hu : u.isFinite = true) (hv : v.isNaN = false) :
    (UnpackedFloat.add Format.binary64 u v).isNaN = false ∧
      (UnpackedFloat.add Format.binary64 v u).isNaN = false := by
  -- only an infinity against the opposite infinity adds up to no number
  cases u with
  | notANumber | infinity => exact absurd hu Bool.false_ne_true
  | zero s =>
    cases v with
    | notANumber => exact absurd hv.symm Bool.false_ne_true
    | infinity | finite => exact ⟨rfl, rfl⟩
    | zero s' => exact ⟨by cases s <;> cases s' <;> rfl, by cases s <;> cases s' <;> rfl⟩
  | finite =>
    cases v with
    | notANumber => exact absurd hv.symm Bool.false_ne_true
    | infinity | zero => exact ⟨rfl, rfl⟩
    | finite =>
      exact ⟨isNaN_of_isFinite_parts (isFinite_normalize _ _ _),
        isNaN_of_isFinite_parts (isFinite_normalize _ _ _)⟩

/-- A difference is finite, before it is stored, exactly if both sides are. -/
theorem isFinite_sub_parts : (UnpackedFloat.sub Format.binary64 u v).isFinite = true ↔
    u.isFinite = true ∧ v.isFinite = true := by
  cases u <;> cases v
  case finite.finite => exact iff_of_true (isFinite_normalize _ _ _) ⟨rfl, rfl⟩
  case infinity.infinity s s' => cases s <;> cases s' <;> decide
  case zero.zero s s' => cases s <;> cases s' <;> decide
  all_goals simp [UnpackedFloat.sub, UnpackedFloat.isFinite]

theorem isFinite_mul_parts (hu : u.isFinite = true) (hv : v.isFinite = true) :
    (UnpackedFloat.mul Format.binary64 u v).isFinite = true := by
  -- a product of finite numbers is rounded, and rounding never leaves the finite ones
  cases u with
  | notANumber | infinity => exact absurd hu Bool.false_ne_true
  | zero =>
    cases v with
    | notANumber | infinity => exact absurd hv Bool.false_ne_true
    | zero | finite => rfl
  | finite =>
    cases v with
    | notANumber | infinity => exact absurd hv Bool.false_ne_true
    | zero => rfl
    | finite => exact isFinite_roundWithAccuracy _ _ _ _

/-- A finite quotient by a finite number has a finite numerator. -/
theorem isFinite_of_div_parts (hv : v.isFinite = true)
    (h : (UnpackedFloat.div Format.binary64 u v).isFinite = true) : u.isFinite = true := by
  cases u with
  | zero | finite => rfl
  | notANumber => exact h
  | infinity =>
    cases v with
    | notANumber | infinity => exact absurd hv Bool.false_ne_true
    | zero | finite => exact h

end Parts

section Operations

variable {x y : Float}

theorem isNaN_add (hx : isFinite x = true) (hy : isNaN y = false) :
    isNaN (x + y) = false ∧ isNaN (y + x) = false := by
  rw [isFinite_eq] at hx
  rw [isNaN_eq] at hy
  obtain ⟨hsum, hsum'⟩ := isNaN_add_parts hx hy
  rw [isNaN_eq, isNaN_eq]
  exact ⟨(isNaN_stored _).trans hsum, (isNaN_stored _).trans hsum'⟩

theorem isNaN_mul (hx : isFinite x = true) (hy : isFinite y = true) : isNaN (x * y) = false := by
  rw [isFinite_eq] at hx hy
  rw [isNaN_eq]
  exact (isNaN_stored _).trans (isNaN_of_isFinite_parts (isFinite_mul_parts hx hy))

theorem isFinite_of_sub (h : isFinite (x - y) = true) : isFinite x = true ∧ isFinite y = true := by
  rw [isFinite_eq] at h
  rw [isFinite_eq x, isFinite_eq y]
  exact isFinite_sub_parts.1 (isFinite_of_stored h)

theorem isFinite_of_div (hy : isFinite y = true) (h : isFinite (x / y) = true) :
    isFinite x = true := by
  rw [isFinite_eq] at h hy ⊢
  exact isFinite_of_div_parts hy (isFinite_of_stored h)

end Operations

end Binary64

end PlotGrammar
