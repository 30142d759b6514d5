import Mathlib
import PlotGrammar.Number.Binary64

/-!
# Words have doubles

A word of 64 bits is far below the greatest double. `Binary64.isSome_ofInt?` says that it has a
nearest one.

A double is packed from a mantissa and an exponent, and only the exponent decides whether it is
finite. `Binary64.Below` bounds both. There is one lemma for each operation on the way from an
integer to its double: rounding, multiplying, packing and unpacking.
-/

namespace PlotGrammar

open Float.Model Float.Model.UnpackedFloat

namespace Binary64

/-- Zero, or a finite double with a mantissa of so many binary digits and an exponent up to a
bound. -/
def Below (digits : Nat) (bound : Int) : UnpackedFloat → Prop
  | .zero _ => True
  | .finite _ m e _ => m < 2 ^ digits ∧ e ≤ bound
  | .infinity _ | .notANumber => False

/-! ### Packed doubles -/

theorem exponentField_eq (x : Float) :
    exponentField x = (@unpackExponent Format.binary64 x.toBits.toBitVec).toNat := by
  unfold exponentField unpackExponent
  rw [BitVec.toNat_cast, BitVec.extractLsb_toNat, UInt64.toNat_and, UInt64.toNat_shiftRight]
  exact Nat.and_two_pow_sub_one_eq_mod _ 11

/-- A packed double keeps its exponent within the bound. -/
theorem unpackExponent_pack {digits : Nat} {bound : Int} {u : UnpackedFloat}
    (h : Below digits bound u) (hbound : bound ≤ 971) :
    ((unpackExponent (UnpackedFloat.pack Format.binary64 u)).toNat : Int) ≤
      max 0 (bound + 1075) := by
  cases u with
  | infinity | notANumber => exact h.elim
  | zero s =>
    unfold UnpackedFloat.pack packedZero
    rw [unpackExponent_packComponents]
    exact Int.le_max_left _ _
  | finite s m e hm =>
    obtain ⟨-, he⟩ := h
    unfold UnpackedFloat.pack
    dsimp only
    have hbias : ((Format.binary64.exponentBias : Nat) : Int) = 1023 := rfl
    rw [hbias]
    -- the exponent field is all ones, the biased exponent, or zero for a subnormal number
    split
    · next hlarge =>
      have hall : (2 : Nat) ^ Format.binary64.exponentBits = 2048 := rfl
      rw [hall] at hlarge
      have hfrac : ((Format.binary64.mantissaBitsWithoutImplicit : Nat) : Int) = 52 := rfl
      omega
    · split
      · rw [unpackExponent_packComponents, BitVec.toNat_ofNat]
        have hfrac : ((Format.binary64.mantissaBitsWithoutImplicit : Nat) : Int) = 52 := rfl
        have := Nat.mod_le (e + 1023 + 52).toNat (2 ^ 11)
        change (((e + 1023 + 52).toNat % 2 ^ 11 : Nat) : Int) ≤ _
        omega
      · rw [unpackExponent_packComponents]
        exact Int.le_max_left _ _

/-- What is unpacked has 53 digits. -/
theorem below_unpack {bound : Int} {b : BitVec 64}
    (h : ((@unpackExponent Format.binary64 b).toNat : Int) ≤ bound + 1075)
    (hbound : bound ≤ 971) (hlow : -1074 ≤ bound) : Below 53 bound (unpack Format.binary64 b) := by
  unfold UnpackedFloat.unpack
  dsimp only
  have hbias : ((Format.binary64.exponentBias : Nat) : Int) = 1023 := rfl
  rw [hbias]
  -- three classes of exponents: all ones, all zeros, and those of normal numbers
  split
  · next hall =>
    rw [hall] at h
    have : ((-1#11).toNat : Int) = 2047 := rfl
    omega
  · split
    · split
      · trivial
      · next hzero _ =>
        have hm := (@unpackMantissa Format.binary64 b).isLt
        refine ⟨Nat.lt_trans hm (by decide), ?_⟩
        rw [hzero]
        have : ((0#11).toNat : Int) = 0 := rfl
        omega
    · have hm := (1#1 ++ @unpackMantissa Format.binary64 b).isLt
      exact ⟨hm, by omega⟩

/-! ### Rounding -/

theorem mantissa_shiftRight (a : ExtendedMantissa) (n : Nat) :
    (a >>> n).mantissa ≤ a.mantissa := by
  change (Nat.repeat ExtendedMantissa.shiftRightOne n a).mantissa ≤ a.mantissa
  induction n with
  | zero => exact Nat.le_refl _
  | succ n ih => exact Nat.le_trans (Nat.div_le_self _ 2) ih

theorem mantissa_ofMantissaAndAccuracy (m : Nat) (accuracy : Accuracy) :
    (ExtendedMantissa.ofMantissaAndAccuracy m accuracy).mantissa = m := by
  unfold ExtendedMantissa.ofMantissaAndAccuracy
  split <;> rfl

theorem roundedMantissa_le (a : ExtendedMantissa) : a.roundedMantissa ≤ a.mantissa + 1 := by
  unfold ExtendedMantissa.roundedMantissa Accuracy.roundToNearestEven
  split <;> omega

theorem shiftToTargetExponent_le {digits : Nat} {bound : Int} {m : Nat} {e : Int}
    (hm : m < 2 ^ digits) (he : e ≤ bound) (hdigits : 53 ≤ digits) (hlow : -1074 ≤ bound)
    (accuracy : Accuracy) :
    (shiftToTargetExponent Format.binary64 m e accuracy).1.mantissa ≤ m ∧
      (shiftToTargetExponent Format.binary64 m e accuracy).2 ≤ bound + digits - 53 := by
  have hlog : Nat.log2 m + 1 ≤ digits := by
    by_cases hzero : m = 0
    · subst hzero
      exact Nat.le_trans (by decide) hdigits
    · exact (Nat.log2_lt hzero).2 hm
  have hmin : Format.binary64.minExponent = -1074 := rfl
  have hbits : ((Format.binary64.mantissaBits : Nat) : Int) = 53 := rfl
  unfold shiftToTargetExponent shiftToExponent Format.targetExponent totalExponent
  rw [hmin, hbits]
  dsimp only
  refine ⟨?_, ?_⟩
  · exact Nat.le_trans (mantissa_shiftRight _ _)
      (Nat.le_of_eq (mantissa_ofMantissaAndAccuracy _ _))
  · omega

theorem below_roundWithAccuracy {digits : Nat} {bound : Int} {m : Nat} {e : Int}
    (hm : m < 2 ^ digits) (he : e ≤ bound) (hdigits : 53 ≤ digits) (hlow : -1074 ≤ bound)
    (sign : Sign) (accuracy : Accuracy) :
    Below (digits + 1) (bound + 2 * digits - 105)
      (roundWithAccuracy Format.binary64 sign m e accuracy) := by
  obtain ⟨hm₁, he₁⟩ := shiftToTargetExponent_le hm he hdigits hlow accuracy
  unfold roundWithAccuracy
  generalize shiftToTargetExponent Format.binary64 m e accuracy = shifted at hm₁ he₁
  obtain ⟨em₁, e₁⟩ := shifted
  dsimp only at hm₁ he₁ ⊢
  have hrounded : em₁.roundedMantissa < 2 ^ (digits + 1) := by
    have := roundedMantissa_le em₁
    rw [Nat.pow_succ]
    omega
  obtain ⟨hm₂, he₂⟩ := shiftToTargetExponent_le hrounded he₁ (by omega) (by omega) .exact
  split
  · trivial
  · exact ⟨Nat.lt_of_le_of_lt hm₂ hrounded, by omega⟩

theorem below_mul {d₁ d₂ : Nat} {b₁ b₂ : Int} {u v : UnpackedFloat} (hu : Below d₁ b₁ u)
    (hv : Below d₂ b₂ v) (hdigits : 53 ≤ d₁ + d₂) (hlow : -1074 ≤ b₁ + b₂) :
    Below (d₁ + d₂ + 1) (b₁ + b₂ + 2 * (d₁ + d₂) - 105)
      (UnpackedFloat.mul Format.binary64 u v) := by
  -- only two finite factors have a product that is not zero
  cases u with
  | infinity | notANumber => exact hu.elim
  | zero s =>
    cases v with
    | infinity | notANumber => exact hv.elim
    | zero | finite => trivial
  | finite s₁ m₁ e₁ h₁ =>
    cases v with
    | infinity | notANumber => exact hv.elim
    | zero s₂ => trivial
    | finite s₂ m₂ e₂ h₂ =>
      obtain ⟨hm₁, he₁⟩ := hu
      obtain ⟨hm₂, he₂⟩ := hv
      have hm : m₁ * m₂ < 2 ^ (d₁ + d₂) := by
        rw [Nat.pow_add]
        exact Nat.mul_lt_mul'' hm₁ hm₂
      have := below_roundWithAccuracy hm (Int.add_le_add he₁ he₂) hdigits hlow (s₁ * s₂) .exact
      rwa [Int.natCast_add] at this

/-! ### The double of a word -/

/-- A double whose exponent is bounded, as bits. -/
def Bounded (bound : Int) (x : Float) : Prop :=
  (exponentField x : Int) ≤ bound + 1075

theorem Bounded.mono {bound bound' : Int} {x : Float} (h : Bounded bound x) (hle : bound ≤ bound') :
    Bounded bound' x :=
  Int.le_trans h (Int.add_le_add_right hle 1075)

theorem bounded_pack {digits : Nat} {bound : Int} {u : UnpackedFloat} (h : Below digits bound u)
    (hbound : bound ≤ 971) (hlow : -1074 ≤ bound) : Bounded bound ⟨Float.Model.pack u⟩ := by
  have := unpackExponent_pack h hbound
  unfold Bounded
  rw [exponentField_eq]
  change ((unpackExponent (UnpackedFloat.pack Format.binary64 u)).toNat : Int) ≤ _
  omega

theorem Bounded.below {bound : Int} {x : Float} (h : Bounded bound x) (hbound : bound ≤ 971)
    (hlow : -1074 ≤ bound) : Below 53 bound x.toModel.unpack := by
  unfold Bounded at h
  rw [exponentField_eq] at h
  exact below_unpack h hbound hlow

theorem Bounded.neg {bound : Int} {x : Float} (h : Bounded bound x) (hbound : bound ≤ 971)
    (hlow : -1074 ≤ bound) : Bounded bound (-x) := by
  have hx := h.below hbound hlow
  have hneg : Below 53 bound x.toModel.unpack.neg := by
    generalize x.toModel.unpack = u at hx
    cases u with
    | infinity | notANumber => exact hx.elim
    | zero => trivial
    | finite => exact hx
  exact bounded_pack hneg hbound hlow

/-- Before a natural number is rounded it is given the digits of a mantissa. -/
theorem below_round {m : Nat} (hm : m < 2 ^ 64) (sign : Sign) :
    Below 117 127 (UnpackedFloat.round Format.binary64 sign m 0) := by
  have hmin : Format.binary64.minExponent = -1074 := rfl
  have hbits : ((Format.binary64.mantissaBits : Nat) : Int) = 53 := rfl
  unfold UnpackedFloat.round decreaseExponent Format.targetExponent totalExponent
  rw [hmin, hbits]
  dsimp only
  generalize hshift : (0 - max ((m.log2 : Int) + 1 + 0 - 53) (-1074)).toNat = shift
  have hle : shift ≤ 52 := by omega
  have hshifted : m <<< shift < 2 ^ 116 := by
    rw [Nat.shiftLeft_eq]
    calc m * 2 ^ shift < 2 ^ 64 * 2 ^ shift := Nat.mul_lt_mul_of_pos_right hm (Nat.two_pow_pos _)
      _ ≤ 2 ^ 64 * 2 ^ 52 := Nat.mul_le_mul_left _ (Nat.pow_le_pow_right (by decide) hle)
      _ = 2 ^ 116 := by decide
  exact below_roundWithAccuracy hshifted (by omega : (0 : Int) - shift ≤ 0) (by decide) (by decide)
    sign .exact

theorem bounded_toFloat (n : UInt64) : Bounded 127 n.toFloat := by
  have hn := n.toNat_lt
  have hrounded : Below 117 127 (UnpackedFloat.ofUInt64 Format.binary64 n) := by
    unfold UnpackedFloat.ofUInt64 UnpackedFloat.ofNat UnpackedFloat.ofInt UnpackedFloat.normalize
    split
    · exact below_round (by omega) _
    · trivial
    · exact below_round (by omega) _
  exact bounded_pack hrounded (by decide) (by decide)

/-- A natural number of up to 53 digits is made a double and multiplied by one. -/
theorem bounded_short (n : Nat) :
    Bounded 182 (n.toUInt64.toFloat * Float.ofBits 4607182418800017408) := by
  have hn := (bounded_toFloat n.toUInt64).below (by decide) (by decide)
  have hone : Bounded (-52) (Float.ofBits 4607182418800017408) := by
    unfold Bounded
    decide +kernel
  have hproduct := below_mul hn (hone.below (by decide) (by decide)) (by decide) (by decide)
  exact bounded_pack hproduct (by decide) (by decide)

/-- A longer one is multiplied by one before it is rounded. -/
theorem bounded_long {n : Nat} (hne : n ≠ 0) (h : n < 2 ^ 64) :
    Bounded 182 ⟨Float.Model.ofScientific n 0⟩ := by
  have hlt : n <<< 53 < 2 ^ 117 := by
    rw [Nat.shiftLeft_eq]
    omega
  have hbits : Format.binary64.mantissaBits = 53 := rfl
  have hexponent : (2 : Int) ^ Format.binary64.exponentBits = 2048 := rfl
  -- the long way multiplies by a power of ten, which is the zeroth one here
  have hpacked : Below 119 78 (UnpackedFloat.ofScientific Format.binary64 n 0) := by
    unfold UnpackedFloat.ofScientific
    simp only [hbits, hexponent]
    rw [dif_neg hne, if_neg (by decide), if_neg (by omega), if_pos (by decide)]
    generalize hu : UnpackedFloat.finite .positive (n <<< 53) _ _ = u
    generalize hv : UnpackedFloat.finite .positive (10 ^ Int.toNat 0) _ _ = v
    have hbu : Below 117 (-53) u := hu ▸ ⟨hlt, Int.le_refl _⟩
    have hbv : Below 1 0 v := hv ▸ ⟨by decide, Int.le_refl _⟩
    have hproduct := below_mul hbu hbv (by decide) (by decide)
    exact hproduct
  have hbounded := bounded_pack hpacked (by decide) (by decide)
  unfold Float.Model.ofScientific
  exact hbounded.mono (by decide)

theorem bounded_ofNat {n : Nat} (h : n < 2 ^ 64) : Bounded 182 (Float.ofNat n) := by
  change Bounded 182 (Float.ofScientific n false 0)
  unfold Float.ofScientific
  split
  · exact bounded_short n
  · next hlong =>
    exact bounded_long (fun h0 => hlong ⟨h0 ▸ by decide, by decide⟩) h

/-- An integer of up to 64 binary digits has a nearest double. -/
theorem isSome_ofInt? {i : Int} (h : i.natAbs < 2 ^ 64) : (ofInt? i).isSome = true := by
  have hbounded : Bounded 182 (Float.ofInt i) := by
    cases i with
    | ofNat n => exact bounded_ofNat h
    | negSucc n => exact (bounded_ofNat h).neg (by decide) (by decide)
  have hfinite : isFinite (Float.ofInt i) = true := by
    unfold Bounded at hbounded
    unfold isFinite
    rw [decide_eq_true_eq]
    omega
  unfold ofInt?
  rw [if_pos hfinite]
  rfl

end Binary64

end PlotGrammar
