import PlotGrammar.Proofs.Order

/-!
# Numbers of one place

Two finite doubles of one rank are one number, and an integer of up to 53 binary digits is the
double that has its place. So two cells of numbers that are not below each other are equal, unless
an integer beyond `2 ^ 53` meets a double (`Cell.key_eq_of_not_less`).

A double is its sign and its magnitude, which is the exponent field followed by the fraction field
(`Binary64.magnitude_eq`). `Binary64.dyadicAt` reads the number off them.
-/

namespace PlotGrammar

namespace Dyadic

/-- The number is an integer of this size, negated or not. -/
structure IsWhole (d : Dyadic) (n : Nat) : Prop where
  scaled : 0 ≤ d.exponent → d.mantissa * 2 ^ d.exponent.toNat = n
  divided : d.exponent < 0 → d.mantissa = n * 2 ^ (-d.exponent).toNat

variable {d : Dyadic} {n : Nat}

theorem IsWhole.floor (h : d.IsWhole n) : d.floor = if d.negative then -(n : Int) else n := by
  unfold Dyadic.floor signed
  simp only [Nat.pow_eq]
  by_cases hexponent : 0 ≤ d.exponent
  · rw [if_pos hexponent, ← h.scaled hexponent]
    cases d.negative with
    | true => simp
    | false => simp
  · have hne : ((2 ^ (-d.exponent).toNat : Nat) : Int) ≠ 0 := by
      exact_mod_cast (Nat.two_pow_pos _).ne'
    rw [if_neg hexponent, h.divided (Int.not_le.1 hexponent), Nat.cast_mul]
    -- the mantissa is a multiple of the power that it is divided by
    cases d.negative with
    | true =>
      rw [if_pos rfl, if_pos rfl, ← Int.neg_mul]
      exact Int.mul_fdiv_cancel _ hne
    | false =>
      rw [if_neg Bool.false_ne_true, if_neg Bool.false_ne_true]
      exact Int.mul_fdiv_cancel _ hne

/-- A mantissa that is an integer, shifted by as many digits as the exponent takes back. -/
theorem isWhole_of_shifted (negative : Bool) {M k : Nat} (h : M * 2 ^ k = n * 2 ^ 52) :
    IsWhole ⟨negative, M, (k : Int) - 52⟩ n := by
  refine ⟨fun hup => ?_, fun hdown => ?_⟩
  · obtain ⟨j, rfl⟩ : ∃ j, k = j + 52 := ⟨k - 52, by dsimp only at hup; omega⟩
    have hshift : (((j + 52 : Nat) : Int) - 52).toNat = j := by omega
    show M * 2 ^ (((j + 52 : Nat) : Int) - 52).toNat = n
    rw [hshift]
    refine Nat.eq_of_mul_eq_mul_right (Nat.two_pow_pos 52) ?_
    rw [← h, Nat.pow_add, Nat.mul_assoc]
  · obtain ⟨j, hj⟩ : ∃ j, j + k = 52 := ⟨52 - k, by dsimp only at hdown; omega⟩
    have hshift : (-((k : Int) - 52)).toNat = j := by omega
    show M = n * 2 ^ (-((k : Int) - 52)).toNat
    rw [hshift]
    refine Nat.eq_of_mul_eq_mul_right (Nat.two_pow_pos k) ?_
    rw [h, Nat.mul_assoc, ← Nat.pow_add, hj]

theorem IsWhole.toInt? (h : d.IsWhole n) :
    d.toInt? = some (if d.negative then -(n : Int) else n) := by
  have hopposite : IsWhole ⟨!d.negative, d.mantissa, d.exponent⟩ n := ⟨h.scaled, h.divided⟩
  have hceil : d.ceil = d.floor := by
    unfold ceil
    rw [h.floor, hopposite.floor]
    cases d.negative <;> simp
  unfold Dyadic.toInt?
  rw [if_pos hceil.symm, h.floor]

end Dyadic

namespace Binary64

/-! ### Sign and magnitude -/

/-- The exponent and the fraction of a double, in one. -/
def magnitude (x : Float) : Nat :=
  (x.toBits &&& 0x7FFFFFFFFFFFFFFF).toNat

/-- The number of a sign and a magnitude. -/
def dyadicAt (negative : Bool) (m : Nat) : Dyadic :=
  if m / 2 ^ 52 = 0 then ⟨negative, m % 2 ^ 52, -1074⟩
  else ⟨negative, 2 ^ 52 + m % 2 ^ 52, (m / 2 ^ 52 : Nat) - 1075⟩

theorem rank_eq (x : Float) :
    rank x = if isNegative x then -(magnitude x : Int) else magnitude x := rfl

theorem exponentField_eq_mod (x : Float) : exponentField x = x.toBits.toNat / 2 ^ 52 % 2 ^ 11 := by
  unfold exponentField
  rw [UInt64.toNat_and, UInt64.toNat_shiftRight, Nat.shiftRight_eq_div_pow]
  exact Nat.and_two_pow_sub_one_eq_mod _ 11

theorem fractionField_eq_mod (x : Float) : fractionField x = x.toBits.toNat % 2 ^ 52 := by
  unfold fractionField
  rw [UInt64.toNat_and]
  exact Nat.and_two_pow_sub_one_eq_mod _ 52

theorem magnitude_eq_mod (x : Float) : magnitude x = x.toBits.toNat % 2 ^ 63 := by
  unfold magnitude
  rw [UInt64.toNat_and]
  exact Nat.and_two_pow_sub_one_eq_mod _ 63

theorem dyadic_eq (x : Float) : dyadic x = dyadicAt (isNegative x) (magnitude x) := by
  have hexponent : magnitude x / 2 ^ 52 = exponentField x := by
    rw [magnitude_eq_mod, exponentField_eq_mod]
    omega
  have hfraction : magnitude x % 2 ^ 52 = fractionField x := by
    rw [magnitude_eq_mod, fractionField_eq_mod]
    omega
  unfold dyadic dyadicAt
  rw [hexponent, hfraction]
  rfl

theorem magnitude_eq_natAbs (x : Float) : magnitude x = (rank x).natAbs := by
  rw [rank_eq]
  split <;> simp

/-- A double without a magnitude is zero, whatever its sign. -/
theorem isWhole_zero (negative : Bool) : (dyadicAt negative 0).IsWhole 0 where
  scaled h := absurd h (by cases negative <;> decide)
  divided _ := by
    rw [Nat.zero_mul]
    rfl

/-! ### Integers of 53 digits -/

theorem rankOfNat_eq_zero {n : Nat} : rankOfNat n = 0 ↔ n = 0 := by
  unfold rankOfNat
  simp only [Nat.pow_eq]
  constructor
  · intro h
    by_contra hn
    rw [if_neg hn] at h
    omega
  · intro h
    rw [if_pos h]

theorem natAbs_rankOfInt (i : Int) : (rankOfInt i).natAbs = rankOfNat i.natAbs := by
  cases i with
  | ofNat n =>
    show (rankOfNat n : Int).natAbs = rankOfNat n
    exact Int.natAbs_natCast _
  | negSucc n =>
    show (-(rankOfNat (n + 1) : Int)).natAbs = rankOfNat (n + 1)
    rw [Int.natAbs_neg, Int.natAbs_natCast]

/-- The mantissa of an integer of up to 53 digits is the integer, shifted. -/
theorem mantissa_exact {n : Nat} (hn : n ≠ 0) (h : n ≤ 2 ^ 53) :
    roundedQuotient (n * 2 ^ 52) (2 ^ n.log2) * 2 ^ n.log2 = n * 2 ^ 52 := by
  have hdvd : 2 ^ n.log2 ∣ n * 2 ^ 52 := by
    by_cases hlog : n.log2 ≤ 52
    · exact Nat.dvd_mul_left_of_dvd (Nat.pow_dvd_pow 2 hlog) n
    · -- only `2 ^ 53` itself has more digits
      have hlow : 2 ^ n.log2 ≤ n := Nat.log2_self_le hn
      have hhigh : 2 ^ 53 ≤ 2 ^ n.log2 := Nat.pow_le_pow_right (by decide) (by omega)
      have heq : 2 ^ n.log2 = n := by omega
      rw [heq]
      exact Nat.dvd_mul_right n _
  have hexact : roundedQuotient (n * 2 ^ 52) (2 ^ n.log2) = n * 2 ^ 52 / 2 ^ n.log2 := by
    have hpos : 0 < 2 ^ n.log2 := Nat.two_pow_pos _
    unfold roundedQuotient
    dsimp only
    rw [Nat.mod_eq_zero_of_dvd hdvd, if_pos (Or.inl (by omega))]
  rw [hexact]
  exact Nat.div_mul_cancel hdvd

/-- The double at the place of an integer of up to 53 digits has the mantissa of the integer. -/
theorem exists_dyadicAt_rankOfNat (negative : Bool) {n : Nat} (hn : n ≠ 0) (h : n ≤ 2 ^ 53) :
    ∃ mantissa, dyadicAt negative (rankOfNat n) = ⟨negative, mantissa, (n.log2 : Int) - 52⟩ ∧
      mantissa * 2 ^ n.log2 = n * 2 ^ 52 := by
  obtain ⟨M, hM⟩ : ∃ M, M = roundedQuotient (n * 2 ^ 52) (2 ^ n.log2) := ⟨_, rfl⟩
  have hexact : M * 2 ^ n.log2 = n * 2 ^ 52 := hM ▸ mantissa_exact hn h
  have hlow : 2 ^ 52 ≤ M := hM ▸ (mantissa_bounds hn).1
  have hhigh : M < 2 ^ 53 := by
    -- a mantissa that is rounded up to the next power would not be exact
    have hlog : n < 2 ^ (n.log2 + 1) := Nat.lt_log2_self
    by_contra hge
    have hmul : 2 ^ 53 * 2 ^ n.log2 ≤ M * 2 ^ n.log2 := Nat.mul_le_mul_right _ (by omega)
    rw [hexact, show 2 ^ 53 * 2 ^ n.log2 = 2 ^ (n.log2 + 1) * 2 ^ 52 by ring] at hmul
    exact absurd (Nat.le_of_mul_le_mul_right hmul (by decide)) (by omega)
  have hrank : rankOfNat n = (n.log2 + 1023) * 2 ^ 52 + (M - 2 ^ 52) := by
    unfold rankOfNat
    simp only [Nat.pow_eq]
    rw [if_neg hn, ← hM]
    omega
  have hexponent : rankOfNat n / 2 ^ 52 = n.log2 + 1023 := by omega
  have hfraction : rankOfNat n % 2 ^ 52 = M - 2 ^ 52 := by omega
  have hmantissa : 2 ^ 52 + (M - 2 ^ 52) = M := by omega
  have hexp : ((n.log2 + 1023 : Nat) : Int) - 1075 = (n.log2 : Int) - 52 := by omega
  refine ⟨M, ?_, hexact⟩
  unfold dyadicAt
  rw [hexponent, hfraction, if_neg (by omega), hmantissa, hexp]

/-- The double at the place of an integer of up to 53 digits is the integer. -/
theorem isWhole_rankOfNat (negative : Bool) {n : Nat} (h : n ≤ 2 ^ 53) :
    (dyadicAt negative (rankOfNat n)).IsWhole n := by
  by_cases hn : n = 0
  · subst hn
    exact isWhole_zero negative
  · obtain ⟨M, hdyadic, hexact⟩ := exists_dyadicAt_rankOfNat negative hn h
    rw [hdyadic]
    exact Dyadic.isWhole_of_shifted negative hexact

theorem toInt?_of_isWhole {x : Float} {n : Nat} (hx : isFinite x = true)
    (h : (dyadicAt (isNegative x) (magnitude x)).IsWhole n) :
    toInt? x = some (if isNegative x then -(n : Int) else n) := by
  have hnegative : (dyadicAt (isNegative x) (magnitude x)).negative = isNegative x := by
    unfold dyadicAt
    split <;> rfl
  unfold toInt?
  rw [if_pos hx, dyadic_eq, h.toInt?, hnegative]

theorem toInt?_zero {x : Float} (hx : isFinite x = true) (h : magnitude x = 0) :
    toInt? x = some 0 := by
  have hwhole : (dyadicAt (isNegative x) (magnitude x)).IsWhole 0 := by
    rw [h]
    exact isWhole_zero _
  rw [toInt?_of_isWhole hx hwhole]
  simp

/-- **An integer of up to 53 digits is the double at its place.** -/
theorem toInt?_of_rank {x : Float} {i : Int} (hx : isFinite x = true) (hi : i.natAbs ≤ 2 ^ 53)
    (h : rank x = rankOfInt i) : toInt? x = some i := by
  have hmagnitude : magnitude x = rankOfNat i.natAbs := by
    rw [magnitude_eq_natAbs, h, natAbs_rankOfInt]
  by_cases hzero : i = 0
  · subst hzero
    exact toInt?_zero hx hmagnitude
  · have hne : rankOfNat i.natAbs ≠ 0 :=
      fun hrank => hzero (Int.natAbs_eq_zero.1 (rankOfNat_eq_zero.1 hrank))
    have hwhole := isWhole_rankOfNat (isNegative x) hi
    rw [← hmagnitude] at hwhole
    rw [toInt?_of_isWhole hx hwhole]
    -- what is not zero has the sign of its rank, on both sides
    rw [rank_eq, hmagnitude] at h
    cases i with
    | ofNat n =>
      cases hsign : isNegative x with
      | false => rfl
      | true =>
        rw [hsign, if_pos rfl] at h
        have hsame : -(rankOfNat n : Int) = rankOfNat n := h
        have hpos : rankOfNat n ≠ 0 := hne
        omega
    | negSucc n =>
      cases hsign : isNegative x with
      | true => rfl
      | false =>
        rw [hsign, if_neg Bool.false_ne_true] at h
        have hsame : (rankOfNat (n + 1) : Int) = -(rankOfNat (n + 1) : Int) := h
        have hpos : rankOfNat (n + 1) ≠ 0 := hne
        omega

/-- Two finite doubles of one rank are one number. -/
theorem toInt?_congr {x y : Float} (hx : isFinite x = true) (hy : isFinite y = true)
    (h : rank x = rank y) : toInt? x = toInt? y := by
  have hmagnitude : magnitude x = magnitude y := by
    rw [magnitude_eq_natAbs, magnitude_eq_natAbs, h]
  by_cases hsign : isNegative x = isNegative y
  · unfold toInt?
    rw [if_pos hx, if_pos hy, dyadic_eq, dyadic_eq, hsign, hmagnitude]
  · -- only zero is of one rank with both signs
    have hzero : magnitude x = 0 := by
      rw [rank_eq, rank_eq, ← hmagnitude] at h
      cases hnx : isNegative x <;> cases hny : isNegative y <;> simp [hnx, hny] at h hsign
      · omega
      · omega
    rw [toInt?_zero hx hzero, toInt?_zero hy (hmagnitude ▸ hzero)]

theorem isNaN_of_isFinite {x : Float} (h : isFinite x = true) : isNaN x = false := by
  unfold isFinite at h
  unfold isNaN
  have hne : exponentField x ≠ 0x7FF := by
    have hlt := of_decide_eq_true h
    omega
  simp [hne]

end Binary64

/-! ### Cells -/

/-- Numbers that are not below each other have one place. -/
theorem Number.place_eq_of_not_below {m n : Number} (hm : m.isNaN = false) (hn : n.isNaN = false)
    (h : m.below n = false) (h' : n.below m = false) : m.place = n.place := by
  rcases Int.lt_trichotomy m.place n.place with hlt | heq | hgt
  · rw [below_of_place_lt hm hn hlt] at h
    exact nomatch h
  · exact heq
  · rw [below_of_place_lt hn hm hgt] at h'
    exact nomatch h'

namespace Cell

/-- Whether the first cell, if it is an integer and the second one a double, is a double as well: an
integer of up to 53 binary digits. -/
def exactBeside : Cell → Cell → Bool
  | int i, float _ => decide (i.natAbs ≤ 2 ^ 53)
  | _, _ => true

theorem key_float {x : Float} (hx : Binary64.isFinite x = true) : (float x).key =
    match Binary64.toInt? x with
    | some i => .whole i
    | none => .fraction (Binary64.rank x) :=
  if_neg (by simp [Binary64.isNaN_of_isFinite hx])

/-- A finite amount is an integer, which a truth value may stand for, or a double. -/
theorem isFinite_cases {c : Cell} (h : c.isFinite = true) :
    (∃ i, c.number? = some (.int i) ∧ c.key = .whole i ∧ (c = .int i ∨ i.natAbs ≤ 1)) ∨
      ∃ x, c = .float x ∧ Binary64.isFinite x = true := by
  cases c with
  | bool b => exact Or.inl ⟨if b then 1 else 0, rfl, rfl, Or.inr (by cases b <;> decide)⟩
  | int i => exact Or.inl ⟨i, rfl, rfl, Or.inl rfl⟩
  | float x => exact Or.inr ⟨x, rfl, h⟩
  | missing | text | time | compound => exact nomatch h

/-- An integer and a double that are not below each other have one place. -/
theorem key_eq_of_place {c : Cell} {i : Int} {x : Float} (hx : Binary64.isFinite x = true)
    (hc : c.number? = some (.int i)) (hsmall : c = .int i ∨ i.natAbs ≤ 1)
    (hexact : c.exactBeside (.float x) = true) (hless : c.less (.float x) = false)
    (hless' : (float x).less c = false) : (float x).key = .whole i := by
  have hi : i.natAbs ≤ 2 ^ 53 := by
    rcases hsmall with rfl | hsmall
    · exact of_decide_eq_true hexact
    · omega
  rw [less_of_number? hc rfl] at hless
  rw [less_of_number? rfl hc] at hless'
  have hnumber : (Number.float x).isNaN = false := Binary64.isNaN_of_isFinite hx
  have hrank : (Number.float x).place = (Number.int i).place :=
    Number.place_eq_of_not_below hnumber rfl hless' hless
  rw [key_float hx, Binary64.toInt?_of_rank hx hi hrank]

/-- **Two amounts that are not below each other are equal**, if an integer among them that meets a
double has up to 53 digits. -/
theorem key_eq_of_not_less {a b : Cell} (ha : a.isFinite = true) (hb : b.isFinite = true)
    (hab : a.less b = false) (hba : b.less a = false) (hexact : a.exactBeside b = true)
    (hexact' : b.exactBeside a = true) : a.key = b.key := by
  -- finite cells are integers or doubles, and are compared by place across the two sorts
  rcases isFinite_cases ha with ⟨i, hi, hkey, hsmall⟩ | ⟨x, rfl, hx⟩
  · rcases isFinite_cases hb with ⟨j, hj, hkey', -⟩ | ⟨y, rfl, hy⟩
    · rw [less_of_number? hi hj] at hab
      rw [less_of_number? hj hi] at hba
      have hsame : i = j := by
        simp [Number.below] at hab hba
        omega
      rw [hkey, hkey', hsame]
    · rw [hkey, key_eq_of_place hy hi hsmall hexact hab hba]
  · rcases isFinite_cases hb with ⟨j, hj, hkey', hsmall⟩ | ⟨y, rfl, hy⟩
    · rw [hkey', key_eq_of_place hx hj hsmall hexact' hba hab]
    · rw [less_of_number? rfl rfl] at hab hba
      have hnumber : (Number.float x).isNaN = false := Binary64.isNaN_of_isFinite hx
      have hnumber' : (Number.float y).isNaN = false := Binary64.isNaN_of_isFinite hy
      have hrank : Binary64.rank x = Binary64.rank y :=
        Number.place_eq_of_not_below hnumber hnumber' hab hba
      rw [key_float hx, key_float hy, Binary64.toInt?_congr hx hy hrank, hrank]

end Cell

end PlotGrammar
