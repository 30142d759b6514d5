import PlotGrammar.Table.Cell
import Mathlib.Tactic.ByContra
import Mathlib.Tactic.Ring

/-!
# The order of cells

A scale keeps the least and the greatest cell it meets, one cell after the other. Whether the order
in which they are met matters depends on `Cell.less`, which compares two integers exactly and any
other two numbers as doubles. It is not a linear order: beyond `2 ^ 53` two integers may be one
double, so that neither of them is below it although one is below the other.

It is a strict partial order all the same (`Cell.less_irrefl`, `Cell.less_trans`), and that is all a
least and a greatest cell need. The steps from integers to doubles and back are covered by one fact,
that the rounding of integers to doubles is monotone (`Binary64.rankOfInt_mono`).
-/

namespace PlotGrammar

namespace Binary64

/-! ### Rounding integers to doubles -/

theorem div_le_roundedQuotient (a d : Nat) : a / d ≤ roundedQuotient a d := by
  unfold roundedQuotient
  dsimp only
  split <;> omega

theorem roundedQuotient_le (a d : Nat) : roundedQuotient a d ≤ a / d + 1 := by
  unfold roundedQuotient
  dsimp only
  split <;> omega

/-- Rounding keeps the order of quotients by one number. Where the quotients are equal the greater
remainder is rounded up if the smaller one is: at a tie both look at the same quotient. -/
theorem roundedQuotient_mono {a b d : Nat} (h : a ≤ b) :
    roundedQuotient a d ≤ roundedQuotient b d := by
  have hq : a / d ≤ b / d := Nat.div_le_div_right h
  rcases Nat.lt_or_eq_of_le hq with hlt | heq
  · have ha := roundedQuotient_le a d
    have hb := div_le_roundedQuotient b d
    omega
  · have hr : a % d ≤ b % d := by
      have ha := Nat.div_add_mod a d
      have hb := Nat.div_add_mod b d
      rw [heq] at ha
      omega
    unfold roundedQuotient
    dsimp only
    rw [heq]
    split <;> split <;> omega

/-- The mantissa of a number above zero lies between two powers of two. -/
theorem mantissa_bounds {n : Nat} (h : n ≠ 0) :
    2 ^ 52 ≤ roundedQuotient (n * 2 ^ 52) (2 ^ n.log2) ∧
      roundedQuotient (n * 2 ^ 52) (2 ^ n.log2) ≤ 2 ^ 53 := by
  have hpos : 0 < 2 ^ n.log2 := Nat.two_pow_pos _
  have hlow : 2 ^ n.log2 ≤ n := Nat.log2_self_le h
  have hhigh : n < 2 ^ n.log2 * 2 := by
    rw [← Nat.pow_succ]
    exact Nat.lt_log2_self
  have hq : 2 ^ 52 ≤ n * 2 ^ 52 / 2 ^ n.log2 := by
    rw [Nat.le_div_iff_mul_le hpos, Nat.mul_comm]
    exact Nat.mul_le_mul_right _ hlow
  have hq' : n * 2 ^ 52 / 2 ^ n.log2 < 2 ^ 53 := by
    rw [Nat.div_lt_iff_lt_mul hpos]
    omega
  have h₁ := div_le_roundedQuotient (n * 2 ^ 52) (2 ^ n.log2)
  have h₂ := roundedQuotient_le (n * 2 ^ 52) (2 ^ n.log2)
  omega

theorem rankOfNat_mono {m n : Nat} (h : m ≤ n) : rankOfNat m ≤ rankOfNat n := by
  unfold rankOfNat
  simp only [Nat.pow_eq]
  by_cases hm : m = 0
  · rw [if_pos hm]
    exact Nat.zero_le _
  · have hn : n ≠ 0 := by omega
    rw [if_neg hm, if_neg hn]
    have hlog : m.log2 ≤ n.log2 :=
      (Nat.le_log2 hn).2 (Nat.le_trans (Nat.log2_self_le hm) h)
    rcases Nat.lt_or_eq_of_le hlog with hlt | heq
    · -- the mantissa of `m` reaches at most the next exponent
      have h₁ := (mantissa_bounds hm).2
      have h₂ := (mantissa_bounds hn).1
      have h₃ : (m.log2 + 1 + 1022) * 2 ^ 52 ≤ (n.log2 + 1022) * 2 ^ 52 :=
        Nat.mul_le_mul_right _ (by omega)
      calc (m.log2 + 1022) * 2 ^ 52 + roundedQuotient (m * 2 ^ 52) (2 ^ m.log2)
          ≤ (m.log2 + 1022) * 2 ^ 52 + 2 ^ 53 := Nat.add_le_add_left h₁ _
        _ = (m.log2 + 1 + 1022) * 2 ^ 52 + 2 ^ 52 := by ring
        _ ≤ (n.log2 + 1022) * 2 ^ 52 + roundedQuotient (n * 2 ^ 52) (2 ^ n.log2) :=
          Nat.add_le_add h₃ h₂
    -- at the same exponent the mantissas are compared
    · rw [heq]
      exact Nat.add_le_add_left (roundedQuotient_mono (Nat.mul_le_mul_right _ h)) _

/-- **Rounding to doubles is monotone** on the integers. -/
theorem rankOfInt_mono {i j : Int} (h : i ≤ j) : rankOfInt i ≤ rankOfInt j := by
  -- negative numbers are ranked as the opposites of natural ones
  cases i with
  | ofNat m =>
    cases j with
    | ofNat n =>
      have := rankOfNat_mono (m := m) (n := n) (by simpa using h)
      simp only [rankOfInt]
      omega
    | negSucc n =>
      simp only [Int.ofNat_eq_natCast] at h
      omega
  | negSucc m =>
    cases j with
    | ofNat n =>
      simp only [rankOfInt]
      omega
    | negSucc n =>
      have := rankOfNat_mono (m := n + 1) (n := m + 1) (by omega)
      simp only [rankOfInt]
      omega

end Binary64

/-! ### Numbers and cells -/

namespace Number

/-- What it takes for a number to be below another: a lower place, or two integers in order. -/
theorem below_cases {m n : Number} (h : m.below n = true) :
    m.place < n.place ∨ ∃ i j, m = int i ∧ n = int j ∧ i < j := by
  unfold below at h
  split at h
  · next i j => exact Or.inr ⟨i, j, rfl, rfl, of_decide_eq_true h⟩
  · simp only [Bool.and_eq_true, decide_eq_true_eq] at h
    exact Or.inl h.2

theorem isNaN_of_below {m n : Number} (h : m.below n = true) :
    m.isNaN = false ∧ n.isNaN = false := by
  unfold below at h
  split at h
  · exact ⟨rfl, rfl⟩
  · simp only [Bool.and_eq_true, Bool.not_eq_true'] at h
    exact h.1

/-- Two integers of different places are in order, by `Binary64.rankOfInt_mono`. -/
theorem below_of_place_lt {m n : Number} (hm : m.isNaN = false) (hn : n.isNaN = false)
    (h : m.place < n.place) : m.below n = true := by
  unfold below
  split
  · next i j =>
    by_contra hc
    have hji : j ≤ i := by
      simp only [decide_eq_true_eq] at hc
      omega
    -- two integers that are not in order have places that are not in order either
    have := Binary64.rankOfInt_mono hji
    simp only [place] at h
    omega
  · simp [hm, hn, h]

theorem place_le_of_below {m n : Number} (h : m.below n = true) : m.place ≤ n.place := by
  rcases below_cases h with hlt | ⟨i, j, rfl, rfl, hij⟩
  · exact Int.le_of_lt hlt
  · exact Binary64.rankOfInt_mono (Int.le_of_lt hij)

theorem below_irrefl (m : Number) : m.below m = false := by
  cases m <;> simp [below]

theorem below_trans {l m n : Number} (h₁ : l.below m = true) (h₂ : m.below n = true) :
    l.below n = true := by
  have hl := (isNaN_of_below h₁).1
  have hn := (isNaN_of_below h₂).2
  -- one step that raises the place raises it for good; otherwise all three are integers
  rcases below_cases h₁ with hlt | ⟨i, j, rfl, rfl, hij⟩
  · exact below_of_place_lt hl hn (Int.lt_of_lt_of_le hlt (place_le_of_below h₂))
  · rcases below_cases h₂ with hlt | ⟨j', k, hj, rfl, hjk⟩
    · exact below_of_place_lt hl hn (Int.lt_of_le_of_lt (place_le_of_below h₁) hlt)
    · obtain rfl := Number.int.inj hj
      exact decide_eq_true (Int.lt_trans hij hjk)

end Number

namespace Cell

/-- What it takes for a cell to be below another. -/
theorem less_cases {a b : Cell} (h : a.less b = true) :
    (∃ s t, a = time s ∧ b = time t ∧ s.nanos < t.nanos) ∨
      ∃ m n, a.number? = some m ∧ b.number? = some n ∧ m.below n = true := by
  unfold less at h
  split at h
  · next s t => exact Or.inl ⟨s, t, rfl, rfl, of_decide_eq_true h⟩
  · split at h
    · next m n hm hn => exact Or.inr ⟨m, n, hm, hn, h⟩
    · simp at h

theorem less_of_number? {a b : Cell} {m n : Number} (ha : a.number? = some m)
    (hb : b.number? = some n) : a.less b = m.below n := by
  unfold less
  split
  · simp [number?] at ha
  · rw [ha, hb]

/-- **No cell is below itself.** -/
theorem less_irrefl (a : Cell) : a.less a = false := by
  by_contra h
  rcases less_cases (Bool.eq_true_of_not_eq_false h) with ⟨s, t, hs, ht, hlt⟩ | ⟨m, n, hm, hn, hb⟩
  · rw [hs] at ht
    obtain rfl := Cell.time.inj ht
    omega
  · obtain rfl := Option.some.inj (hm.symm.trans hn)
    simp [Number.below_irrefl] at hb

/-- **The order of cells is transitive**, also where integers and doubles meet. -/
theorem less_trans {a b c : Cell} (h₁ : a.less b = true) (h₂ : b.less c = true) :
    a.less c = true := by
  rcases less_cases h₁ with ⟨s, t, rfl, rfl, hst⟩ | ⟨l, m, hl, hm, hlm⟩
  · rcases less_cases h₂ with ⟨t', u, ht, rfl, htu⟩ | ⟨m, n, hm, -, -⟩
    · obtain rfl := Cell.time.inj ht
      simp only [less, decide_eq_true_eq]
      omega
    · simp [number?] at hm
  · rcases less_cases h₂ with ⟨t, u, rfl, -, -⟩ | ⟨m', n, hm', hn, hmn⟩
    · simp [number?] at hm
    · obtain rfl := Option.some.inj (hm.symm.trans hm')
      rw [less_of_number? hl hn]
      exact Number.below_trans hlm hmn

end Cell

end PlotGrammar
