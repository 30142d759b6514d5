import PlotGrammar.Proofs.Number.Rounding
import PlotGrammar.Proofs.Outcome
import PlotGrammar.Stat.Histogram

/-!
# What bins hold

A value is counted in a bin if it lies between the edges of the bin. The edges are rounded, so it is
not clear that every value has a bin, nor that no value has two.

* No value is counted twice: `Histogram.total_count` says that the counts of the bins add up to the
  number of values that some bin holds.
* `Histogram.Sound` says of edges that a value has a bin exactly if it lies between the first and
  the last edge. Edges that are numbers and ascend are sound, and so are those of a range that is
  wider than any finite number, where no bin holds anything. All edges that are made are sound
  (`Histogram.sound_edges`).
* The edges of equal parts begin and end where the values do (`Histogram.within_edges_of_count`).
  For edges on a grid this is not so: the first one may be rounded up.
-/

namespace PlotGrammar

open Binary64

namespace Binary64

theorem le_iff {x y : Float} :
    le x y = true ↔ isNaN x = false ∧ isNaN y = false ∧ rank x ≤ rank y := by
  unfold le
  rw [Bool.and_eq_true, Bool.and_eq_true, Bool.not_eq_true', Bool.not_eq_true', decide_eq_true_eq,
    and_assoc]

theorem lt_iff {x y : Float} :
    lt x y = true ↔ isNaN x = false ∧ isNaN y = false ∧ rank x < rank y := by
  unfold lt
  rw [Bool.and_eq_true, Bool.and_eq_true, Bool.not_eq_true', Bool.not_eq_true', decide_eq_true_eq,
    and_assoc]

/-- Numbers that are not below each other are in order. -/
theorem le_of_not_lt {x y : Float} (hx : isNaN x = false) (hy : isNaN y = false)
    (h : lt y x = false) : le x y = true := by
  refine le_iff.2 ⟨hx, hy, Int.not_lt.1 fun hlt => ?_⟩
  rw [lt_iff.2 ⟨hy, hx, hlt⟩] at h
  exact Bool.false_ne_true h.symm

end Binary64

namespace Histogram

variable {edges values : List Float} {v : Float}

/-! ### Counting -/

/-- Whether some bin between these edges holds a value. -/
def covers : List Float → Float → Bool
  | a :: b :: rest, v => holds rest.isEmpty a b v || covers (b :: rest) v
  | _, _ => false

theorem holds_iff {isLast : Bool} {a b : Float} :
    holds isLast a b v = true ↔
      le a v = true ∧ (lt v b = true ∨ isLast = true ∧ le v b = true) := by
  unfold holds
  rw [Bool.and_eq_true, Bool.or_eq_true, Bool.and_eq_true]
  rfl

/-- What a bin holds is not below the start of the bin. -/
theorem exists_start_of_covers (h : covers edges v = true) :
    ∃ a ∈ edges.dropLast, le a v = true := by
  induction edges with
  | nil => exact absurd h Bool.false_ne_true
  | cons a rest ih =>
    cases rest with
    | nil => exact absurd h Bool.false_ne_true
    | cons b rest =>
      rw [List.dropLast_cons_cons]
      rcases Bool.or_eq_true_iff.1 h with h | h
      · exact ⟨a, List.mem_cons_self, (holds_iff.1 h).1⟩
      · obtain ⟨c, hc, hle⟩ := ih h
        exact ⟨c, List.mem_cons_of_mem a hc, hle⟩

theorem countP_or {α : Type} {p q : α → Bool} {xs : List α}
    (h : ∀ x ∈ xs, p x = true → q x = false) :
    xs.countP (fun x => p x || q x) = xs.countP p + xs.countP q := by
  induction xs with
  | nil => rfl
  | cons x xs ih =>
    have hrest := ih fun y hy => h y (List.mem_cons_of_mem x hy)
    have hx := h x List.mem_cons_self
    rw [List.countP_cons, List.countP_cons, List.countP_cons, hrest]
    cases hp : p x with
    | true =>
      rw [hx hp]
      simp only [Bool.true_or, if_true, Bool.false_eq_true, if_false]
      omega
    | false =>
      rw [Bool.false_or]
      simp only [Bool.false_eq_true, if_false]
      omega

/-- A bin that is not the last holds nothing that a bin after it holds, if the starts of the bins do
not descend. -/
theorem covers_of_holds {a b : Float} {rest : List Float}
    (hstarts : ∀ c ∈ (b :: rest).dropLast.tail, lt c b = false)
    (h : holds rest.isEmpty a b v = true) : covers (b :: rest) v = false := by
  cases rest with
  | nil => rfl
  | cons c rest =>
    by_contra hcovers
    obtain ⟨p, hp, hle⟩ := exists_start_of_covers (Bool.not_eq_false _ ▸ hcovers)
    obtain ⟨hpnumber, -, hle⟩ := le_iff.1 hle
    have hbelow : lt v b = true := (holds_iff.1 h).2.resolve_right fun h => Bool.false_ne_true h.1
    obtain ⟨-, hbnumber, hlt⟩ := lt_iff.1 hbelow
    rw [List.dropLast_cons_cons] at hp hstarts
    rcases List.mem_cons.1 hp with rfl | hp
    · omega
    · have hdescends := hstarts p hp
      rw [lt_iff.2 ⟨hpnumber, hbnumber, by omega⟩] at hdescends
      exact Bool.false_ne_true hdescends.symm

/-- **No value is counted twice**, if the starts of the bins do not descend. -/
theorem total_count (h : edges.dropLast.Pairwise fun a b => lt b a = false) :
    total (count values edges) = values.countP (covers edges) := by
  -- induction on the edges: the first bin takes what the others do not
  induction edges with
  | nil => exact (List.countP_eq_zero.2 fun _ _ => Bool.false_ne_true).symm
  | cons a rest ih =>
    cases rest with
    | nil => exact (List.countP_eq_zero.2 fun _ _ => Bool.false_ne_true).symm
    | cons b rest =>
      rw [List.dropLast_cons_cons] at h
      have hrest := List.Pairwise.of_cons h
      -- later bins start at or above the end of the first one
      have hstarts : ∀ c ∈ (b :: rest).dropLast.tail, lt c b = false := by
        cases rest with
        | nil => exact fun c hc => absurd hc List.not_mem_nil
        | cons c rest =>
          rw [List.dropLast_cons_cons] at hrest ⊢
          exact fun c hc => List.rel_of_pairwise_cons hrest hc
      have hdisjoint := countP_or (p := holds rest.isEmpty a b)
        (q := covers (b :: rest)) fun v (_ : v ∈ values) => covers_of_holds hstarts
      change values.countP (holds rest.isEmpty a b) + total (count values (b :: rest)) = _
      rw [ih hrest, ← hdisjoint]
      rfl

/-! ### Between the first and the last edge -/

/-- Whether a value lies between the first and the last edge, of at least two. -/
def within : List Float → Float → Bool
  | first :: second :: rest, v => le first v && le v (rest.getLastD second)
  | _, _ => false

/-- Edges between which a value has a bin exactly if it lies between the first and the last one, and
then has only one. -/
structure Sound (edges : List Float) : Prop where
  starts : edges.dropLast.Pairwise fun a b => lt b a = false
  covers : ∀ v, isFinite v = true → covers edges v = within edges v

/-- The counts between sound edges add up to the number of values between the first and the last
one. -/
theorem Sound.total_count (h : Sound edges) (hvalues : ∀ v ∈ values, isFinite v = true) :
    total (count values edges) = values.countP (within edges) := by
  rw [Histogram.total_count h.starts]
  exact List.countP_congr fun v hv => by rw [h.covers v (hvalues v hv)]

/-- Numbers that ascend from one to the next ascend altogether. -/
theorem pairwise_of_ascending (hnumbers : ∀ e ∈ edges, isNaN e = false)
    (h : ascending edges = true) : edges.Pairwise fun a b => le a b = true := by
  induction edges with
  | nil => exact List.Pairwise.nil
  | cons a rest ih =>
    cases rest with
    | nil => exact List.pairwise_singleton _ _
    | cons b rest =>
      obtain ⟨hstep, hrest⟩ := Bool.and_eq_true_iff.1 h
      have hpairs := ih (fun e he => hnumbers e (List.mem_cons_of_mem a he)) hrest
      have hab : le a b = true :=
        le_of_not_lt (hnumbers a List.mem_cons_self)
          (hnumbers b (List.mem_cons_of_mem a List.mem_cons_self)) (Bool.not_eq_true' _ ▸ hstep)
      refine List.Pairwise.cons (fun c hc => ?_) hpairs
      rcases List.mem_cons.1 hc with rfl | hc
      · exact hab
      · obtain ⟨ha, -, hle⟩ := le_iff.1 hab
        obtain ⟨-, hc', hle'⟩ := le_iff.1 (List.rel_of_pairwise_cons hpairs hc)
        exact le_iff.2 ⟨ha, hc', Int.le_trans hle hle'⟩

/-- Numbers that ascend have a bin for every value between the first and the last one. -/
theorem covers_of_pairwise (h : edges.Pairwise fun a b => le a b = true) :
    covers edges v = within edges v := by
  induction edges with
  | nil => rfl
  | cons a rest ih =>
    cases rest with
    | nil => rfl
    | cons b rest =>
      have hab : le a b = true := List.rel_of_pairwise_cons h List.mem_cons_self
      obtain ⟨ha, hb, hle⟩ := le_iff.1 hab
      have hrest := ih h.of_cons
      rw [Bool.eq_iff_iff]
      cases rest with
      | nil =>
        -- the last bin holds its end, too
        change (holds true a b v || false) = true ↔ (le a v && le v b) = true
        rw [Bool.or_false, Bool.and_eq_true, holds_iff]
        refine and_congr_right fun _ => ⟨fun h => ?_, fun h => Or.inr ⟨rfl, h⟩⟩
        rcases h with hlt | ⟨-, hle⟩
        · obtain ⟨hv, -, hlt⟩ := lt_iff.1 hlt
          exact le_iff.2 ⟨hv, hb, Int.le_of_lt hlt⟩
        · exact hle
      | cons c rest =>
        have hlast : le b (rest.getLastD c) = true :=
          List.rel_of_pairwise_cons h.of_cons List.getLastD_mem_cons
        change (holds false a b v || covers (b :: c :: rest) v) = true ↔
          (le a v && le v ((c :: rest).getLastD b)) = true
        rw [hrest, List.getLastD_cons]
        change (holds false a b v || (le b v && le v (rest.getLastD c))) = true ↔ _
        rw [Bool.or_eq_true, Bool.and_eq_true, Bool.and_eq_true, holds_iff]
        constructor
        · -- a value of the first bin is below all other edges, a later one above the first edge
          rintro (⟨hav, hlt | hnone⟩ | ⟨hbv, hlast'⟩)
          · obtain ⟨hv, -, hlt⟩ := lt_iff.1 hlt
            obtain ⟨-, hlast', hle'⟩ := le_iff.1 hlast
            exact ⟨hav, le_iff.2 ⟨hv, hlast', Int.le_trans (Int.le_of_lt hlt) hle'⟩⟩
          · exact absurd hnone.1 Bool.false_ne_true
          · obtain ⟨-, hv, hle'⟩ := le_iff.1 hbv
            exact ⟨le_iff.2 ⟨ha, hv, Int.le_trans hle hle'⟩, hlast'⟩
        -- a value that is not in the first bin is not below its end
        · rintro ⟨hav, hlast'⟩
          obtain ⟨-, hv, -⟩ := le_iff.1 hav
          cases hlt : lt v b with
          | true => exact Or.inl ⟨hav, Or.inl rfl⟩
          | false => exact Or.inr ⟨le_of_not_lt hb hv hlt, hlast'⟩

theorem sound_of_numbers (hnumbers : ∀ e ∈ edges, isNaN e = false)
    (h : ascending edges = true) : Sound edges := by
  have hpairs := pairwise_of_ascending hnumbers h
  refine ⟨?_, fun v _ => covers_of_pairwise hpairs⟩
  refine (hpairs.sublist (List.dropLast_sublist edges)).imp fun hle => ?_
  obtain ⟨-, -, hle⟩ := le_iff.1 hle
  cases hlt : lt _ _ with
  | false => rfl
  | true =>
    obtain ⟨-, -, hlt⟩ := lt_iff.1 hlt
    omega

/-- A start that no finite value is above: it is no number, or above all finite ones. -/
def Unreached (a : Float) : Prop :=
  isNaN a = true ∨ rank a = topPlace

theorem Unreached.le_eq_false {a : Float} (h : Unreached a) (hv : isFinite v = true) :
    le a v = false := by
  cases hle : le a v with
  | false => rfl
  | true =>
    obtain ⟨hnumber, -, hle⟩ := le_iff.1 hle
    have hbound := (isFinite_iff_rank v).1 hv
    rcases h with h | h
    · rw [hnumber] at h
      exact absurd h Bool.false_ne_true
    · omega

/-- Bins that no finite value reaches hold none. -/
theorem sound_of_unreached (h : ∀ a ∈ edges.dropLast, Unreached a) : Sound edges := by
  refine ⟨?_, fun v hv => ?_⟩
  · -- all starts that are numbers stand in the same place
    refine List.pairwise_of_forall_mem_list fun a ha b hb => ?_
    cases hlt : lt b a with
    | false => rfl
    | true =>
      obtain ⟨hbnumber, hanumber, hlt⟩ := lt_iff.1 hlt
      rcases h a ha with ha' | ha'
      · rw [hanumber] at ha'
        exact absurd ha' Bool.false_ne_true
      · rcases h b hb with hb' | hb'
        · rw [hbnumber] at hb'
          exact absurd hb' Bool.false_ne_true
        · omega
  -- what lies in a bin lies above its start, which nothing reaches
  · have hcovers : covers edges v = false := by
      by_contra hcovers
      obtain ⟨a, ha, hle⟩ := exists_start_of_covers (Bool.not_eq_false _ ▸ hcovers)
      rw [(h a ha).le_eq_false hv] at hle
      exact Bool.false_ne_true hle
    rw [hcovers]
    -- so every bin is empty, and there is nothing to count
    cases edges with
    | nil => rfl
    | cons a rest =>
      cases rest with
      | nil => rfl
      | cons b rest =>
        have hmem : a ∈ (a :: b :: rest).dropLast := by
          rw [List.dropLast_cons_cons]
          exact List.mem_cons_self
        have hfirst := (h a hmem).le_eq_false hv
        change false = (le a v && _)
        rw [hfirst]
        rfl

/-! ### Equally many parts -/

section Parts

open Arithmetic (half ofInt)

/-- The ends of the bins of a range; a range of one point is widened. -/
def ends (low high : Float) : Float × Float :=
  if le high low && le low high then (low - half (ofInt 1), high + half (ofInt 1)) else (low, high)

theorem divided_eq (low high : Float) (n : Nat) :
    divided low high n = evenly (ends low high).1 (ends low high).2 n := by
  unfold divided ends
  change (if le high low && le low high then _ else _) = _
  split <;> rfl

theorem parts_half : parts (half (ofInt 1 : Float)) =
    Float.Model.UnpackedFloat.finite .positive (2 ^ 52) (-53) (Nat.two_pow_pos 52) := by rfl

theorem isFinite_half : isFinite (half (ofInt 1 : Float)) = true := by
  rw [isFinite_eq, parts_half]
  rfl

theorem units_two_pow {k : Nat} {e : Int} (h : 0 < 2 ^ k) :
    units (.finite .positive (2 ^ k) e h) = (2 ^ (k + (e + 1074).toNat) : Nat) :=
  congrArg _ (Nat.pow_add 2 k _).symm

theorem units_half : units (parts (half (ofInt 1 : Float))) = halfUnits := by
  have hexponent : 52 + (-53 + 1074 : Int).toNat = halfExponent := rfl
  rw [parts_half, units_two_pow, hexponent]
  rfl

section Ends

variable {low high : Float}

/-- Finite numbers whose difference is not far beyond the greatest number have a finite one. -/
theorem isFinite_sub_of_units {x y : Float} (hx : isFinite x = true) (hy : isFinite y = true)
    (h : (units (parts x) - units (parts y)).natAbs ≤ greatestUnits + halfUnits) :
    isFinite (x - y) = true := by
  rw [isFinite_iff_rank, rank_sub hx hy]
  exact natAbs_roundedUnits_lt h

/-- The point below the least value by a half. -/
theorem lowered (hlow : isFinite low = true) :
    isFinite (low - half (ofInt 1)) = true ∧ rank (low - half (ofInt 1)) ≤ rank low := by
  have hbound := (held_parts hlow).natAbs_units_le
  have hrank := rank_sub hlow isFinite_half
  rw [units_half] at hrank
  refine ⟨isFinite_sub_of_units hlow isFinite_half (by rw [units_half]; omega), ?_⟩
  rw [hrank, rank_eq_roundedUnits hlow]
  exact roundedUnits_mono (by omega)

/-- The point above the greatest value by a half. -/
theorem raised (hhigh : isFinite high = true) :
    isFinite (high + half (ofInt 1)) = true ∧ rank high ≤ rank (high + half (ofInt 1)) := by
  have hbound := (held_parts hhigh).natAbs_units_le
  have hrank := rank_add hhigh isFinite_half
  rw [units_half] at hrank
  refine ⟨?_, ?_⟩
  · rw [isFinite_iff_rank, hrank]
    exact natAbs_roundedUnits_lt (by omega)
  · rw [hrank, rank_eq_roundedUnits hhigh]
    exact roundedUnits_mono (by omega)

/-- The ends are finite, and hold the range between them. -/
theorem ends_spec (hlow : isFinite low = true) (hhigh : isFinite high = true) :
    isFinite (ends low high).1 = true ∧ isFinite (ends low high).2 = true ∧
      rank (ends low high).1 ≤ rank low ∧ rank high ≤ rank (ends low high).2 := by
  unfold ends
  split
  · exact ⟨(lowered hlow).1, (raised hhigh).1, (lowered hlow).2, (raised hhigh).2⟩
  · exact ⟨hlow, hhigh, Int.le_refl _, Int.le_refl _⟩

theorem place_parts {x : Float} (hx : isFinite x = true) : rank x = place (parts x) :=
  rank_eq_place (isNaN_of_isFinite hx)

/-- Widening a range of one point does not make it wider than any finite number. -/
theorem isFinite_ends_sub (hlow : isFinite low = true) (hhigh : isFinite high = true)
    (hle : rank low ≤ rank high) :
    isFinite ((ends low high).2 - (ends low high).1) = isFinite (high - low) := by
  unfold ends
  split
  · next hsame =>
    obtain ⟨hhl, hlh⟩ := Bool.and_eq_true_iff.1 hsame
    -- both ends are the same number, and are moved apart by a half on either side
    have hrank : rank low = rank high :=
      Int.le_antisymm hle (le_iff.1 hhl).2.2
    obtain ⟨hl, hlr⟩ := lowered hlow
    obtain ⟨hh, hhr⟩ := raised hhigh
    have hunits : units (parts low) = units (parts high) :=
      units_of_place (held_parts hlow) (held_parts hhigh)
        ((place_parts hlow).symm.trans (hrank.trans (place_parts hhigh)))
    have hnone : isFinite (high - low) = true :=
      isFinite_sub_of_units hhigh hlow (by rw [hunits]; omega)
    rw [hnone]
    dsimp only
    refine isFinite_sub_of_units hh hl ?_
    have hascend : units (parts (low - half (ofInt 1))) ≤
        units (parts (high + half (ofInt 1))) := by
      refine units_le_of_place_le (held_parts hl) (held_parts hh) ?_
      rw [← place_parts hl, ← place_parts hh]
      omega
    have hhalf := held_parts isFinite_half
    have hbound := (held_parts hl).natAbs_units_le
    have hbound' := (held_parts hh).natAbs_units_le
    -- of the two ends one is at most a half away from zero, on the other side
    rcases Int.lt_or_le (units (parts low)) 0 with hnegative | hpositive
    · have hnear : units (parts (high + half (ofInt 1))) ≤ units (parts (half (ofInt 1))) := by
        refine units_le_of_place_le (held_parts hh) hhalf ?_
        rw [← place_parts hh, ← place_parts isFinite_half, rank_add hhigh isFinite_half,
          rank_eq_roundedUnits isFinite_half]
        exact roundedUnits_mono (by omega)
      rw [units_half] at hnear
      omega
    · have hnear : units (parts (half (ofInt 1))).neg ≤ units (parts (low - half (ofInt 1))) := by
        refine units_le_of_place_le hhalf.neg (held_parts hl) ?_
        rw [← place_parts hl, rank_sub hlow isFinite_half, ← hhalf.neg.roundedUnits, units_neg]
        exact roundedUnits_mono (by omega)
      rw [units_neg, units_half] at hnear
      omega
  · rfl

end Ends

/-! ### Points -/

section Points

variable {low high : Float} {n i : Nat}

theorem arithmetic_ofNat (n : Nat) : (Arithmetic.ofNat n : Float) = Float.ofNat n := rfl

/-- Between ends that are finitely far from each other all points are numbers. -/
theorem isNaN_point (hlow : isFinite low = true) (hrange : isFinite (high - low) = true)
    (hi : i < n) (hn : n < 2 ^ 53) : isNaN (point low high n i) = false := by
  have hpos : 0 < n := Nat.lt_of_le_of_lt (Nat.zero_le i) hi
  have hi' : isFinite (Float.ofNat i) = true := isFinite_ofNat (Nat.lt_trans hi hn)
  have hstep : isFinite ((high - low) / Float.ofNat n) = true := isFinite_div_ofNat hrange hpos hn
  have hpart : isFinite (Float.ofNat i / Float.ofNat n) = true := isFinite_div_ofNat hi' hpos hn
  unfold point
  dsimp only
  rw [arithmetic_ofNat, arithmetic_ofNat]
  split
  · exact (isNaN_add hlow (isNaN_mul hpart hrange)).2
  · exact (isNaN_add hlow (isNaN_mul hi' hstep)).2

/-- The first point is the lower end. -/
theorem rank_point_zero (hlow : isFinite low = true) (hrange : isFinite (high - low) = true)
    (hpos : 0 < n) (hn : n < 2 ^ 53) : rank (point low high n 0) = rank low := by
  have hstep : isFinite ((high - low) / Float.ofNat n) = true := isFinite_div_ofNat hrange hpos hn
  unfold point
  dsimp only
  rw [arithmetic_ofNat, arithmetic_ofNat]
  split
  · exact rank_zero_mul_add (zero_div_ofNat hpos hn) hrange hlow
  · exact rank_zero_mul_add parts_zero hstep hlow

/-- Between ends that are further from each other than any finite number, no point is reached. -/
theorem unreached_point (hlow : isFinite low = true) (hhigh : isFinite high = true)
    (hle : rank low ≤ rank high) (hrange : isFinite (high - low) = false) (hi : i < n)
    (hn : n < 2 ^ 53) : Unreached (point low high n i) := by
  have hpos : 0 < n := Nat.lt_of_le_of_lt (Nat.zero_le i) hi
  -- the range is positive, so what it overflows to is the positive infinity
  have hunits : units (parts low) ≤ units (parts high) := by
    refine units_le_of_place_le (held_parts hlow) (held_parts hhigh) ?_
    rwa [← place_parts hlow, ← place_parts hhigh]
  have hinfinite : parts (high - low) = .infinity .positive := by
    have hparts := parts_of_infinite (isNaN_sub hhigh hlow) hrange
    have hrank := rank_infinity hparts
    cases hsign : sign (high - low) with
    | positive => rw [hparts, hsign]
    | negative =>
      -- the range is not below zero
      have hzero : roundedUnits 0 = 0 := by decide
      have hmono := roundedUnits_mono (show 0 ≤ units (parts high) - units (parts low) by omega)
      rw [hzero, ← rank_sub hhigh hlow, hrank, hsign] at hmono
      exact absurd hmono (by decide)
  have hstep := infinity_div_ofNat hinfinite hpos hn
  -- neither is the step zero, which would be replaced
  have hnonzero : Arithmetic.isZero ((high - low) / Float.ofNat n) = false := by
    have htop : rank ((high - low) / Float.ofNat n) = topPlace := rank_infinity hstep
    have hzero : rank (Arithmetic.zero : Float) = 0 := by decide
    unfold Arithmetic.isZero
    rw [Bool.and_eq_false_iff]
    refine Or.inl ?_
    cases hle : Arithmetic.le ((high - low) / Float.ofNat n) Arithmetic.zero with
    | false => rfl
    | true =>
      have hbelow := (le_iff.1 hle).2.2
      rw [htop, hzero] at hbelow
      exact absurd hbelow (by decide)
  unfold point
  dsimp only
  rw [arithmetic_ofNat, arithmetic_ofNat, hnonzero, if_neg Bool.false_ne_true]
  -- the first point is zero times an infinity, all others are infinities
  rcases Nat.eq_zero_or_pos i with rfl | hi'
  · exact Or.inl (isNaN_add_of_left (isNaN_zero_mul_infinity hstep))
  · have hproduct := ofNat_mul_infinity hstep hi' (Nat.lt_trans hi hn)
    exact Or.inr (rank_infinity (infinity_add hproduct hlow))

theorem dropLast_evenly (low high : Float) (n : Nat) :
    (evenly low high n).dropLast = (List.range n).map (point low high n) :=
  List.dropLast_concat

/-- The edges of equally many parts of a range are sound. -/
theorem sound_evenly (hlow : isFinite low = true) (hhigh : isFinite high = true)
    (hle : rank low ≤ rank high) (hn : n < 2 ^ 53) (h : ascending (evenly low high n) = true) :
    Sound (evenly low high n) := by
  cases hrange : isFinite (high - low) with
  | true =>
    refine sound_of_numbers (fun e he => ?_) h
    rcases List.mem_append.1 he with he | he
    · obtain ⟨i, hi, rfl⟩ := List.mem_map.1 he
      exact isNaN_point hlow hrange (List.mem_range.1 hi) hn
    · rw [List.mem_singleton.1 he]
      exact isNaN_of_isFinite hhigh
  | false =>
    refine sound_of_unreached fun a ha => ?_
    rw [dropLast_evenly] at ha
    obtain ⟨i, hi, rfl⟩ := List.mem_map.1 ha
    exact unreached_point hlow hhigh hle hrange (List.mem_range.1 hi) hn

theorem within_concat (first last : Float) (between : List Float) :
    within (first :: (between ++ [last])) v = (le first v && le v last) := by
  cases between with
  | nil => rfl
  | cons b rest =>
    change (le first v && le v ((rest ++ [last]).getLastD b)) = _
    rw [List.getLastD_concat]

/-- Equally many parts, at least one, of a range hold what is between its ends, unless the range is
wider than any finite number. Then they hold nothing. -/
theorem within_evenly (hlow : isFinite low = true) (hhigh : isFinite high = true)
    (hle : rank low ≤ rank high) (hpos : 0 < n) (hn : n < 2 ^ 53) (hv : isFinite v = true) :
    within (evenly low high n) v =
      (isFinite (high - low) && (le low v && le v high)) := by
  obtain ⟨k, rfl⟩ : ∃ k, n = k + 1 := ⟨n - 1, by omega⟩
  -- the first edge is computed like the others, and the last one is `high` itself
  have hfirst : evenly low high (k + 1) = point low high (k + 1) 0 ::
      (((List.range k).map fun i => point low high (k + 1) (i + 1)) ++ [high]) := by
    unfold evenly
    rw [List.range_succ_eq_map, List.map_cons, List.map_map]
    rfl
  rw [hfirst, within_concat]
  cases hrange : isFinite (high - low) with
  | true =>
    -- if the range is finite the first edge has the rank of `low`, so that it bounds the same
    -- numbers
    have hrank := rank_point_zero hlow hrange hpos hn
    have hnumber := isNaN_point hlow hrange hpos hn
    have hsame : le (point low high (k + 1) 0) v = le low v := by
      unfold Binary64.le
      rw [hrank, hnumber, isNaN_of_isFinite hlow]
    rw [hsame, Bool.true_and]
  | false =>
    -- otherwise the first edge is beyond all finite numbers
    rw [(unreached_point hlow hhigh hle hrange hpos hn).le_eq_false hv]
    rfl

end Points

end Parts

/-! ### Grids -/

section Grid

variable {low high width anchor start : Float} {steps : Nat}

/-- The edges on a grid are numbers. -/
theorem isNaN_gridFrom (hstart : isFinite start = true) (hwidth : isFinite width = true)
    (hsteps : steps < 2 ^ 53) : ∀ e ∈ gridFrom start high width steps, isNaN e = false := by
  have hgrid : ∀ i, i ≤ steps → isNaN (start + width * Arithmetic.ofNat i) = false := fun i hi =>
    (isNaN_add hstart
      (isNaN_mul hwidth (isFinite_ofNat (Nat.lt_of_le_of_lt hi hsteps)))).1
  have hedges : ∀ e ∈ (List.range (steps + 1)).map fun i => start + width * Arithmetic.ofNat i,
      isNaN e = false := by
    intro e he
    obtain ⟨i, hi, rfl⟩ := List.mem_map.1 he
    exact hgrid i (Nat.lt_succ_iff.1 (List.mem_range.1 hi))
  intro e he
  unfold gridFrom at he
  dsimp only at he
  split at he
  · rcases List.mem_append.1 he with he | he
    · exact hedges e he
    · rw [List.mem_singleton.1 he]
      exact (isNaN_add hwidth (hgrid steps (Nat.le_refl _))).2
  · exact hedges e he

/-- Where the steps of a grid can be counted, the grid starts at a finite number. -/
theorem isFinite_start (hwidth : isFinite width = true)
    (h : gridSteps low high width anchor = .ok (start, steps)) : isFinite start = true := by
  obtain ⟨below, -, h⟩ := bind_eq_ok.1 h
  obtain ⟨needed, hneeded, h⟩ := bind_eq_ok.1 h
  cases h
  -- only a finite quotient has a ceiling
  have hquotient :
      isFinite ((high - (anchor + Arithmetic.ofInt below * width)) / width) = true := by
    change (Option.elim (ceil? _) _ _) = _ at hneeded
    unfold ceil? at hneeded
    split at hneeded
    · next hfinite => exact hfinite
    · exact nomatch hneeded
  exact (isFinite_of_sub (isFinite_of_div hwidth hquotient)).2

end Grid

/-! ### The edges of a sample -/

/-- Keeping the better one of two numbers leads to the best of all. -/
theorem foldl_best {α β : Type} [LinearOrder β] (better : α → α → Bool) (key : α → β) (P : α → Prop)
    (hbetter : ∀ a b, P a → P b → (better a b = true ↔ key a < key b)) :
    ∀ (xs : List α) (x : α), (∀ y ∈ x :: xs, P y) →
      xs.foldl (fun m y => if better y m then y else m) x ∈ x :: xs ∧
        ∀ y ∈ x :: xs, key (xs.foldl (fun m y => if better y m then y else m) x) ≤ key y := by
  intro xs
  induction xs with
  | nil =>
    intro x _
    exact ⟨List.mem_cons_self, fun y hy => by rw [List.mem_singleton.1 hy]; exact le_rfl⟩
  | cons y ys ih =>
    intro x h
    have hx := h x List.mem_cons_self
    have hy := h y (List.mem_cons_of_mem x List.mem_cons_self)
    -- the better one of the first two is one of them, and no worse than either
    obtain ⟨z, hz, hmem, hzx, hzy⟩ : ∃ z, (if better y x then y else x) = z ∧ (z = x ∨ z = y) ∧
        key z ≤ key x ∧ key z ≤ key y := by
      cases hxy : better y x with
      | true => exact ⟨y, if_pos rfl, Or.inr rfl, le_of_lt ((hbetter y x hy hx).1 hxy), le_rfl⟩
      | false =>
        refine ⟨x, if_neg Bool.false_ne_true, Or.inl rfl, le_rfl, not_lt.1 fun hlt => ?_⟩
        rw [(hbetter y x hy hx).2 hlt] at hxy
        exact Bool.false_ne_true hxy.symm
    -- the rest of the list goes on from the better one
    have hheld : ∀ w ∈ z :: ys, P w := by
      intro w hw
      rcases List.mem_cons.1 hw with rfl | hw
      · rcases hmem with rfl | rfl
        · exact hx
        · exact hy
      · exact h w (List.mem_cons_of_mem x (List.mem_cons_of_mem y hw))
    obtain ⟨hbest, hle⟩ := ih z hheld
    rw [List.foldl_cons, hz]
    have hbetterz := hle z List.mem_cons_self
    refine ⟨?_, fun w hw => ?_⟩
    · rcases List.mem_cons.1 hbest with heq | hbest
      · rw [heq]
        rcases hmem with rfl | rfl
        · exact List.mem_cons_self
        · exact List.mem_cons_of_mem x List.mem_cons_self
      · exact List.mem_cons_of_mem x (List.mem_cons_of_mem y hbest)
    · rcases List.mem_cons.1 hw with rfl | hw
      · exact le_trans hbetterz hzx
      · rcases List.mem_cons.1 hw with rfl | hw
        · exact le_trans hbetterz hzy
        · exact hle w (List.mem_cons_of_mem z hw)

theorem lt_iff_rank {x y : Float} (hx : isFinite x = true) (hy : isFinite y = true) :
    lt x y = true ↔ rank x < rank y := by
  rw [lt_iff]
  exact ⟨fun h => h.2.2, fun h => ⟨isNaN_of_isFinite hx, isNaN_of_isFinite hy, h⟩⟩

section Range

open Arithmetic (least greatest)

variable {x : Float} {xs : List Float}

/-- The least number is one of the numbers, and not above any. -/
theorem least_spec (h : ∀ y ∈ x :: xs, isFinite y = true) :
    isFinite (least x xs) = true ∧ ∀ y ∈ x :: xs, rank (least x xs) ≤ rank y := by
  obtain ⟨hmem, hle⟩ := foldl_best lt rank (isFinite · = true)
    (fun _ _ ha hb => lt_iff_rank ha hb) xs x h
  exact ⟨h _ hmem, hle⟩

/-- The greatest number is one of the numbers, and not below any. -/
theorem greatest_spec (h : ∀ y ∈ x :: xs, isFinite y = true) :
    isFinite (greatest x xs) = true ∧ ∀ y ∈ x :: xs, rank y ≤ rank (greatest x xs) := by
  obtain ⟨hmem, hle⟩ := foldl_best (fun a b => lt b a) (fun a => -rank a) (isFinite · = true)
    (fun _ _ ha hb => (lt_iff_rank hb ha).trans Int.neg_lt_neg_iff.symm) xs x h
  exact ⟨h _ hmem, fun y hy => Int.neg_le_neg_iff.1 (hle y hy)⟩

end Range

variable {how : Binning Float} {n : Nat}

/-- **All edges that are laid are sound.** -/
theorem sound_edges (hwidth : ∀ w a, how = .width w a → isFinite w = true)
    (hvalues : ∀ v ∈ values, isFinite v = true) (hsteps : steps how values = .ok n)
    (hn : n < 2 ^ 53) (hedges : Histogram.edges how values = .ok edges)
    (hascend : ascending edges = true) : Sound edges := by
  -- without values the edges are those between zero and one
  cases values with
  | nil =>
    cases hedges
    refine sound_of_numbers (fun e he => ?_) hascend
    rcases List.mem_cons.1 he with rfl | he
    · decide
    · rw [List.mem_singleton.1 he]
      decide
  | cons v vs =>
    obtain ⟨hlow, hleast⟩ := least_spec hvalues
    obtain ⟨hhigh, hgreatest⟩ := greatest_spec hvalues
    -- edges by number are sound if they ascend, edges on a grid if they are numbers as well
    cases how with
    | count m =>
      cases hsteps
      cases hedges
      obtain ⟨hl, hh, hle, hge⟩ := ends_spec hlow hhigh
      have hrange := Int.le_trans (hleast v List.mem_cons_self) (hgreatest v List.mem_cons_self)
      rw [divided_eq] at hascend ⊢
      exact sound_evenly hl hh (by omega) hn hascend
    | width w a =>
      obtain ⟨⟨start, m⟩, hgrid, hsame⟩ := bind_eq_ok.1 hsteps
      cases hsame
      obtain ⟨grid, hgrid', hedges⟩ := bind_eq_ok.1 hedges
      cases hgrid.symm.trans hgrid'
      cases hedges
      have hw := hwidth w a rfl
      exact sound_of_numbers (isNaN_gridFrom (isFinite_start hw hgrid) hw hn) hascend

/-- **Equally many bins hold all values**, unless these are further from each other than any finite
number. -/
theorem within_edges_of_count {v : Float} {vs : List Float}
    (hvalues : ∀ x ∈ v :: vs, isFinite x = true) (hpos : 0 < n) (hn : n < 2 ^ 53)
    (hedges : Histogram.edges (.count n) (v :: vs) = .ok edges) :
    ∀ x ∈ v :: vs, within edges x =
      isFinite (Arithmetic.greatest v vs - Arithmetic.least v vs) := by
  intro x hx
  cases hedges
  obtain ⟨hlow, hleast⟩ := least_spec hvalues
  obtain ⟨hhigh, hgreatest⟩ := greatest_spec hvalues
  obtain ⟨hl, hh, hle, hge⟩ := ends_spec hlow hhigh
  have hxle := hleast x hx
  have hxge := hgreatest x hx
  have hxfinite := hvalues x hx
  have hxnumber := isNaN_of_isFinite hxfinite
  rw [divided_eq, within_evenly hl hh (by omega) hpos hn hxfinite,
    isFinite_ends_sub hlow hhigh (by omega),
    le_iff.2 ⟨isNaN_of_isFinite hl, hxnumber, by omega⟩,
    le_iff.2 ⟨hxnumber, isNaN_of_isFinite hh, by omega⟩]
  exact Bool.and_true _

end Histogram

end PlotGrammar
