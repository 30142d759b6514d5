import PlotGrammar.Proofs.Stat.Sampling

/-!
# How keys are stored

Beside bins and curves, a group column of objects has one way to store all of its keys
(`KeyStore.ofAmounts`). Keys that are amounts of several sorts become integers or doubles
(`KeyStore.ofAmounts_cases`). Unmixed keys are stored as they are (`Stat.storedKeys_of_unmixed`), in
particular copies of one key (`KeyStore.unmixed_replicate`).
-/

namespace PlotGrammar

namespace Stat

namespace KeyStore

/-- Whether a key stands for an amount, or is missing. -/
def isAmount (c : Cell) : Bool :=
  c.isMissing || c.isBool || c.isNumber

/-- Keys of one sort, or with one among them that is no amount. They are stored as they are. -/
inductive Unmixed (keys : List Cell) : Prop
  | apart {c : Cell} (hc : c ∈ keys) (h : isAmount c = false)
  | truths (h : ∀ c ∈ keys, c.isBool = true)
  | wholes (h : ∀ c ∈ keys, c.isInt = true)
  | doubles (h : ∀ c ∈ keys, c = .missing ∨ ∃ x, Binary64.isNaN x = false ∧ c = .float x)
  | absent (h : ∀ c ∈ keys, c.isMissing = true)

theorem unmixed_replicate (n : Nat) (c : Cell) : Unmixed (List.replicate n c) := by
  have hall : ∀ {p : Cell → Prop}, p c → ∀ c' ∈ List.replicate n c, p c' := by
    intro p h c' hc'
    rwa [List.eq_of_mem_replicate hc']
  cases n with
  | zero => exact .truths fun c hc => absurd hc List.not_mem_nil
  | succ n =>
    cases c with
    | missing => exact .absent (hall rfl)
    | bool b => exact .truths (hall rfl)
    | int i => exact .wholes (hall rfl)
    | float x =>
      by_cases hx : Binary64.isNaN x = true
      · exact .absent (hall hx)
      · exact .doubles (hall (Or.inr ⟨x, Bool.eq_false_iff.2 hx, rfl⟩))
    | text | time | compound => exact .apart List.mem_cons_self rfl

theorem ofNumbers_eq_kept {keys : List Cell} (h : (∃ c ∈ keys, isAmount c = false) ∨
    (∀ c ∈ keys, c.isBool = true) ∨ ∀ c ∈ keys, c.isMissing = true) : ofNumbers keys = kept := by
  unfold ofNumbers
  split
  · next hfloat =>
    obtain ⟨⟨c, hc, hm⟩, hnumbers, -⟩ := ColumnType.ofCells_eq_float hfloat
    rcases h with ⟨c', hc', hamount⟩ | hbools | hmissing
    · -- a cell that is no amount is neither missing nor a number
      unfold isAmount at hamount
      simp only [Bool.or_eq_false_iff] at hamount
      exact absurd (hnumbers c' hc' hamount.1.1) (hamount.2 ▸ Bool.false_ne_true)
    · have hnumber := hnumbers c hc hm
      have hbool := hbools c hc
      cases c with
      | bool b => cases hnumber
      | _ => cases hbool
    · rw [hmissing c hc] at hm
      cases hm
  · rfl

/-- Keys that are not stored as they are are amounts of several sorts, and become integers if all of
them are integers or truth values, else doubles. -/
theorem ofAmounts_cases (keys : List Cell) :
    ofAmounts keys = kept ∨
      (∀ c ∈ keys, isAmount c = true) ∧ (∃ c ∈ keys, c.isBool = false) ∧
        (∃ c ∈ keys, c.isMissing = false) ∧
        (ofAmounts keys = whole ∧ (∀ c ∈ keys, (Aggregate.wholeCell? c).isSome = true) ∨
          ofAmounts keys = double ∧ ∃ c ∈ keys, Aggregate.wholeCell? c = none) := by
  -- the test that sends keys to the rule for numbers is that nothing is mixed
  have htest : (!keys.all isAmount || keys.all Cell.isBool || keys.all Cell.isMissing) = true ↔
      (∃ c ∈ keys, isAmount c = false) ∨ (∀ c ∈ keys, c.isBool = true) ∨
        ∀ c ∈ keys, c.isMissing = true := by
    simp [or_assoc]
  have hof : ofAmounts keys =
      if !keys.all isAmount || keys.all Cell.isBool || keys.all Cell.isMissing then ofNumbers keys
      else if (keys.filterMap Aggregate.wholeCell?).length = keys.length then whole
      else double := rfl
  rw [hof]
  split
  · next hkept => exact Or.inl (ofNumbers_eq_kept (htest.1 hkept))
  · next hmixed =>
    rw [htest] at hmixed
    push Not at hmixed
    simp only [ne_eq, Bool.not_eq_false, Bool.not_eq_true] at hmixed
    obtain ⟨hamounts, hbool, hpresent⟩ := hmixed
    refine Or.inr ⟨hamounts, hbool, hpresent, ?_⟩
    split
    · next hwhole => exact Or.inl ⟨rfl, List.filterMap_length_eq_length.1 hwhole⟩
    · next hwhole =>
      rw [List.filterMap_length_eq_length] at hwhole
      push Not at hwhole
      obtain ⟨c, hc, hnone⟩ := hwhole
      exact Or.inr ⟨rfl, c, hc, by simpa using hnone⟩

/-- **Unmixed keys are stored as they are.** -/
theorem Unmixed.map_cell {keys : List Cell} (h : Unmixed keys) :
    keys.map (ofAmounts keys).cell = keys := by
  have hsame : ∀ store : KeyStore, (∀ c ∈ keys, store.cell c = c) → keys.map store.cell = keys :=
    fun store hcell => (List.map_congr_left hcell).trans (List.map_id keys)
  rcases ofAmounts_cases keys with hkept | ⟨hamounts, ⟨c, hc, hbool⟩, ⟨d, hd, hpresent⟩, hstore⟩
  · rw [hkept]
    exact List.map_id keys
  · -- the keys are amounts of several sorts, which leaves integers and doubles
    -- of each sort of keys that are alike, either the case is impossible or each cell is kept
    cases h with
    | apart hc h => exact absurd (hamounts _ hc) (h ▸ Bool.false_ne_true)
    | truths h => exact absurd (h c hc) (hbool ▸ Bool.false_ne_true)
    | absent h => exact absurd (h d hd) (hpresent ▸ Bool.false_ne_true)
    | wholes h =>
      rcases hstore with ⟨hwhole, -⟩ | ⟨-, e, he, hnone⟩
      · rw [hwhole]
        refine hsame _ fun e he => ?_
        have hint := h e he
        cases e with
        | int i => rfl
        | _ => cases hint
      · have hint := h e he
        cases e with
        | int i => cases hnone
        | _ => cases hint
    | doubles h =>
      rcases hstore with ⟨-, hwhole⟩ | ⟨hdouble, -⟩
      · have hsome := hwhole d hd
        rcases h d hd with rfl | ⟨x, -, rfl⟩ <;> cases hsome
      · rw [hdouble]
        refine hsame _ fun e he => ?_
        rcases h e he with rfl | ⟨x, hx, rfl⟩
        · rfl
        · exact if_neg (hx ▸ Bool.false_ne_true)

end KeyStore

/-- A column of unmixed keys stores them as they are. -/
theorem storedKeys_of_unmixed {column : Column} {cells : List Cell}
    (h : column.type = .object → KeyStore.Unmixed cells) :
    storedKeys .ofAmounts column cells = ⟨keyType column cells, cells⟩ := by
  have hcells : cells.map (KeyStore.ofColumn .ofAmounts column cells).cell = cells := by
    unfold KeyStore.ofColumn
    split
    · next hobject => exact (h hobject).map_cell
    · exact List.map_id cells
  unfold storedKeys
  dsimp only
  rw [hcells]

end Stat

end PlotGrammar
