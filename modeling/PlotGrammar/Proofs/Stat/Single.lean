import PlotGrammar.Proofs.Number.Whole
import PlotGrammar.Proofs.Stat.Grouping

/-!
# Reducing single cells

What a group is reduced to is one cell of a column. To reduce a column of such cells once more, each
of them by itself, is to ask which reductions give single cells back.

* `Stat.Admits` says what cells there are in a column of results, by the type it is stored as, and
  `Stat.Grouping.reducedColumn_reducedColumn` that storing results twice is storing them once.
* Extremes give back what they gave (`Stat.fixes_champion`), and so do means and medians
  (`Stat.fixes_mean`, `Stat.fixes_median`). Means of timestamps are counts that doubles hold
  (`Stat.Computed`), which the passage through doubles does not change.
* Sums give back what they gave but for three sorts of cells (`Stat.exists_sum_single`,
  `Stat.sum_missing`): a missing sum becomes zero, a timestamp has no sum, and a truth value becomes
  the integer it is equal to.
-/

namespace PlotGrammar

namespace Stat

/-! ### How results are stored -/

/-- What the type of a column of results says about its cells. -/
def Admits (source : ColumnType) (cells : List Cell) : ColumnType → Prop
  | .float => ∀ c ∈ cells, c.isMissing = false → c.isNumber = true
  | .int => (∀ c ∈ cells, c.isInt = true) ∧ Word.fit (ColumnType.integers cells) = true
  | .nullableInt => source = .nullableInt ∧ ∀ c ∈ cells, (c.isInt || c.isMissing) = true
  | .bool => ∀ c ∈ cells, c.isBool = true
  | .text => (∃ c ∈ cells, c.isMissing = false) ∧
      ∀ c ∈ cells, c.isMissing = false → c.isText = true
  | .time unit => (∀ c ∈ cells, c.isMissing = false → c.isTime = true) ∧
      (∃ c ∈ cells, c.isMissing = false) ∧
        unit = ColumnType.timeUnit (cells.filter fun c => !c.isMissing)
  | .object => (∃ c ∈ cells, c.isMissing = false ∧ c.isTime = false) ∧
      ((∃ c ∈ cells, c.isMissing = false ∧ c.isNumber = false) ∨ ∃ c ∈ cells, c.isInt = true)

/-- The type of cells says what they are, if any of them holds something. -/
theorem admits_ofCells (source : ColumnType) {cells : List Cell}
    (hpresent : ∃ c ∈ cells, c.isMissing = false) :
    Admits source cells (ColumnType.ofCells cells) := by
  obtain ⟨c₀, hc₀, hm₀⟩ := hpresent
  -- the inference looks at the cells that are there only
  have hmem : ∀ c, c ∈ cells.filter (fun c => !c.isMissing) ↔ c ∈ cells ∧ c.isMissing = false := by
    intro c
    rw [List.mem_filter, Bool.not_eq_true']
  have hall : ∀ p : Cell → Bool, (cells.filter fun c => !c.isMissing).all p = true →
      ∀ c ∈ cells, c.isMissing = false → p c = true := fun p h c hc hm =>
    List.all_eq_true.1 h c ((hmem c).2 ⟨hc, hm⟩)
  have hsome : ∀ p : Cell → Bool, ¬ (cells.filter fun c => !c.isMissing).all p = true →
      ∃ c ∈ cells, c.isMissing = false ∧ p c = false := by
    intro p h
    obtain ⟨c, hc, hp⟩ := List.all_eq_false.1 (Bool.eq_false_iff.2 h)
    obtain ⟨hc, hm⟩ := (hmem c).1 hc
    exact ⟨c, hc, hm, Bool.eq_false_iff.2 hp⟩
  unfold ColumnType.ofCells
  dsimp only
  split
  · next hnone =>
    have hnil := List.isEmpty_iff.1 hnone
    exact absurd ((hmem c₀).2 ⟨hc₀, hm₀⟩) (hnil ▸ List.not_mem_nil)
  split
  · next hbools => exact List.all_eq_true.1 hbools
  split
  · next hnumbers =>
    split
    · next hunfit =>
      -- only integers can be too large for words
      have hints : ColumnType.integers (cells.takeWhile fun c => !c.isMissing) ≠ [] := by
        intro hnil
        rw [hnil] at hunfit
        exact absurd hunfit (by decide)
      obtain ⟨i, hi⟩ := List.exists_mem_of_ne_nil _ hints
      obtain ⟨c, hc, hci⟩ := List.mem_filterMap.1 hi
      have hc := (List.takeWhile_sublist _).subset hc
      cases c with
      | int j => exact ⟨⟨_, hc, rfl, rfl⟩, Or.inr ⟨_, hc, rfl⟩⟩
      | _ => cases hci
    · next hfit =>
      split
      · next hints =>
        have hints := List.all_eq_true.1 hints
        refine ⟨hints, ?_⟩
        have hself : cells.takeWhile (fun c => !c.isMissing) = cells := by
          refine List.takeWhile_eq_self_iff.2 fun c hc => ?_
          have hint := hints c hc
          cases c with
          | int i => rfl
          | _ => cases hint
        rw [hself] at hfit
        simpa using hfit
      · exact hall _ hnumbers
  -- cells that are not all numbers are texts, times, or a mixture
  · next hnumbers =>
    split
    · next htexts => exact ⟨⟨c₀, hc₀, hm₀⟩, hall _ htexts⟩
    split
    · next htimes => exact ⟨hall _ htimes, ⟨c₀, hc₀, hm₀⟩, rfl⟩
    · next htimes => exact ⟨hsome _ htimes, Or.inl (hsome _ hnumbers)⟩

/-- The type that results are stored as says what they are. -/
theorem admits_ofResults (source : ColumnType) (cells : List Cell) :
    Admits source cells (Column.ofResults source cells).type := by
  unfold Column.ofResults
  split
  · next h => exact ⟨h.1, List.all_eq_true.1 h.2⟩
  -- otherwise the type is the one its cells infer, which admits them when one is there
  · by_cases hpresent : ∃ c ∈ cells, c.isMissing = false
    · have hadmits := admits_ofCells source hpresent
      obtain ⟨c, hc, hm⟩ := hpresent
      have hsome : cells.all Cell.isMissing = false :=
        List.all_eq_false.2 ⟨c, hc, Bool.eq_false_iff.1 hm⟩
      unfold Column.ofCells
      rw [hsome]
      split
      · next hfloat => exact hfloat ▸ hadmits
      · next hobject => exact hobject ▸ hadmits
      · exact hadmits
    · -- cells that are all missing are stored as doubles
      have hall : ∀ c ∈ cells, c.isMissing = true := fun c hc =>
        Bool.not_eq_false _ ▸ fun hm => hpresent ⟨c, hc, hm⟩
      have hempty : (cells.filter fun c => !c.isMissing).isEmpty = true := by
        rw [List.isEmpty_iff, List.filter_eq_nil_iff]
        intro c hc
        rw [hall c hc]
        exact Bool.false_ne_true
      have htype : ColumnType.ofCells cells = .object := if_pos hempty
      unfold Column.ofCells
      rw [htype, List.all_eq_true.2 hall]
      intro c hc hm
      rw [hall c hc] at hm
      cases hm

/-- Cells of no column of nullable integers are stored as such. -/
theorem type_ofCells_ne_nullableInt (cells : List Cell) (numeric : Bool) :
    (Column.ofCells cells numeric).type ≠ .nullableInt := by
  have hcells : ColumnType.ofCells cells ≠ .nullableInt := by
    unfold ColumnType.ofCells
    dsimp only
    repeat' split
    all_goals exact ColumnType.noConfusion
  unfold Column.ofCells
  split
  · exact ColumnType.noConfusion
  · split <;> exact ColumnType.noConfusion
  · exact hcells

/-- The type that results are stored as is stored as itself. -/
theorem type_ofResults_ofResults (source : ColumnType) (cells : List Cell) :
    (Column.ofResults (Column.ofResults source cells).type cells).type =
      (Column.ofResults source cells).type := by
  by_cases hnullable : source = .nullableInt ∧ (cells.all fun c => c.isInt || c.isMissing) = true
  · obtain ⟨rfl, hall⟩ := hnullable
    have hsame : (Column.ofResults .nullableInt cells).type = .nullableInt := by
      unfold Column.ofResults
      rw [if_pos ⟨rfl, hall⟩]
    rw [hsame, hsame]
  · have hsame : Column.ofResults source cells = Column.ofCells cells true := if_neg hnullable
    rw [hsame]
    unfold Column.ofResults
    rw [if_neg fun h => type_ofCells_ne_nullableInt cells true h.1]

namespace Grouping

variable (type : ColumnType) (results : List Cell)

theorem type_reducedColumn :
    (reducedColumn type results).type =
      (Column.ofResults type (reducedColumn type results).cells).type := rfl

/-- Among doubles there are no integers left. -/
theorem isInt_of_reducedColumn (h : (reducedColumn type results).type = .float) :
    ∀ c ∈ (reducedColumn type results).cells, c.isInt = false := by
  unfold reducedColumn at h ⊢
  dsimp only at h ⊢
  split
  · intro c hc
    obtain ⟨r, -, rfl⟩ := List.mem_map.1 hc
    cases r with
    | int i =>
      change (Column.floatCell (.int i)).isInt = false
      unfold Column.floatCell Cell.ofFloat
      split
      · split <;> rfl
      · rfl
    | _ => rfl
  · next hfloat =>
    rw [if_neg hfloat] at h
    exact absurd h hfloat

/-- **Storing results twice is storing them once.** -/
theorem reducedColumn_reducedColumn :
    reducedColumn (reducedColumn type results).type (reducedColumn type results).cells =
      reducedColumn type results := by
  have htype := type_ofResults_ofResults type (reducedColumn type results).cells
  rw [← type_reducedColumn] at htype
  have hints := isInt_of_reducedColumn type results
  generalize reducedColumn type results = column at htype hints
  obtain ⟨t, cells⟩ := column
  dsimp only at htype hints
  have hstored : (if (Column.ofResults t cells).type = .float then
      cells.map (Column.storeCell .float) else cells) = cells := by
    rw [htype]
    split
    · next hfloat =>
      -- doubles are stored as they are
      refine (List.map_congr_left fun c hc => ?_).trans (List.map_id cells)
      have hint := hints hfloat c hc
      cases c with
      | int i => cases hint
      | _ => rfl
    · rfl
  unfold reducedColumn
  dsimp only
  rw [hstored, htype]

/-- Results without integers are stored as they are. -/
theorem cells_reducedColumn_of_isInt {results : List Cell} (h : ∀ c ∈ results, c.isInt = false) :
    (reducedColumn type results).cells = results := by
  unfold reducedColumn
  dsimp only
  split
  · refine (List.map_congr_left fun c hc => ?_).trans (List.map_id results)
    have hint := h c hc
    cases c with
    | int i => cases hint
    | _ => rfl
  · rfl

end Grouping

/-! ### Extremes -/

/-- A reduction gives back every cell of a column, if it is given this cell alone. -/
def Fixes (reduce : Aggregator) (column : Column) : Prop :=
  ∀ c ∈ column.cells, reduce ⟨column.type, [c]⟩ = .ok c

/-- The cells are results of a reduction, for columns of one type. -/
def Results (reduce : Aggregator) (type : ColumnType) (results : List Cell) : Prop :=
  ∀ r ∈ results, ∃ cells, reduce ⟨type, cells⟩ = .ok r

section Champion

variable {wins : Cell → Cell → Except Fault Bool} {column : Column} {c : Cell}

/-- Nothing stands for a missing cell but the cell that is empty. -/
def IsProper (c : Cell) : Prop :=
  c.isMissing = true → c = .missing

theorem isProper_of_champion (h : Aggregate.champion wins column = .ok c) : IsProper c := by
  unfold Aggregate.champion at h
  cases hp : Aggregate.present column with
  | nil =>
    rw [hp] at h
    cases h
    exact fun _ => rfl
  | cons first rest =>
    rw [hp] at h
    have hpresent : ∀ c ∈ first :: rest, c.isMissing = false := by
      intro c hc
      have hm := (List.mem_filter.1 (hp ▸ hc : c ∈ Aggregate.present column)).2
      simpa using hm
    -- the best cell so far is one of those that hold something
    have hbest : c.isMissing = false := by
      refine foldlM_induction (P := fun c => Cell.isMissing c = false)
        (fun best c next hc hbest hstep => ?_) (hpresent first List.mem_cons_self) h
      obtain ⟨won, -, hstep⟩ := bind_eq_ok.1 hstep
      cases hstep
      split
      · exact hpresent c (List.mem_cons_of_mem _ hc)
      · exact hbest
    intro hm
    rw [hbest] at hm
    cases hm

theorem champion_single (type : ColumnType) (hc : IsProper c) :
    Aggregate.champion wins ⟨type, [c]⟩ = .ok c := by
  unfold Aggregate.champion Aggregate.present
  cases hm : c.isMissing with
  | true =>
    rw [hc hm]
    rfl
  | false =>
    rw [List.filter_cons_of_pos (by rw [hm]; rfl)]
    rfl

/-- Storing a result as a double leaves nothing but empty cells for missing ones. -/
theorem isProper_storeCell (type : ColumnType) (hc : IsProper c) :
    IsProper (Column.storeCell type c) := by
  unfold Column.storeCell
  split
  · unfold Column.floatCell
    split
    · next x _ =>
      unfold Cell.ofFloat
      split
      · exact fun _ => rfl
      · next hx => exact fun hm => absurd hm hx
    · exact fun _ => rfl
  · exact hc

/-- **An extreme is its own extreme.** -/
theorem fixes_champion {type : ColumnType} {results : List Cell}
    (h : Results (Aggregate.champion wins) type results) :
    Fixes (Aggregate.champion wins) (Grouping.reducedColumn type results) := by
  intro c hc
  refine champion_single _ ?_
  have hproper : ∀ r ∈ results, IsProper r := fun r hr =>
    (h r hr).elim fun _ hr => isProper_of_champion hr
  unfold Grouping.reducedColumn at hc
  dsimp only at hc
  split at hc
  · obtain ⟨r, hr, rfl⟩ := List.mem_map.1 hc
    exact isProper_storeCell _ (hproper r hr)
  · exact hproper c hc

end Champion

/-! ### Means and medians -/

/-- What a mean or a median of a column can be: a double, or a timestamp whose count was read off a
double, or nothing. -/
def Computed : ColumnType → Cell → Prop
  | .time unit, c => c = .missing ∨
      ∃ n : Int, Binary64.Spelled n.natAbs ∧ c = .time (.ofCount unit n)
  | _, c => c = .missing ∨ ∃ x, Binary64.isNaN x = false ∧ c = .float x

theorem computed_missing (type : ColumnType) : Computed type .missing := by
  cases type <;> exact Or.inl rfl

theorem computed_ofFloat {type : ColumnType} (h : ∀ unit, type ≠ .time unit) (x : Float) :
    Computed type (.ofFloat x) := by
  have hcell : Cell.ofFloat x = .missing ∨
      ∃ y, Binary64.isNaN y = false ∧ Cell.ofFloat x = .float y := by
    unfold Cell.ofFloat
    split
    · exact Or.inl rfl
    · next hx => exact Or.inr ⟨x, Bool.eq_false_iff.2 hx, rfl⟩
  cases type with
  | time unit => exact absurd rfl (h unit)
  | _ => exact hcell

theorem computed_ofDouble (type : ColumnType) (x : Float) :
    Computed type (Aggregate.ofDouble type x) := by
  unfold Aggregate.ofDouble
  split
  · cases htruncate : Binary64.truncate? x with
    | none => exact Or.inl rfl
    | some n => exact Or.inr ⟨n, Binary64.spelled_of_truncate? htruncate, rfl⟩
  · next hother => exact computed_ofFloat hother x

theorem computed_of_mean {type : ColumnType} {cells : List Cell} {c : Cell}
    (h : Aggregate.mean ⟨type, cells⟩ = .ok c) : Computed type c := by
  unfold Aggregate.mean at h
  dsimp only at h
  split at h
  · next hobject =>
    -- means of objects are doubles
    have hother : ∀ unit, type ≠ .time unit := by
      intro unit htime
      rw [hobject] at htime
      cases htime
    unfold Aggregate.objectMean at h
    obtain ⟨total, -, h⟩ := bind_eq_ok.1 h
    extract_lets -underBinder afterTest at h
    split at h
    · dsimp only [afterTest] at h
      split at h
      · cases h
        exact computed_missing type
      · obtain ⟨x, -, h⟩ := bind_eq_ok.1 h
        cases h
        exact computed_ofFloat hother _
    · cases h
  · obtain ⟨xs, -, h⟩ := bind_eq_ok.1 h
    split at h <;> cases h
    · exact computed_missing type
    · exact computed_ofDouble type _
    · exact computed_ofDouble type _

theorem computed_of_median {type : ColumnType} {cells : List Cell} {c : Cell}
    (h : Aggregate.median ⟨type, cells⟩ = .ok c) : Computed type c := by
  unfold Aggregate.median at h
  obtain ⟨xs, -, h⟩ := bind_eq_ok.1 h
  dsimp only at h
  split at h <;> cases h
  · exact computed_missing type
  · exact computed_ofDouble type _

section Doubles

variable {type : ColumnType} {c : Cell} {x? : Option Float}

/-- The mean of a single cell is made of the double that stands for it. -/
theorem mean_single (htype : type ≠ .object) (h : Aggregate.doubles ⟨type, [c]⟩ = .ok [x?]) :
    Aggregate.mean ⟨type, [c]⟩ = .ok (x?.elim .missing (Aggregate.ofDouble type)) := by
  unfold Aggregate.mean
  rw [if_neg htype, h]
  cases x? <;> rfl

/-- So is its median. -/
theorem median_single (h : Aggregate.doubles ⟨type, [c]⟩ = .ok [x?]) :
    Aggregate.median ⟨type, [c]⟩ = .ok (x?.elim .missing (Aggregate.ofDouble type)) := by
  have hsorted : ([x?].filterMap id).mergeSort Binary64.le = x?.toList := by
    cases x? with
    | none => exact List.mergeSort_nil
    | some x => exact List.mergeSort_singleton x
  unfold Aggregate.median
  rw [h]
  simp only [bind, Except.bind]
  rw [hsorted]
  cases x? with
  | none => rfl
  | some x =>
    -- a single double is the middle one
    simp [pure, Except.pure]

end Doubles

/-- A single cell is made of the double that stands for it. -/
def Restored (type : ColumnType) (c : Cell) : Prop :=
  type ≠ .object ∧ ∃ x?, Aggregate.doubles ⟨type, [c]⟩ = .ok [x?] ∧
    x?.elim .missing (Aggregate.ofDouble type) = c

theorem restored_missing {type : ColumnType} (hobject : type ≠ .object) (htext : type ≠ .text) :
    Restored type .missing := by
  refine ⟨hobject, none, ?_, rfl⟩
  cases type with
  | object => exact absurd rfl hobject
  | text => exact absurd rfl htext
  | _ => rfl

/-- A double stands for itself. -/
theorem doubles_float {x : Float} (hx : Binary64.isNaN x = false) :
    Aggregate.doubles ⟨.float, [.float x]⟩ = .ok [some x] := by
  change ([Cell.float x].mapM fun c => if c.isMissing then .ok none else
    (Aggregate.double c).map some) = _
  have hm : (Cell.float x).isMissing = false := hx
  rw [List.mapM_cons, hm]
  rfl

theorem ofFloat_of_isNaN {x : Float} (hx : Binary64.isNaN x = false) :
    Cell.ofFloat x = .float x :=
  if_neg (hx ▸ Bool.false_ne_true)

theorem restored_float {x : Float} (hx : Binary64.isNaN x = false) :
    Restored .float (.float x) :=
  ⟨ColumnType.noConfusion, some x, doubles_float hx, ofFloat_of_isNaN hx⟩

/-- A timestamp is restored if its count is one that a double holds. -/
theorem restored_time {unit : TimeUnit} {t : Timestamp}
    (hspelled : Binary64.Spelled (t.count unit).natAbs)
    (ht : Timestamp.ofCount unit (t.count unit) = t) :
    Restored (.time unit) (.time t) := by
  refine ⟨ColumnType.noConfusion, some (Float.ofInt (t.count unit)), rfl, ?_⟩
  change (Binary64.truncate? (Float.ofInt (t.count unit))).elim Cell.missing _ = _
  rw [Binary64.truncate?_ofInt hspelled]
  exact congrArg Cell.time ht

/-- Counting in another unit loses nothing where the unit is made for the timestamps. -/
theorem restored_ofCount {source unit : TimeUnit} {n : Int} (hspelled : Binary64.Spelled n.natAbs)
    (hmicro : unit = .micro → (Timestamp.ofCount source n).nanos % 1000 = 0)
    (hnano : unit = .nano → source = .nano) :
    Restored (.time unit) (.time (.ofCount source n)) := by
  cases unit with
  -- a count in the unit of the column is stored as it is
  | nano =>
    obtain rfl := hnano rfl
    have hcount := Timestamp.count_ofCount .nano n
    refine restored_time ?_ ?_
    · rw [hcount]
      exact hspelled
    · rw [hcount]
  | micro =>
    cases source with
    | micro =>
      have hcount := Timestamp.count_ofCount .micro n
      refine restored_time ?_ ?_
      · rw [hcount]
        exact hspelled
      · rw [hcount]
    | nano =>
      -- a thousandth of the count is whole
      obtain ⟨q, hq⟩ := Int.dvd_of_emod_eq_zero (hmicro rfl)
      have hn : n = q * 1000 := by
        have hnanos : (Timestamp.ofCount .nano n).nanos = n := Int.mul_one n
        omega
      have hsame : Timestamp.ofCount .nano n = Timestamp.ofCount .micro q := by
        rw [hn]
        exact congrArg Timestamp.mk (Int.mul_one _)
      have hcount := Timestamp.count_ofCount .micro q
      rw [hsame]
      refine restored_time ?_ ?_
      · rw [hcount]
        refine Binary64.Spelled.of_thousands ?_
        rw [hn, Int.natAbs_mul] at hspelled
        exact hspelled
      · rw [hcount]

/-- The unit of timestamps is fine only if one of them is, and coarse only if none is. -/
theorem nanos_of_timeUnit {cells : List Cell} (h : ColumnType.timeUnit cells = .micro)
    {t : Timestamp} (ht : Cell.time t ∈ cells) : t.nanos % 1000 = 0 := by
  unfold ColumnType.timeUnit at h
  dsimp only at h
  split at h
  · cases h
  · next hfine =>
    simpa using List.any_eq_false.1 (Bool.eq_false_iff.2 hfine) _ ht

theorem exists_of_timeUnit {cells : List Cell} (h : ColumnType.timeUnit cells = .nano) :
    ∃ t, Cell.time t ∈ cells ∧ t.nanos % 1000 ≠ 0 := by
  unfold ColumnType.timeUnit at h
  dsimp only at h
  split at h
  · next hfine =>
    obtain ⟨c, hc, hfine⟩ := List.any_eq_true.1 hfine
    cases c with
    | time t => exact ⟨t, hc, by simpa using hfine⟩
    | _ => cases hfine
  · cases h

/-- Doubles are restored, however they are stored. -/
theorem restored_of_floats {source type : ColumnType} {cells : List Cell}
    (hfloats : ∀ c ∈ cells, c = .missing ∨ ∃ x, Binary64.isNaN x = false ∧ c = .float x)
    (h : Admits source cells type) : ∀ c ∈ cells, Restored type c := by
  have hnoInt : ∀ c ∈ cells, c.isInt = false := by
    intro c hc
    rcases hfloats c hc with rfl | ⟨x, -, rfl⟩ <;> rfl
  have hnumber : ∀ c ∈ cells, c.isMissing = false → ∃ x, c = .float x := by
    intro c hc hm
    rcases hfloats c hc with rfl | ⟨x, -, rfl⟩
    · cases hm
    · exact ⟨x, rfl⟩
  intro c hc
  cases type with
  | float =>
    rcases hfloats c hc with rfl | ⟨x, hx, rfl⟩
    · exact restored_missing ColumnType.noConfusion ColumnType.noConfusion
    · exact restored_float hx
  | nullableInt =>
    rcases hfloats c hc with rfl | ⟨x, hx, rfl⟩
    · exact restored_missing ColumnType.noConfusion ColumnType.noConfusion
    · have hmissing : Binary64.isNaN x = true := h.2 _ hc
      rw [hx] at hmissing
      cases hmissing
  -- no other type admits a double
  | int => exact absurd (h.1 c hc) (hnoInt c hc ▸ Bool.false_ne_true)
  | bool =>
    have hbool := h c hc
    rcases hfloats c hc with rfl | ⟨x, -, rfl⟩ <;> cases hbool
  | text =>
    obtain ⟨⟨d, hd, hm⟩, htext⟩ := h
    obtain ⟨x, rfl⟩ := hnumber d hd hm
    cases htext _ hd hm
  | time unit =>
    obtain ⟨htime, ⟨d, hd, hm⟩, -⟩ := h
    obtain ⟨x, rfl⟩ := hnumber d hd hm
    cases htime _ hd hm
  | object =>
    -- objects are mixed, or too large integers are among them
    rcases h.2 with ⟨d, hd, hm, hother⟩ | ⟨d, hd, hint⟩
    · obtain ⟨x, rfl⟩ := hnumber d hd hm
      cases hother
    · exact absurd hint (hnoInt d hd ▸ Bool.false_ne_true)

/-- Timestamps whose counts doubles hold are restored, however they are stored. -/
theorem restored_of_times {unit : TimeUnit} {type : ColumnType} {cells : List Cell}
    (htimes : ∀ c ∈ cells, c = .missing ∨
      ∃ n : Int, Binary64.Spelled n.natAbs ∧ c = .time (.ofCount unit n))
    (h : Admits (.time unit) cells type) : ∀ c ∈ cells, Restored type c := by
  -- a cell that is there is a time, so a type that holds none has no such cell
  have hpresent : ∀ c ∈ cells, c.isMissing = false → ∃ t, c = .time t := by
    intro c hc hm
    rcases htimes c hc with rfl | ⟨n, -, rfl⟩
    · cases hm
    · exact ⟨_, rfl⟩
  intro c hc
  cases type with
  | float =>
    rcases htimes c hc with rfl | ⟨n, -, rfl⟩
    · exact restored_missing ColumnType.noConfusion ColumnType.noConfusion
    · cases h _ hc rfl
  | nullableInt => exact ColumnType.noConfusion h.1
  | int =>
    have hint := h.1 c hc
    rcases htimes c hc with rfl | ⟨n, -, rfl⟩ <;> cases hint
  | bool =>
    have hbool := h c hc
    rcases htimes c hc with rfl | ⟨n, -, rfl⟩ <;> cases hbool
  | text =>
    obtain ⟨⟨d, hd, hm⟩, htext⟩ := h
    obtain ⟨t, rfl⟩ := hpresent d hd hm
    cases htext _ hd hm
  -- a column of times is of the coarsest unit its cells need
  | time unit' =>
    obtain ⟨-, -, hunit⟩ := h
    rcases htimes c hc with rfl | ⟨n, hspelled, rfl⟩
    · exact restored_missing ColumnType.noConfusion ColumnType.noConfusion
    refine restored_ofCount hspelled (fun hmicro => ?_) fun hnano => ?_
    · exact nanos_of_timeUnit (hunit.symm.trans hmicro) (List.mem_filter.2 ⟨hc, rfl⟩)
    · -- microseconds are coarse
      obtain ⟨t, ht, hfine⟩ := exists_of_timeUnit (hunit.symm.trans hnano)
      cases unit with
      | nano => rfl
      | micro =>
        rcases htimes _ (List.mem_filter.1 ht).1 with hmissing | ⟨m, -, hm⟩
        · cases hmissing
        · cases hm
          exact absurd (Int.mul_emod_left m 1000) hfine
  | object =>
    obtain ⟨⟨d, hd, hm, hother⟩, -⟩ := h
    obtain ⟨t, rfl⟩ := hpresent d hd hm
    cases hother

/-- **Means and medians are restored**, however they are stored. -/
theorem restored_of_computed {source type : ColumnType} {cells : List Cell}
    (hcomputed : ∀ c ∈ cells, Computed source c) (h : Admits source cells type) :
    ∀ c ∈ cells, Restored type c := by
  cases source with
  | time unit => exact restored_of_times hcomputed h
  | _ => exact restored_of_floats hcomputed h

/-- A mean or a median is no integer. -/
theorem isInt_of_computed {type : ColumnType} {c : Cell} (h : Computed type c) :
    c.isInt = false := by
  cases type with
  | time unit => rcases h with rfl | ⟨n, -, rfl⟩ <;> rfl
  | _ => rcases h with rfl | ⟨x, -, rfl⟩ <;> rfl

/-- What is computed with doubles is restored where it is stored. -/
theorem restored_reducedColumn {type : ColumnType} {results : List Cell}
    (h : ∀ r ∈ results, Computed type r) :
    ∀ c ∈ (Grouping.reducedColumn type results).cells,
      Restored (Grouping.reducedColumn type results).type c := by
  have hsame := Grouping.cells_reducedColumn_of_isInt type fun r hr => isInt_of_computed (h r hr)
  have hadmits := admits_ofResults type (Grouping.reducedColumn type results).cells
  rw [← Grouping.type_reducedColumn] at hadmits
  rw [hsame] at hadmits ⊢
  exact restored_of_computed h hadmits

/-- **A mean is its own mean.** -/
theorem fixes_mean {type : ColumnType} {results : List Cell}
    (h : Results Aggregate.mean type results) :
    Fixes Aggregate.mean (Grouping.reducedColumn type results) := by
  intro c hc
  obtain ⟨hobject, x?, hdoubles, hc⟩ := restored_reducedColumn
    (fun r hr => (h r hr).elim fun _ hr => computed_of_mean hr) c hc
  rw [mean_single hobject hdoubles, hc]

/-- **A median is its own median.** -/
theorem fixes_median {type : ColumnType} {results : List Cell}
    (h : Results Aggregate.median type results) :
    Fixes Aggregate.median (Grouping.reducedColumn type results) := by
  intro c hc
  obtain ⟨-, x?, hdoubles, hc⟩ := restored_reducedColumn
    (fun r hr => (h r hr).elim fun _ hr => computed_of_median hr) c hc
  rw [median_single hdoubles, hc]

/-! ### Sums -/

/-- Sums of nullable integers are words. -/
theorem isWord_wrap (unsigned : Bool) (i : Int) :
    (Word.isSigned (Word.wrap unsigned i) || Word.isUnsigned (Word.wrap unsigned i)) = true := by
  unfold Word.isSigned Word.isUnsigned
  simp only [Bool.or_eq_true, Bool.and_eq_true, decide_eq_true_eq]
  cases unsigned with
  | true => exact Or.inr ⟨Int.emod_nonneg i (by decide), Int.emod_lt_of_pos i (by decide)⟩
  | false =>
    have hspan : 0 < Word.span.toNat := by decide
    exact Or.inl ⟨Int.le_bmod hspan, Int.bmod_lt hspan⟩

/-- Integers that fit together are words. -/
theorem isWord_of_fit {cells : List Cell} (h : Word.fit (ColumnType.integers cells) = true)
    {i : Int} (hi : Cell.int i ∈ cells) : (Word.isSigned i || Word.isUnsigned i) = true := by
  have hmem : i ∈ ColumnType.integers cells := List.mem_filterMap.2 ⟨_, hi, rfl⟩
  unfold Word.fit at h
  rw [Bool.or_eq_true] at h ⊢
  exact h.imp (fun h => List.all_eq_true.1 h i hmem) fun h => List.all_eq_true.1 h i hmem

/-- What sums hold is what their column stores. -/
theorem stores_of_sum {type : ColumnType} {results : List Cell}
    (h : Results Aggregate.sum type results) :
    ∀ c ∈ (Grouping.reducedColumn type results).cells, c.isMissing = false →
      (Grouping.reducedColumn type results).type.stores c = true := by
  have hints := Grouping.isInt_of_reducedColumn type results
  have hadmits := admits_ofResults type (Grouping.reducedColumn type results).cells
  rw [← Grouping.type_reducedColumn] at hadmits
  -- among nullable integers nothing looks at the size of a sum, which is cut to a word before
  have hwords : type = .nullableInt → ∀ c ∈ (Grouping.reducedColumn type results).cells,
      ColumnType.nullableInt.stores c = true := by
    rintro rfl
    have hsums : ∀ r ∈ results, ∃ unsigned i, r = .int (Word.wrap unsigned i) := by
      intro r hr
      obtain ⟨cells, hr⟩ := h r hr
      exact ⟨_, _, (Except.ok.inj hr).symm⟩
    rw [Grouping.cells_reducedColumn_int _ fun r hr => by
      obtain ⟨unsigned, i, rfl⟩ := hsums r hr
      rfl]
    intro r hr
    obtain ⟨unsigned, i, rfl⟩ := hsums r hr
    exact isWord_wrap unsigned i
  generalize Grouping.reducedColumn type results = column at hints hadmits hwords
  obtain ⟨t, cells⟩ := column
  dsimp only at hints hadmits hwords ⊢
  intro c hc hm
  -- what is stored under a type is admitted by it, so each cell is of the sort the type stores
  cases t with
  | float =>
    have hnumber := hadmits c hc hm
    have hint := hints rfl c hc
    cases c with
    | float x => rfl
    | int i => cases hint
    | _ => cases hnumber
  | int =>
    have hint := hadmits.1 c hc
    cases c with
    | int i => exact isWord_of_fit hadmits.2 hc
    | _ => cases hint
  | nullableInt => exact hwords hadmits.1 c hc
  | bool =>
    have hbool := hadmits c hc
    cases c with
    | bool b => rfl
    | _ => cases hbool
  | text =>
    have htext := hadmits.2 c hc hm
    cases c with
    | text s => rfl
    | _ => cases htext
  | time unit =>
    have htime := hadmits.1 c hc hm
    cases c with
    | time t => rfl
    | _ => cases htime
  | object => rfl

/-- A word does not run over. -/
theorem wrap_of_isWord {i : Int} (h : (Word.isSigned i || Word.isUnsigned i) = true) :
    Word.wrap (!Word.isSigned i) i = i := by
  unfold Word.wrap
  cases hsigned : Word.isSigned i with
  | true =>
    unfold Word.isSigned at hsigned
    simp only [Bool.and_eq_true, decide_eq_true_eq] at hsigned
    rw [Bool.not_true, if_neg Bool.false_ne_true]
    exact Int.bmod_eq_of_le hsigned.1 hsigned.2
  | false =>
    rw [hsigned, Bool.false_or] at h
    unfold Word.isUnsigned at h
    simp only [Bool.and_eq_true, decide_eq_true_eq] at h
    rw [Bool.not_false, if_pos rfl]
    exact Int.emod_eq_of_lt h.1 h.2

theorem sum_word {type : ColumnType} {i : Int} (htype : type = .int ∨ type = .nullableInt)
    (h : (Word.isSigned i || Word.isUnsigned i) = true) :
    Aggregate.sum ⟨type, [.int i]⟩ = .ok (.int i) := by
  have hwrap : Word.wrap (Column.isUnsigned ⟨type, [.int i]⟩) (0 + i) = i := by
    have hunsigned : Column.isUnsigned ⟨type, [.int i]⟩ = !Word.isSigned i :=
      congrArg not (Bool.and_true _)
    rw [hunsigned, Int.zero_add, wrap_of_isWord h]
  rcases htype with rfl | rfl <;> exact congrArg (fun i => Except.ok (Cell.int i)) hwrap

/-- **A sum is its own sum**, if it is not missing and not a timestamp. A truth value is summed to
the integer it is equal to. -/
theorem exists_sum_single {type : ColumnType} {c : Cell} (hstores : type.stores c = true)
    (hm : c.isMissing = false) (htime : ∀ unit, type ≠ .time unit) :
    ∃ r, Aggregate.sum ⟨type, [c]⟩ = .ok r ∧ r.key = c.key ∧
      (type = .bool → r.isInt = true) ∧ (type ≠ .bool → r = c) := by
  -- a sum that gives the cell back settles every type but that of truth values
  have hsame : Aggregate.sum ⟨type, [c]⟩ = .ok c → type ≠ .bool →
      ∃ r, Aggregate.sum ⟨type, [c]⟩ = .ok r ∧ r.key = c.key ∧
        (type = .bool → r.isInt = true) ∧ (type ≠ .bool → r = c) := fun h hbool =>
    ⟨c, h, rfl, fun h => absurd h hbool, fun _ => rfl⟩
  cases type with
  | float =>
    cases c with
    | float x =>
      refine hsame ?_ ColumnType.noConfusion
      change (Aggregate.doubles ⟨.float, [.float x]⟩).map _ = _
      rw [doubles_float hm]
      change Except.ok (Cell.ofFloat (Sum.total [x])) = _
      rw [Sum.total_singleton, ofFloat_of_isNaN hm]
    | missing => cases hm
    | _ => cases hstores
  | int =>
    cases c with
    | int i => exact hsame (sum_word (Or.inl rfl) hstores) ColumnType.noConfusion
    | _ => cases hstores
  | nullableInt =>
    cases c with
    | int i => exact hsame (sum_word (Or.inr rfl) hstores) ColumnType.noConfusion
    | missing => cases hm
    | _ => cases hstores
  -- a truth value is summed to an integer, which has the same key
  | bool =>
    cases c with
    | bool b => exact ⟨_, rfl, by cases b <;> rfl, fun _ => rfl, fun h => absurd rfl h⟩
    | _ => cases hstores
  | text =>
    cases c with
    | text s =>
      refine hsame ?_ ColumnType.noConfusion
      have hjoin : String.join [s] = s := String.empty_append
      exact congrArg (fun s => Except.ok (Cell.text s)) hjoin
    | missing => cases hm
    | _ => cases hstores
  | time unit => exact absurd rfl (htime unit)
  | object =>
    refine hsame ?_ ColumnType.noConfusion
    change Aggregate.objectSum [c] = .ok c
    unfold Aggregate.objectSum
    rw [List.map_singleton, hm]
    rfl

/-- **A missing cell is summed to zero.** -/
theorem sum_missing {type : ColumnType} {c : Cell} (hm : c.isMissing = true)
    (htime : ∀ unit, type ≠ .time unit) :
    Aggregate.sum ⟨type, [c]⟩ = .ok (.int 0) ∨ Aggregate.sum ⟨type, [c]⟩ = .ok (.float 0) := by
  -- nothing is there to be added, and what is missing among doubles and objects counts as zero
  have hnone : Aggregate.present ⟨type, [c]⟩ = [] := by
    unfold Aggregate.present
    rw [List.filter_cons_of_neg (by rw [hm]; exact Bool.false_ne_true)]
    rfl
  have hnoWord : Word.wrap (Column.isUnsigned ⟨type, [c]⟩) 0 = 0 := by
    cases Column.isUnsigned ⟨type, [c]⟩ <;> rfl
  unfold Aggregate.sum
  rw [hnone]
  cases type with
  | float =>
    have hdoubles : Aggregate.doubles ⟨.float, [c]⟩ = .ok [none] := by
      change ([c].mapM fun c => if c.isMissing then .ok none else
        (Aggregate.double c).map some) = _
      rw [List.mapM_cons, hm]
      rfl
    dsimp only
    rw [hdoubles]
    refine Or.inr ?_
    change Except.ok (Cell.ofFloat (Sum.total [0])) = _
    rw [Sum.total_singleton, ofFloat_of_isNaN (by decide +kernel)]
  -- a sum of integers starts from zero, and is cut to a word only after that
  | int | nullableInt => exact Or.inl (congrArg (fun i => Except.ok (Cell.int i)) hnoWord)
  | bool | text => exact Or.inl rfl
  | time unit => exact absurd rfl (htime unit)
  | object =>
    refine Or.inl ?_
    change Aggregate.objectSum [c] = _
    unfold Aggregate.objectSum
    rw [List.map_singleton, hm]
    rfl

end Stat

end PlotGrammar
