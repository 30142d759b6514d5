import PlotGrammar.Proofs.Order
import PlotGrammar.Scale

/-!
# Domains in one piece

A scale is extended one cell after the other. What comes of it is stated here for the cells as a
whole.

* The levels of a discrete scale are the cells that were read with every later repetition removed
  (`ScaleState.foldl_addLevel_nil`); two cells repeat each other when they have one `Cell.key`.
* The range of any other scale is a least and a greatest of the cells, both among them
  (`ScaleState.spans_foldl_widen`). This needs no more of `Cell.less` than `Cell.less_irrefl` and
  `Cell.less_trans`: a cell that was not below an earlier minimum is not below a later one.

A `Reading` is what one call gives to a scale, and `Scale.Summarizes` says of a scale that it is
what a list of readings amounts to. `ScaleState.summarizes_freeze` joins the two sides.
`Scale.Holds` is membership in a domain, and every cell that was read is held by what came of it
(`Scale.Summarizes.holds`).
-/

namespace PlotGrammar

/-! ### Levels -/

/-- The cells of a list with every later repetition removed. -/
def firstSeen (cells : List Cell) : List Cell :=
  cells.eraseDupsBy fun d c => c.key == d.key

theorem firstSeen_cons (c : Cell) (cells : List Cell) :
    firstSeen (c :: cells) = c :: firstSeen (cells.filter fun d => !(c.key == d.key)) := by
  unfold firstSeen
  rw [List.eraseDupsBy_cons]
  congr 2
  refine List.filter_congr fun d _ => ?_
  cases c.key == d.key <;> rfl

theorem firstSeen_eq_nil {cells : List Cell} : firstSeen cells = [] ↔ cells = [] := by
  cases cells with
  | nil => simp [firstSeen]
  | cons c cells => simp [firstSeen_cons]

/-- Every cell has an equal one among those that were seen first. -/
theorem exists_mem_firstSeen {cells : List Cell} {c : Cell} (h : c ∈ cells) :
    ∃ l ∈ firstSeen cells, l.key = c.key := by
  -- `firstSeen` goes on with a filtered rest, so the induction is on the number of cells
  induction hn : cells.length using Nat.strong_induction_on generalizing cells with
  | _ n ih =>
    cases cells with
    | nil => simp at h
    | cons d rest =>
      rw [firstSeen_cons]
      by_cases hk : d.key = c.key
      · exact ⟨d, List.mem_cons_self, hk⟩
      · -- the cell is not removed with those that repeat `d`, so it is among fewer cells
        have hc : c ∈ rest.filter fun e => !(d.key == e.key) := by
          rcases List.mem_cons.1 h with rfl | h
          · exact absurd rfl hk
          · exact List.mem_filter.2 ⟨h, by simpa using hk⟩
        have hlt : (rest.filter fun e => !(d.key == e.key)).length < n := by
          have := List.length_filter_le (fun e => !(d.key == e.key)) rest
          rw [List.length_cons] at hn
          omega
        obtain ⟨l, hl, hkey⟩ := ih _ hlt hc rfl
        exact ⟨l, List.mem_cons_of_mem _ hl, hkey⟩

theorem mem_of_mem_firstSeen {cells : List Cell} {c : Cell} (h : c ∈ firstSeen cells) :
    c ∈ cells := by
  induction hn : cells.length using Nat.strong_induction_on generalizing cells with
  | _ n ih =>
    cases cells with
    | nil => simp [firstSeen] at h
    | cons d rest =>
      rw [firstSeen_cons] at h
      rcases List.mem_cons.1 h with rfl | h
      · exact List.mem_cons_self
      · have hlt : (rest.filter fun e => !(d.key == e.key)).length < n := by
          have := List.length_filter_le (fun e => !(d.key == e.key)) rest
          rw [List.length_cons] at hn
          omega
        exact List.mem_cons_of_mem _ (List.mem_filter.1 (ih _ hlt h rfl)).1

namespace ScaleState

/-- Adding cells one by one appends those that no level equals, the first of each. -/
theorem foldl_addLevel (levels cells : List Cell) :
    cells.foldl addLevel levels =
      levels ++ firstSeen (cells.filter fun c => !levels.any fun l => l.key == c.key) := by
  induction cells generalizing levels with
  | nil => simp [firstSeen]
  | cons c cells ih =>
    rw [List.foldl_cons, ih]
    by_cases h : levels.any (fun l => l.key == c.key) = true
    · have hadd : addLevel levels c = levels := by
        unfold addLevel
        rw [if_pos h]
      rw [hadd, List.filter_cons_of_neg (by simp [h])]
    · have hadd : addLevel levels c = levels ++ [c] := by
        unfold addLevel
        rw [if_neg h]
      rw [hadd, List.filter_cons_of_pos (by simpa using h), firstSeen_cons, List.filter_filter,
        List.append_assoc, List.singleton_append]
      -- a cell is new beside `levels ++ [c]` when it is new beside `levels` and differs from `c`
      congr 3
      refine List.filter_congr fun d _ => ?_
      rw [List.any_append, List.any_cons, List.any_nil, Bool.or_false, Bool.not_or, Bool.and_comm]

theorem foldl_addLevel_nil (cells : List Cell) : cells.foldl addLevel [] = firstSeen cells := by
  rw [foldl_addLevel, List.nil_append]
  congr 1
  exact List.filter_eq_self.2 fun c _ => by simp

end ScaleState

/-! ### Ranges -/

/-- A least and a greatest of some cells: both are among them, and no cell is outside. -/
structure Spans (low high : Cell) (cells : List Cell) : Prop where
  low_mem : low ∈ cells
  high_mem : high ∈ cells
  /-- No cell is below the least one. -/
  low_le : ∀ c ∈ cells, c.less low = false
  /-- No cell is above the greatest one. -/
  le_high : ∀ c ∈ cells, high.less c = false

theorem Spans.singleton (c : Cell) : Spans c c [c] where
  low_mem := List.mem_cons_self
  high_mem := List.mem_cons_self
  low_le := by simpa using Cell.less_irrefl c
  le_high := by simpa using Cell.less_irrefl c

/-- One more cell: an end that gives way to it was between it and the cells seen before. -/
theorem Spans.snoc {low high : Cell} {cells : List Cell} (h : Spans low high cells) (c : Cell) :
    Spans (if c.less low then c else low) (if high.less c then c else high) (cells ++ [c]) where
  low_mem := by
    split
    · exact List.mem_append_right _ List.mem_cons_self
    · exact List.mem_append_left _ h.low_mem
  high_mem := by
    split
    · exact List.mem_append_right _ List.mem_cons_self
    · exact List.mem_append_left _ h.high_mem
  low_le := by
    intro d hd
    rcases List.mem_append.1 hd with hd | hd
    · split
      · next hc =>
        -- a cell below the new least one would be below the one that gave way to it
        by_contra hdc
        have := Cell.less_trans (Bool.eq_true_of_not_eq_false hdc) hc
        rw [h.low_le d hd] at this
        exact Bool.false_ne_true this
      · exact h.low_le d hd
    · rw [List.mem_singleton.1 hd]
      split
      · exact Cell.less_irrefl c
      · next hc => exact Bool.eq_false_of_not_eq_true hc
  le_high := by
    intro d hd
    rcases List.mem_append.1 hd with hd | hd
    · split
      · next hc =>
        -- and so for the greatest one, from the other side
        by_contra hcd
        have := Cell.less_trans hc (Bool.eq_true_of_not_eq_false hcd)
        rw [h.le_high d hd] at this
        exact Bool.false_ne_true this
      · exact h.le_high d hd
    · rw [List.mem_singleton.1 hd]
      split
      · exact Cell.less_irrefl c
      · next hc => exact Bool.eq_false_of_not_eq_true hc

namespace ScaleState

theorem spans_foldl_widen_some {low high : Cell} {seen : List Cell} (h : Spans low high seen)
    (cells : List Cell) :
    ∃ low' high', cells.foldl widen (some (low, high)) = some (low', high') ∧
      Spans low' high' (seen ++ cells) := by
  induction cells generalizing low high seen with
  | nil => exact ⟨low, high, rfl, by rwa [List.append_nil]⟩
  | cons c cells ih =>
    obtain ⟨low', high', heq, hspans⟩ := ih (h.snoc c)
    refine ⟨low', high', heq, ?_⟩
    rwa [List.append_assoc, List.singleton_append] at hspans

/-- Widening by cells one by one gives a least and a greatest of them. -/
theorem spans_foldl_widen {cells : List Cell} (h : cells ≠ []) :
    ∃ low high, cells.foldl widen none = some (low, high) ∧ Spans low high cells := by
  cases cells with
  | nil => exact absurd rfl h
  | cons c cells => exact spans_foldl_widen_some (Spans.singleton c) cells

end ScaleState

/-! ### Cells and levels -/

theorem Cell.key_eq_time {c : Cell} {t : Timestamp} : c.key = .time t ↔ c = .time t := by
  constructor
  · intro h
    cases c with
    | time s => exact congrArg time (CellKey.time.inj h)
    | float x =>
      -- a double is a missing cell, a whole number or a fraction
      simp only [key] at h
      split at h
      · cases h
      · split at h
        · cases h
        · cases h
    | missing | bool | int | text | compound => cases h
  · rintro rfl
    rfl

theorem Column.level_time {column : Column} (h : column.type = .time .nano) (t : Timestamp) :
    column.level (.time t) = .int (t.count .nano) := by
  unfold level
  rw [h]

/-- All cells but timestamps in nanoseconds are levels themselves. -/
theorem Column.level_eq_self {column : Column} {c : Cell}
    (h : column.type = .time .nano → ∀ t, c ≠ .time t) : column.level c = c := by
  unfold level
  split
  · next t htype => exact absurd rfl (h htype t)
  · rfl

namespace ScaleState

/-- The cells of a column that belong on a scale of a kind: whatever is not missing, the finite
numbers it reads as, or the timestamps. -/
def measured (kind : ColumnKind) (column : Column) : List Cell :=
  match kind with
  | .discrete => column.cells.filter fun c => !c.isMissing
  | .continuous => column.amounts.filter Cell.isFinite
  | .temporal => column.times.filter fun c => !c.isMissing

/-- A scale uses the cells that belong on it, and takes their levels if it is discrete. -/
theorem usable_eq_ok {kind : ColumnKind} {column : Column} {cells : List Cell}
    (h : usable kind column = .ok cells) :
    cells = if kind = .discrete then (measured kind column).map column.level
      else measured kind column := by
  unfold usable at h
  split at h
  · split at h
    · exact (Except.ok.inj h).symm
    · exact nomatch h
  · exact (Except.ok.inj h).symm
  · exact (Except.ok.inj h).symm

end ScaleState

/-! ### Readings and what they amount to -/

/-- What a call gives to a scale: the kind of its column, and the cells it reads. -/
structure Reading where
  kind : ColumnKind
  cells : List Cell

/-- All cells of some readings, in the order in which they were read. -/
def Reading.all (readings : List Reading) : List Cell :=
  readings.flatMap Reading.cells

@[simp] theorem Reading.all_nil : Reading.all [] = [] := rfl

theorem Reading.all_cons (r : Reading) (readings : List Reading) :
    Reading.all (r :: readings) = r.cells ++ Reading.all readings := rfl

namespace ScaleState

/-- A scale, or the lack of one, after further readings. The first reading fixes the kind. -/
def grow (state : Option ScaleState) (readings : List Reading) : Option ScaleState :=
  readings.foldl (fun s r => some ((s.getD (empty r.kind)).extend r.cells)) state

@[simp] theorem grow_nil (state : Option ScaleState) : grow state [] = state := rfl

theorem grow_cons (state : Option ScaleState) (r : Reading) (readings : List Reading) :
    grow state (r :: readings) =
      grow (some ((state.getD (empty r.kind)).extend r.cells)) readings :=
  rfl

theorem grow_append (state : Option ScaleState) (rs ss : List Reading) :
    grow state (rs ++ ss) = grow (grow state rs) ss :=
  List.foldl_append

theorem grow_some (s : ScaleState) (readings : List Reading) :
    grow (some s) readings = some (s.extend (Reading.all readings)) := by
  induction readings generalizing s with
  | nil => rw [grow_nil, Reading.all_nil, extend_nil]
  | cons r readings ih =>
    rw [grow_cons, Option.getD_some, ih, Reading.all_cons, extend_append]

/-- From nothing, readings make the scale that is extended by all their cells at once. -/
theorem grow_none_cons (r : Reading) (readings : List Reading) :
    grow none (r :: readings) = some ((empty r.kind).extend (Reading.all (r :: readings))) := by
  rw [grow_cons, Option.getD_none, grow_some, ← extend_append]
  rfl

theorem grow_none_eq_none {readings : List Reading} :
    grow none readings = none ↔ readings = [] := by
  cases readings with
  | nil => simp
  | cons r readings => simp [grow_none_cons]

end ScaleState

namespace Scale

/-- Whether a cell lies in the domain of a scale: it equals a level, or it is neither below the
least nor above the greatest value. -/
def Holds (s : Scale) (c : Cell) : Prop :=
  match s.kind with
  | .discrete => ∃ l ∈ s.domain, l.key = c.key
  | _ => ∃ low high, s.domain = [low, high] ∧ c.less low = false ∧ high.less c = false

/-- A scale is what some readings amount to when they are taken together. -/
structure Summarizes (s : Scale) (readings : List Reading) : Prop where
  /-- Something was read. -/
  fed : readings ≠ []
  /-- All readings are of one kind. -/
  kind : ∀ r ∈ readings, r.kind = s.kind
  /-- Levels are the cells that were read, each where it was first seen. -/
  levels : s.kind = .discrete → s.domain = firstSeen (Reading.all readings)
  /-- A range goes from a least to a greatest of the cells that were read. -/
  range : s.kind ≠ .discrete → s.valid = true →
    ∃ low high, s.domain = [low, high] ∧ Spans low high (Reading.all readings)
  /-- Without cells the scale is not valid, and only then. -/
  invalid : s.valid = false ↔ Reading.all readings = []
  /-- A scale that is not valid has an empty domain. -/
  empty : s.valid = false → s.domain = []

/-- Every cell that was read lies in the domain. -/
theorem Summarizes.holds {s : Scale} {readings : List Reading} (h : s.Summarizes readings)
    {c : Cell} (hc : c ∈ Reading.all readings) : s.Holds c := by
  unfold Holds
  split
  · next hk =>
    rw [h.levels hk]
    exact exists_mem_firstSeen hc
  · next hk =>
    have hv : s.valid = true := by
      by_contra hv
      rw [h.invalid.1 (Bool.eq_false_of_not_eq_true hv)] at hc
      exact List.not_mem_nil hc
    obtain ⟨low, high, hd, hs⟩ := h.range hk hv
    exact ⟨low, high, hd, hs.low_le c hc, hs.le_high c hc⟩

end Scale

namespace ScaleState

/-- The domain that freezing gives is the one that all cells together have. -/
theorem summarizes_freeze (channel : Channel) (readings : List Reading) (s : ScaleState)
    (h : grow none readings = some s) (hk : ∀ r ∈ readings, r.kind = s.kind) :
    (s.freeze channel).Summarizes readings := by
  cases readings with
  | nil => simp at h
  | cons r rest =>
    rw [grow_none_cons] at h
    generalize hall : Reading.all (r :: rest) = cells at h
    obtain rfl := Option.some.inj h
    -- the kind never changes while cells are taken in
    have hkind : ((empty r.kind).extend cells).kind = r.kind := kind_extend _ _
    rw [hkind] at hk
    have hne : r :: rest ≠ [] := List.cons_ne_nil r rest
    -- levels are collected where the kind is discrete, ends of a range otherwise
    cases hr : r.kind with
    | discrete =>
      have hs : (empty .discrete).extend cells = ⟨.discrete, none, firstSeen cells⟩ := by
        rw [← foldl_addLevel_nil]
        rfl
      rw [hr] at hk
      rw [hs]
      refine ⟨hne, hk, fun _ => by rw [hall]; rfl, fun h => absurd rfl h, ?_, ?_⟩
      · rw [hall]
        simp [freeze, firstSeen_eq_nil]
      · intro hv
        simpa [freeze] using hv
    | continuous | temporal =>
      rw [hr] at hk
      -- a range without cells stays open, any other spans all of them
      by_cases hcells : cells = []
      · subst hcells
        rw [extend_nil]
        refine ⟨hne, hk, fun h => ?_, fun _ h => ?_, ?_, fun _ => rfl⟩
        · simp [freeze, empty] at h
        · simp [freeze, empty] at h
        · simp [freeze, empty, hall]
      · obtain ⟨low, high, hw, hs⟩ := spans_foldl_widen hcells
        simp only [extend, empty, hw]
        refine ⟨hne, hk, fun h => ?_, fun _ _ => ?_, ?_, fun h => ?_⟩
        · simp [freeze] at h
        · rw [hall]
          exact ⟨low, high, rfl, hs⟩
        · simp [freeze, hall, hcells]
        · simp [freeze] at h

end ScaleState

end PlotGrammar
