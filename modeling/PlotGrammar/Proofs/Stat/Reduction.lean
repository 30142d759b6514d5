import PlotGrammar.Proofs.Table.Inferred
import PlotGrammar.Toolkit

/-!
# Reducing columns of numbers

Some reductions of a column fail: timestamps have no sum, texts no mean, and objects only what their
cells allow. Of a column of numbers every standard reduction gives a cell that can be a key
(`Toolkit.exists_standard`), and the number of cells can be taken of any column.
-/

namespace PlotGrammar

namespace Column

/-- A column of numbers: its type is one, and what it holds is stored so. -/
structure HoldsNumbers (column : Column) : Prop where
  kind : column.type.kind = .continuous
  stored : ∀ c ∈ column.cells, c.isMissing = false → column.type.stores c = true

/-- Such a column holds integers and doubles. -/
theorem HoldsNumbers.exists_number {column : Column} (h : column.HoldsNumbers) {c : Cell}
    (hc : c ∈ column.cells) (hm : c.isMissing = false) :
    (∃ n, c.number? = some n) ∧ c.isKeyed = true := by
  obtain ⟨x, hx⟩ := exists_double h.kind (h.stored c hc hm) hm
  unfold Aggregate.double Cell.toFloat? at hx
  cases c with
  | bool | int | float => exact ⟨⟨_, rfl⟩, rfl⟩
  | missing | text | time | compound => exact nomatch hx

end Column

namespace Aggregate

variable {column : Column}

theorem exists_doubles (h : column.HoldsNumbers) : ∃ xs, doubles column = .ok xs := by
  have hread : ∃ xs, (column.cells.mapM fun c =>
      if c.isMissing then .ok none else (double c).map some) = .ok xs := by
    -- a cell of a continuous column is missing or has a double near to it
    refine exists_mapM fun c hc => ?_
    cases hm : c.isMissing with
    | true => exact ⟨none, rfl⟩
    | false =>
      obtain ⟨x, hx⟩ := Column.exists_double h.kind (h.stored c hc hm) hm
      exact ⟨some x, by rw [hx]; rfl⟩
  have hkind := h.kind
  unfold doubles
  cases htype : column.type with
  | float | int | nullableInt => exact hread
  | bool | text | object | time =>
    rw [htype] at hkind
    exact nomatch hkind

theorem isKeyed_ofFloat (x : Float) : (Cell.ofFloat x).isKeyed = true := by
  unfold Cell.ofFloat
  split <;> rfl

/-- What is computed with doubles can be a key. -/
theorem isKeyed_ofDouble (type : ColumnType) (x : Float) : (ofDouble type x).isKeyed = true := by
  unfold ofDouble
  split
  · cases Binary64.truncate? x <;> rfl
  · exact isKeyed_ofFloat x

theorem exists_count (column : Column) : ∃ c, count column = .ok c ∧ c.isKeyed = true :=
  ⟨_, rfl, rfl⟩

theorem exists_mean (h : column.HoldsNumbers) : ∃ c, mean column = .ok c ∧ c.isKeyed = true := by
  obtain ⟨xs, hxs⟩ := exists_doubles h
  -- a column of objects is not continuous
  have hobject : column.type ≠ .object := by
    intro htype
    have hkind := h.kind
    rw [htype] at hkind
    exact nomatch hkind
  unfold mean
  rw [if_neg hobject, hxs]
  simp only [bind, Except.bind]
  split
  · exact ⟨.missing, rfl, rfl⟩
  · exact ⟨_, rfl, isKeyed_ofDouble _ _⟩
  · exact ⟨_, rfl, isKeyed_ofDouble _ _⟩

theorem exists_median (h : column.HoldsNumbers) :
    ∃ c, median column = .ok c ∧ c.isKeyed = true := by
  obtain ⟨xs, hxs⟩ := exists_doubles h
  unfold median
  rw [hxs]
  simp only [bind, Except.bind]
  split
  · exact ⟨.missing, rfl, rfl⟩
  · exact ⟨_, rfl, isKeyed_ofDouble _ _⟩

theorem exists_sum (h : column.HoldsNumbers) : ∃ c, sum column = .ok c ∧ c.isKeyed = true := by
  obtain ⟨xs, hxs⟩ := exists_doubles h
  have hkind := h.kind
  unfold sum
  -- integers are added as they are, and doubles as doubles
  cases htype : column.type with
  | int | nullableInt => exact ⟨_, rfl, rfl⟩
  | float =>
    dsimp only
    rw [hxs]
    exact ⟨_, rfl, isKeyed_ofFloat _⟩
  | bool | text | object | time =>
    rw [htype] at hkind
    exact nomatch hkind

theorem exists_below {a b : Cell} {m n : Number} (ha : a.number? = some m)
    (hb : b.number? = some n) : ∃ r, below a b = .ok r := by
  unfold below
  split
  · exact nomatch ha
  · exact nomatch ha
  · rw [ha, hb]
    exact ⟨_, rfl⟩

theorem exists_champion {wins : Cell → Cell → Except Fault Bool} (h : column.HoldsNumbers)
    (hwins : ∀ a b m n, a.number? = some m → b.number? = some n → ∃ r, wins a b = .ok r) :
    ∃ c, champion wins column = .ok c ∧ c.isKeyed = true := by
  have hpresent : ∀ c ∈ present column, (∃ n, c.number? = some n) ∧ c.isKeyed = true := by
    intro c hc
    obtain ⟨hmem, hm⟩ := List.mem_filter.1 hc
    exact h.exists_number hmem (by simpa using hm)
  unfold champion
  cases hp : present column with
  | nil => exact ⟨.missing, rfl, rfl⟩
  | cons first rest =>
    rw [hp] at hpresent
    -- the best cell so far is a number, as is every other one
    have hstep : ∀ best : Cell, ((∃ n, best.number? = some n) ∧ best.isKeyed = true) →
        ∀ c ∈ rest, ∃ next, (do pure (if ← wins c best then c else best)) = Except.ok next ∧
          ((∃ n, next.number? = some n) ∧ next.isKeyed = true) := by
      intro best hbest c hc
      obtain ⟨m, hm⟩ := (hpresent c (List.mem_cons_of_mem _ hc)).1
      obtain ⟨n, hn⟩ := hbest.1
      obtain ⟨won, hwon⟩ := hwins c best m n hm hn
      refine ⟨if won then c else best, by rw [hwon]; rfl, ?_⟩
      cases won with
      | true => exact hpresent c (List.mem_cons_of_mem _ hc)
      | false => exact hbest
    obtain ⟨c, hc, -, hkeyed⟩ := exists_foldlM hstep (hpresent first List.mem_cons_self)
    exact ⟨c, hc, hkeyed⟩

theorem exists_min (h : column.HoldsNumbers) : ∃ c, min column = .ok c ∧ c.isKeyed = true :=
  exists_champion h fun _ _ _ _ ha hb => exists_below ha hb

theorem exists_max (h : column.HoldsNumbers) : ∃ c, max column = .ok c ∧ c.isKeyed = true :=
  exists_champion h fun _ _ _ _ ha hb => exists_below hb ha

end Aggregate

namespace Toolkit

/-- Every reduction with a standard name gives a cell for a column of numbers, and counting does so
for any column. -/
theorem exists_standard {name : Value} (hname : name.characters?.isSome = true)
    {reduce : Aggregator} (h : standard.aggregator? name = some reduce) {column : Column}
    (hcolumn : name.same (.text "count") = true ∨ column.HoldsNumbers) :
    ∃ c, reduce column = .ok c ∧ c.isKeyed = true := by
  obtain ⟨a, ha⟩ := Option.isSome_iff_exists.1 hname
  rw [Value.same_of_characters rfl, ha] at hcolumn
  unfold aggregator? Value.entry? standard at h
  simp only [List.find?_cons, Value.same_of_characters ha] at h
  -- counting takes any column, and the names are tried one by one for columns of numbers
  rcases hcolumn with hcount | hnumbers
  · cases eq_of_beq hcount
    cases h
    exact Aggregate.exists_count column
  · split at h
    · cases h
      exact Aggregate.exists_mean hnumbers
    split at h
    · cases h
      exact Aggregate.exists_sum hnumbers
    split at h
    · cases h
      exact Aggregate.exists_median hnumbers
    split at h
    · cases h
      exact Aggregate.exists_count column
    split at h
    · cases h
      exact Aggregate.exists_min hnumbers
    split at h
    · cases h
      exact Aggregate.exists_max hnumbers
    · exact nomatch h

end Toolkit

end PlotGrammar
