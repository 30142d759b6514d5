import PlotGrammar.Proofs.Number.Word
import PlotGrammar.Proofs.Outcome
import PlotGrammar.Stat.Aggregate
import PlotGrammar.Table

/-!
# Tables whose kinds are inferred

A table that is wrapped without declaring kinds has the kind of each column from how its cells are
stored. `Table.Inferred` says so, together with what such a table is made of: columns labelled by
texts, whose cells are what their type stores (`ColumnType.stores`) and can be keys.

* `Table.Keyed` is the part of it that computed tables have too. Every column that such a table has
  is found under its name and can be read (`Table.Keyed.exists_column`).
* A column of an inferred table that is of continuous kind holds numbers that have doubles, and
  nothing else (`Column.exists_double`).
* `Table.inferred_of_ofFrame` derives it for a frame that is wrapped.
-/

namespace PlotGrammar

/-! ### What columns store -/

namespace ColumnType

/-- Whether a column of a type can hold a cell. Integers are words, signed or unsigned ones. -/
def stores : ColumnType → Cell → Bool
  | object, _ => true
  | float, .missing | float, .float _ => true
  | int, .int i => Word.isSigned i || Word.isUnsigned i
  | nullableInt, .missing => true
  | nullableInt, .int i => Word.isSigned i || Word.isUnsigned i
  | bool, .bool _ => true
  | text, .missing | text, .text _ => true
  | time _, .missing | time _, .time _ => true
  | _, _ => false

/-- Cells are stored as doubles if all that hold something are numbers, and not all of them are
integers. -/
theorem ofCells_eq_float {cells : List Cell} (h : ofCells cells = .float) :
    (∃ c ∈ cells, c.isMissing = false) ∧
      (∀ c ∈ cells, c.isMissing = false → c.isNumber = true) ∧
      ∃ c ∈ cells, c.isInt = false := by
  -- the branches of the inference in turn, of which one alone ends in `float`
  unfold ofCells at h
  dsimp only at h
  split at h
  · cases h
  next hpresent =>
  split at h
  · cases h
  split at h
  · next hnumbers =>
    split at h
    · cases h
    split at h
    · cases h
    next hints =>
    refine ⟨?_, fun c hc hm => ?_, ?_⟩
    · obtain ⟨c, hc⟩ := List.exists_mem_of_ne_nil _ (fun hnil => hpresent (List.isEmpty_iff.2 hnil))
      obtain ⟨hc, hm⟩ := List.mem_filter.1 hc
      exact ⟨c, hc, by simpa using hm⟩
    · exact List.all_eq_true.1 hnumbers c (List.mem_filter.2 ⟨hc, by simpa using hm⟩)
    · simpa using hints
  · split at h
    · cases h
    split at h
    · cases h
    · cases h

end ColumnType

namespace Column

/-- Every cell of the column is one that its type stores. -/
def IsStored (column : Column) : Prop :=
  ∀ c ∈ column.cells, column.type.stores c = true

instance (column : Column) : Decidable column.IsStored :=
  inferInstanceAs (Decidable (∀ c ∈ column.cells, column.type.stores c = true))

/-- A word has a nearest double. -/
theorem isSome_ofInt?_of_word {i : Int} (h : (Word.isSigned i || Word.isUnsigned i) = true) :
    (Binary64.ofInt? i).isSome = true := by
  refine Binary64.isSome_ofInt? ?_
  unfold Word.isSigned Word.isUnsigned Word.half Word.span at h
  simp only [Bool.or_eq_true, Bool.and_eq_true, decide_eq_true_eq] at h
  omega

/-- A cell that a column of numbers stores holds a number that has a double, or nothing. -/
theorem exists_double {type : ColumnType} {c : Cell} (hkind : type.kind = .continuous)
    (hc : type.stores c = true) (hm : c.isMissing = false) : ∃ x, Aggregate.double c = .ok x := by
  -- a type that is continuous stores numbers only, and each of them has a double near to it
  have hsome : c.toFloat?.isSome = true := by
    cases type with
    | bool | text | object | time => exact nomatch hkind
    | float =>
      cases c with
      | float x => rfl
      | missing => exact nomatch hm
      | _ => exact nomatch hc
    | int =>
      cases c with
      | int i => exact isSome_ofInt?_of_word hc
      | _ => exact nomatch hc
    | nullableInt =>
      cases c with
      | int i => exact isSome_ofInt?_of_word hc
      | missing => exact nomatch hm
      | _ => exact nomatch hc
  obtain ⟨x, hx⟩ := Option.isSome_iff_exists.1 hsome
  unfold Aggregate.double
  rw [hx]
  exact ⟨x, rfl⟩

end Column

namespace Table

/-! ### Tables that can be read -/

theorem kind_eq_ok {t : Table} {name : String} {kind : ColumnKind} :
    t.kind name = .ok kind ↔ t.kind? name = some kind := by
  unfold Table.kind
  cases t.kind? name with
  | none => exact ⟨fun h => (nomatch h), fun h => (nomatch h)⟩
  | some k => exact ⟨fun h => congrArg some (Except.ok.inj h), fun h => by cases h; rfl⟩

theorem contains_of_kind? {t : Table} {name : String} {kind : ColumnKind}
    (h : t.kind? name = some kind) : t.contains name = true := by
  obtain ⟨f, hf, -⟩ := Option.map_eq_some_iff.1 h
  have hname := List.find?_some hf
  exact List.any_eq_true.2 ⟨f, List.mem_of_find?_eq_some hf, hname⟩

/-- Columns are labelled by texts, and their cells can be keys. -/
structure Keyed (t : Table) : Prop where
  labels : ∀ f ∈ t.fields, f.label.isText = true
  cells : ∀ f ∈ t.fields, f.column.isKeyed = true

namespace Keyed

variable {t : Table} {name : String}

/-- A text is the label of a column if and only if it is its printed name. -/
theorem label_eq_iff (h : t.Keyed) {f : Field} (hf : f ∈ t.fields) :
    (f.label == .text name) = (f.name == name) := by
  have htext := h.labels f hf
  unfold Field.name
  cases hl : f.label with
  | text s =>
    rw [Bool.eq_iff_iff, beq_iff_eq, beq_iff_eq]
    exact ⟨fun h => Label.text.inj h, fun h => congrArg Label.text h⟩
  | index i =>
    rw [hl] at htext
    exact nomatch htext

/-- A column that the table has is found under its name. -/
theorem exists_field (h : t.Keyed) (hname : t.contains name = true) :
    ∃ f ∈ t.fields, t.column? name = some f.column ∧ t.kind? name = some f.kind := by
  obtain ⟨f, hf⟩ := Option.isSome_iff_exists.1 (List.find?_isSome.2 (List.any_eq_true.1 hname))
  have hlabel : t.fields.find? (fun f => f.label == .text name) = some f := by
    rw [← hf, ← List.head?_filter, ← List.head?_filter]
    exact congrArg List.head? (List.filter_congr fun f hf => h.label_eq_iff hf)
  exact ⟨f, List.mem_of_find?_eq_some hf, congrArg (Option.map Field.column) hlabel,
    congrArg (Option.map Field.kind) hf⟩

/-- The cells of the column can be keys. -/
theorem exists_column (h : t.Keyed) (hname : t.contains name = true) :
    ∃ column, t.series name = .ok column ∧ column.isKeyed = true := by
  obtain ⟨f, hf, hcolumn, -⟩ := h.exists_field hname
  unfold series
  rw [hcolumn]
  exact ⟨f.column, rfl, h.cells f hf⟩

end Keyed

/-! ### Inferred kinds -/

/-- The table is one whose kinds were inferred from how its cells are stored. -/
structure Inferred (t : Table) : Prop extends Keyed t where
  kinds : ∀ f ∈ t.fields, f.kind = f.column.type.kind
  stored : ∀ f ∈ t.fields, f.column.IsStored

instance (t : Table) : Decidable t.Inferred :=
  decidable_of_iff (((∀ f ∈ t.fields, f.label.isText = true) ∧
      ∀ f ∈ t.fields, f.column.isKeyed = true) ∧
      (∀ f ∈ t.fields, f.kind = f.column.type.kind) ∧ ∀ f ∈ t.fields, f.column.IsStored)
    ⟨fun ⟨⟨hlabels, hcells⟩, hkinds, hstored⟩ => ⟨⟨hlabels, hcells⟩, hkinds, hstored⟩,
      fun h => ⟨⟨h.labels, h.cells⟩, h.kinds, h.stored⟩⟩

/-- A column of an inferred table stores what its kind says. -/
theorem Inferred.exists_column {t : Table} (h : t.Inferred) {name : String} {kind : ColumnKind}
    (hkind : t.kind name = .ok kind) :
    ∃ column, t.series name = .ok column ∧ column.type.kind = kind ∧ column.IsStored ∧
      column.isKeyed = true := by
  have hsome := kind_eq_ok.1 hkind
  obtain ⟨f, hf, hcolumn, hk⟩ := h.exists_field (contains_of_kind? hsome)
  rw [hk] at hsome
  unfold series
  rw [hcolumn]
  exact ⟨f.column, rfl, (h.kinds f hf).symm.trans (Option.some.inj hsome), h.stored f hf,
    h.cells f hf⟩

/-- Wrapping a frame without declared kinds infers all of them. -/
theorem fields_of_ofFrame {frame : Frame} {computedBy : Option String} {t : Table}
    (h : ofFrame frame [] computedBy = .ok t) :
    t.fields = fieldsOf frame fun c => c.2.type.kind := by
  unfold ofFrame at h
  dsimp only [List.filter_nil, List.isEmpty_nil] at h
  rw [if_pos rfl] at h
  split at h
  swap
  · exact nomatch h
  obtain ⟨read, hread, h⟩ := bind_eq_ok.1 h
  -- no column is given a kind
  have hnone : read = [] := by
    clear h
    generalize frame.columns = columns at hread
    induction columns generalizing read with
    | nil => exact (Except.ok.inj hread).symm
    | cons c rest ih =>
      rw [List.filterMapM_cons] at hread
      exact ih _ hread
  subst hnone
  unfold ofFields at h
  split at h
  · cases h
    rfl
  · exact nomatch h

/-- The frame that is wrapped has to be labelled by texts, and to hold keys. -/
theorem inferred_of_ofFrame {frame : Frame} {computedBy : Option String} {t : Table}
    (h : ofFrame frame [] computedBy = .ok t)
    (hframe : ∀ c ∈ frame.columns, c.1.isText = true ∧ c.2.IsStored ∧ c.2.isKeyed = true) :
    t.Inferred := by
  have hfields : ∀ f ∈ t.fields, ∃ c ∈ frame.columns, f = ⟨c.1, c.2.type.kind, c.2⟩ := by
    intro f hf
    rw [fields_of_ofFrame h] at hf
    obtain ⟨c, hc, rfl⟩ := List.mem_map.1 hf
    exact ⟨c, hc, rfl⟩
  refine ⟨⟨fun f hf => ?_, fun f hf => ?_⟩, fun f hf => ?_, fun f hf => ?_⟩ <;>
    obtain ⟨c, hc, rfl⟩ := hfields f hf
  · exact (hframe c hc).1
  · exact (hframe c hc).2.2
  · rfl
  · exact (hframe c hc).2.1

end Table

end PlotGrammar
