import PlotGrammar.Proofs.Table.Declared

/-!
# Looking columns up

A table is asked by name whether it has a column, what kind the column is of, and for its cells. The
first two look at printed names, the last one at labels as well. `Table.Answers` says that the three
answers fit together: the column of this printed name is there for all of them, or for none.

* `Table.Wraps` lists the ways in which a table is made of a frame. Whichever is taken, its fields
  are the columns of the frame with a kind each (`Table.Wraps.exists_kind`).
* `Table.contains_iff`, `Table.exists_kind_iff` and `Table.column_eq_ok` say when a look-up
  succeeds.
* The answers fit together for every name but those of columns that are labelled by numbers
  (`Table.answers_iff`). Such a column is there and has a kind, but it is not found
  (`Table.numbered_column_not_found`).
-/

namespace PlotGrammar

namespace Table

variable {t : Table} {frame : Frame} {name : String}

/-! ### Look-ups -/

theorem contains_iff : t.contains name = true ↔ ∃ f ∈ t.fields, f.name = name := by
  unfold contains
  rw [List.any_eq_true]
  exact exists_congr fun f => and_congr_right fun _ => beq_iff_eq

theorem contains_iff_mem : t.contains name = true ↔ name ∈ t.names :=
  contains_iff.trans List.mem_map.symm

/-- A kind is looked up by the printed name alone. -/
theorem exists_kind_iff : (∃ kind, t.kind name = .ok kind) ↔ t.contains name = true := by
  have hsome : (t.kind? name).isSome = t.contains name := by
    unfold kind? contains
    rw [Option.isSome_map, Bool.eq_iff_iff, List.find?_isSome, List.any_eq_true]
  rw [← hsome, Option.isSome_iff_exists]
  exact exists_congr fun kind => kind_eq_ok

theorem kind_of_absent (h : t.contains name = false) : t.kind name = .error (t.absent name) := by
  unfold kind
  split
  · next kind hkind => exact absurd (contains_of_kind? hkind) (h ▸ Bool.false_ne_true)
  · rfl

theorem column_of_absent (h : t.contains name = false) :
    t.column name = .error (t.absent name) := by
  unfold column
  rw [if_neg (h ▸ Bool.false_ne_true)]

theorem series_eq_ok {column : Column} :
    t.series name = .ok column ↔ t.column? name = some column := by
  unfold series
  cases t.column? name with
  | none => exact ⟨fun h => (nomatch h), fun h => (nomatch h)⟩
  | some c => exact ⟨fun h => congrArg some (Except.ok.inj h), fun h => by cases h; rfl⟩

/-- Cells are found exactly under a label that is the text asked for. -/
theorem column_eq_ok {column : Column} :
    t.column name = .ok column ↔ ∃ f ∈ t.fields, f.label = .text name ∧ f.column = column := by
  have hname : ∀ f : Field, f.label = .text name → f.name = name := fun f hf =>
    congrArg Label.name hf
  have hseries : ∀ f ∈ t.fields, f.label = .text name → t.series name = .ok f.column := by
    intro f hf hlabel
    unfold series column?
    cases hfind : t.fields.find? fun f => f.label == .text name with
    | none => exact absurd (beq_iff_eq.2 hlabel) (List.find?_eq_none.1 hfind f hf)
    | some g =>
      -- the names do not repeat, so there is one such column only
      have hg : g.label = .text name := by simpa using List.find?_some hfind
      have hsame := (hname g hg).trans (hname f hlabel).symm
      rw [eq_of_name (List.mem_of_find?_eq_some hfind) hf hsame]
      rfl
  constructor
  -- a column that is found has the label, and a label leads to its column
  · intro h
    unfold Table.column at h
    split at h
    · unfold series at h
      split at h
      · next found hfound =>
        cases h
        obtain ⟨f, hf, hcolumn⟩ := Option.map_eq_some_iff.1 hfound
        exact ⟨f, List.mem_of_find?_eq_some hf, by simpa using List.find?_some hf, hcolumn⟩
      · cases h
    · cases h
  · rintro ⟨f, hf, hlabel, rfl⟩
    unfold Table.column
    rw [if_pos (contains_iff.2 ⟨f, hf, hname f hlabel⟩)]
    exact hseries f hf hlabel

/-- What is labelled by a text is found under it. -/
theorem series_of_label {f : Field} (hf : f ∈ t.fields) (h : f.label = .text name) :
    t.series name = .ok f.column := by
  have hcolumn := column_eq_ok.2 ⟨f, hf, h, rfl⟩
  unfold column at hcolumn
  split at hcolumn
  · exact hcolumn
  · cases hcolumn

theorem kind_of_label {f : Field} (hf : f ∈ t.fields) (h : f.label = .text name) :
    t.kind name = .ok f.kind := by
  have hname : f.name = name := congrArg Label.name h
  obtain ⟨kind, hkind⟩ := exists_kind_iff.2 (contains_iff.2 ⟨f, hf, hname⟩)
  obtain ⟨f', hf', hkind'⟩ := Option.map_eq_some_iff.1 (kind_eq_ok.1 hkind)
  have hname' : f'.name = name := by simpa using List.find?_some hf'
  rw [hkind, ← hkind', eq_of_name (List.mem_of_find?_eq_some hf') hf (hname'.trans hname.symm)]

/-- What is looked up for labels is read off the columns with these labels. -/
theorem mapM_of_labels {β : Type} {look : String → Except Failure β} {read : Field → β}
    {fields : List Field} {names : List String}
    (hlook : ∀ f ∈ fields, ∀ name, f.label = .text name → look name = .ok (read f))
    (hlabels : fields.map Field.label = names.map Label.text) :
    names.mapM look = .ok (fields.map read) := by
  induction fields generalizing names with
  | nil =>
    cases names with
    | nil => rfl
    | cons name names => cases hlabels
  | cons f fields ih =>
    cases names with
    | nil => cases hlabels
    | cons name names =>
      obtain ⟨hlabel, hlabels⟩ := List.cons.inj hlabels
      rw [List.mapM_cons, hlook f List.mem_cons_self name hlabel,
        ih (fun f hf => hlook f (List.mem_cons_of_mem _ hf)) hlabels]
      rfl

/-- A printed name that is no label is known, but nothing is found under it. -/
theorem column_of_not_labelled (h : t.contains name = true)
    (hlabel : ∀ f ∈ t.fields, f.label ≠ .text name) :
    t.column name = .error (.fault .missingKey) := by
  unfold column
  rw [if_pos h]
  unfold series column?
  rw [List.find?_eq_none.2 fun f hf => by simpa using hlabel f hf]
  rfl

/-! ### Tables made of frames -/

/-- The ways in which a table is made of a frame. -/
inductive Wraps (t : Table) (frame : Frame) : Prop
  /-- Kinds are declared for some columns and inferred for the others. -/
  | inferred {declared : List (Value × Value)} {computedBy : Option String}
      (h : ofFrame frame declared computedBy = .ok t)
  /-- The frame is made of lists of values. -/
  | recorded {records : List (Label × List Value)} {declared : List (Value × Value)}
      (hframe : Frame.ofRecords records = .ok frame) (h : ofFrame frame declared none = .ok t)
  /-- A kind is declared for each column. -/
  | declared {declared : List (Value × Value)} {computedBy : Option String}
      (h : ofParts frame declared computedBy = .ok t)

theorem fields_of_ofFields {fields : List Field} {height : Nat} {uniform}
    {computedBy : Option String} (h : ofFields fields height uniform computedBy = .ok t) :
    t.fields = fields ∧ t.height = height := by
  unfold ofFields at h
  split at h
  · cases h
    exact ⟨rfl, rfl⟩
  · cases h

theorem exists_kind_of_ofFrame {declared : List (Value × Value)} {computedBy : Option String}
    (h : ofFrame frame declared computedBy = .ok t) :
    ∃ kind, t.fields = fieldsOf frame kind ∧ t.height = frame.height := by
  unfold ofFrame at h
  dsimp only at h
  split at h
  · split at h
    · obtain ⟨read, -, h⟩ := bind_eq_ok.1 h
      exact ⟨_, fields_of_ofFields h⟩
    · cases h
  · obtain ⟨_, h, -⟩ := bind_eq_ok.1 h
    cases h

theorem exists_kind_of_ofParts {declared : List (Value × Value)} {computedBy : Option String}
    (h : ofParts frame declared computedBy = .ok t) :
    ∃ kind, t.fields = fieldsOf frame kind ∧ t.height = frame.height := by
  unfold ofParts at h
  dsimp only at h
  -- names, undeclared columns and unknown columns are checked before any kind is read
  split at h
  · split at h
    · split at h
      · split at h
        · obtain ⟨read, -, h⟩ := bind_eq_ok.1 h
          exact ⟨_, fields_of_ofFields h⟩
        · cases h
      · cases h
    · cases h
  · cases h

namespace Wraps

/-- However a table is made of a frame, it has the columns of the frame with a kind each. -/
theorem exists_kind (h : t.Wraps frame) :
    ∃ kind, t.fields = fieldsOf frame kind ∧ t.height = frame.height := by
  cases h with
  | inferred h => exact exists_kind_of_ofFrame h
  | recorded _ h => exact exists_kind_of_ofFrame h
  | declared h => exact exists_kind_of_ofParts h

theorem height (h : t.Wraps frame) : t.height = frame.height :=
  h.exists_kind.choose_spec.2

theorem names (h : t.Wraps frame) : t.names = frame.names := by
  obtain ⟨kind, hfields, -⟩ := h.exists_kind
  unfold Table.names Frame.names
  rw [hfields, fieldsOf, List.map_map]
  exact List.map_congr_left fun c _ => rfl

theorem exists_field_iff (h : t.Wraps frame) {label : Label} {column : Column} :
    (∃ f ∈ t.fields, f.label = label ∧ f.column = column) ↔ (label, column) ∈ frame.columns := by
  obtain ⟨kind, hfields, -⟩ := h.exists_kind
  rw [hfields, fieldsOf]
  constructor
  · rintro ⟨f, hf, rfl, rfl⟩
    obtain ⟨c, hc, rfl⟩ := List.mem_map.1 hf
    exact hc
  · intro hc
    exact ⟨_, List.mem_map.2 ⟨_, hc, rfl⟩, rfl, rfl⟩

theorem contains_iff (h : t.Wraps frame) :
    t.contains name = true ↔ ∃ c ∈ frame.columns, c.1.name = name := by
  rw [Table.contains_iff]
  constructor
  · rintro ⟨f, hf, hname⟩
    exact ⟨_, h.exists_field_iff.1 ⟨f, hf, rfl, rfl⟩, hname⟩
  · rintro ⟨c, hc, hname⟩
    obtain ⟨f, hf, hlabel, -⟩ := h.exists_field_iff.2 hc
    exact ⟨f, hf, (congrArg Label.name hlabel).trans hname⟩

theorem column_eq_ok (h : t.Wraps frame) {column : Column} :
    t.column name = .ok column ↔ (.text name, column) ∈ frame.columns :=
  Table.column_eq_ok.trans h.exists_field_iff

end Wraps

/-! ### Answers that fit together -/

/-- The answers about a name fit together: the frame has a column of this printed name, which is
there, has a kind and is found, with a cell for each row; or it has none, and who asks for the kind
or the cells is told that the column is absent. -/
inductive Answers (t : Table) (frame : Frame) (name : String) : Prop
  | found {label : Label} {column : Column} {kind : ColumnKind}
      (hmem : (label, column) ∈ frame.columns) (hname : label.name = name)
      (hcontains : t.contains name = true) (hkind : t.kind name = .ok kind)
      (hcolumn : t.column name = .ok column) (hheight : column.cells.length = t.height)
  | absent (hnames : name ∉ frame.names) (hcontains : t.contains name = false)
      (hkind : t.kind name = .error (.layer (.columnAbsent name t.names) none none))
      (hcolumn : t.column name = .error (.layer (.columnAbsent name t.names) none none))

theorem mem_frame_names : name ∈ frame.names ↔ ∃ c ∈ frame.columns, c.1.name = name :=
  List.mem_map

/-- A column that is labelled by a number is there and has a kind, but it is not found. -/
theorem Wraps.column_of_index (h : t.Wraps frame) {i : Int} {column : Column}
    (hi : (.index i, column) ∈ frame.columns) :
    t.contains (toString i) = true ∧ (∃ kind, t.kind (toString i) = .ok kind) ∧
      t.column (toString i) = .error (.fault .missingKey) := by
  have hcontains : t.contains (toString i) = true := h.contains_iff.2 ⟨_, hi, rfl⟩
  refine ⟨hcontains, exists_kind_iff.2 hcontains,
    column_of_not_labelled hcontains fun f hf hlabel => ?_⟩
  obtain ⟨g, hg, hindex, -⟩ := h.exists_field_iff.2 hi
  have hname : f.name = g.name := by
    unfold Field.name
    rw [hlabel, hindex]
    rfl
  rw [eq_of_name hf hg hname, hindex] at hlabel
  cases hlabel

/-- The answers fit together if the column of this name, if there is one, is labelled by a text. -/
theorem Wraps.answers_iff (h : t.Wraps frame) :
    t.Answers frame name ↔ ∀ c ∈ frame.columns, c.1.name = name → c.1.isText = true := by
  constructor
  -- a label that is no text is among the names, yet no column is found under it
  · rintro (⟨hcolumn, hname, -, -, hfound, -⟩ | ⟨hnames, -, -, -⟩) ⟨label, column⟩ hc hlabel
    · cases label with
      | text s => rfl
      | index i =>
        have habsent : t.column name = .error (.fault .missingKey) :=
          hlabel ▸ (h.column_of_index hc).2.2
        rw [habsent] at hfound
        cases hfound
    · exact absurd (mem_frame_names.2 ⟨_, hc, hlabel⟩) hnames
  · intro htext
    -- a name that is there is found by its text, and one that is not is found nowhere
    by_cases hcontains : t.contains name = true
    · obtain ⟨⟨label, column⟩, hc, hlabel⟩ := h.contains_iff.1 hcontains
      obtain ⟨kind, hkind⟩ := exists_kind_iff.2 hcontains
      cases label with
      | index i => exact absurd (htext _ hc hlabel) Bool.false_ne_true
      | text s =>
        cases hlabel
        exact .found hc rfl hcontains hkind (h.column_eq_ok.2 hc)
          (h.height ▸ frame.uniform _ hc)
    · rw [Bool.not_eq_true] at hcontains
      refine .absent (fun hname => ?_) hcontains (kind_of_absent hcontains)
        (column_of_absent hcontains)
      rw [h.contains_iff.2 (mem_frame_names.1 hname)] at hcontains
      cases hcontains

/-- **A table represents its frame.** Its columns and the keys of its kinds are the printed names of
the frame, in order and without repetition. The answers about a name fit together exactly if no
column of this name is labelled by a number; such a column has a kind, but it is not found. -/
theorem represents_frame (h : t.Wraps frame) :
    t.names = frame.names ∧ t.kinds.map Prod.fst = frame.names ∧ t.names.Nodup ∧
      (∀ name, t.Answers frame name ↔
        ∀ c ∈ frame.columns, c.1.name = name → c.1.isText = true) ∧
      ∀ (i : Int) column, (.index i, column) ∈ frame.columns →
        t.contains (toString i) = true ∧ (∃ kind, t.kind (toString i) = .ok kind) ∧
          t.column (toString i) = .error (.fault .missingKey) := by
  have hkinds : t.kinds.map Prod.fst = t.names := by
    unfold kinds names
    rw [List.map_map]
    rfl
  exact ⟨h.names, hkinds.trans h.names, t.distinct, fun _ => h.answers_iff,
    fun _ _ hi => h.column_of_index hi⟩

/-- Two columns, the second one labelled by a number. -/
def numberedFrame : Frame where
  columns := [(.text "v", ⟨.int, [.int 7, .int 8]⟩), (.index 1, ⟨.text, [.text "a", .missing]⟩)]
  height := 2
  uniform := by decide

/-- The table of these columns. -/
def numberedTable : Except Failure Table :=
  ofFrame numberedFrame [(.text "v", .text "discrete")] none

/-- The columns are represented, up to the one that is not found. -/
theorem represents_numberedFrame :
    ∃ t, numberedTable = .ok t ∧ t.names = ["v", "1"] ∧ t.kinds.map Prod.fst = ["v", "1"] ∧
      t.Answers numberedFrame "v" ∧ t.Answers numberedFrame "w" ∧
      t.column "1" = .error (.fault .missingKey) := by
  obtain ⟨t, h⟩ : ∃ t, numberedTable = .ok t := ⟨_, rfl⟩
  obtain ⟨hnames, hkinds, -, hanswers, hindex⟩ := represents_frame (.inferred h)
  refine ⟨t, h, hnames, hkinds, (hanswers "v").2 ?_, (hanswers "w").2 ?_,
    (hindex 1 _ (List.mem_cons_of_mem _ List.mem_cons_self)).2.2⟩
  · decide
  · decide

/-- The answers about a column do not always fit together. -/
theorem numbered_column_not_found :
    ¬ ∀ (frame : Frame) (t : Table), t.Wraps frame → ∀ name, t.Answers frame name := by
  intro hall
  obtain ⟨t, h⟩ : ∃ t, numberedTable = .ok t := ⟨_, rfl⟩
  have hcolumn : (numberedTable.bind fun t => t.column "1").toBool = false := rfl
  have hkind : (numberedTable.bind fun t => t.kind "1") = .ok .discrete := rfl
  rw [h] at hcolumn hkind
  rcases hall numberedFrame t (.inferred h) "1" with ⟨-, -, -, -, hfound, -⟩ | ⟨-, -, habsent, -⟩
  · change (t.column "1").toBool = false at hcolumn
    rw [hfound] at hcolumn
    cases hcolumn
  · change t.kind "1" = .ok .discrete at hkind
    rw [habsent] at hkind
    cases hkind

end Table

end PlotGrammar
