import PlotGrammar.Proofs.Bindings
import PlotGrammar.Proofs.Stat.Parameters
import PlotGrammar.Stat.Run

/-!
# What statistics leave in a table

Bins and density curves run along one axis. Their result has a column of the name that is bound to
this axis, and the column they compute for the other axis. The other statistics keep every column
that is bound.

* `Stat.isSome_of_axis`: the axis is one that is bound to a column.
* `Stat.orientation_eq_axis`: the axis that is found for drawing is the one the statistic ran along.
  The first is read from the parameters as given, the second from the parameters in range.
* `Stat.run_ranAlong` says what the result of bins and curves has, the edges of the bins included.
* `Stat.contains_of_run`: a column that is bound is a key of a summary or is reduced by it, and the
  identity gives its table back.
-/

namespace PlotGrammar

namespace Table

/-- A column that is in a table has a kind. -/
theorem exists_kind_of_contains {t : Table} {name : String} (h : t.contains name = true) :
    ∃ kind, t.kind? name = some kind := by
  obtain ⟨f, hf⟩ := Option.isSome_iff_exists.1 (List.find?_isSome.2 (List.any_eq_true.1 h))
  exact ⟨f.kind, congrArg (Option.map Field.kind) hf⟩

theorem contains_of_column? {t : Table} {name : String} {column : Column}
    (h : t.column? name = some column) : t.contains name = true := by
  obtain ⟨f, hf, -⟩ := Option.map_eq_some_iff.1 h
  refine List.any_eq_true.2 ⟨f, List.mem_of_find?_eq_some hf, ?_⟩
  have hlabel : f.label = .text name := by simpa using List.find?_some hf
  unfold Field.name
  rw [hlabel]
  exact beq_self_eq_true name

/-- The columns of a computed table are those that its rules compute. -/
theorem fields_of_ofRows {ρ : Type} {rules : List (Rule ρ)} {rows : List ρ} {computedBy : String}
    {t : Table} (h : ofRows rules rows computedBy = .ok t) :
    t.fields = rules.map (Rule.field rows) ∧ t.height = rows.length := by
  unfold ofRows ofFields at h
  split at h
  · cases h
    exact ⟨rfl, rfl⟩
  · exact nomatch h

/-- A column that a rule computes is in the table. -/
theorem contains_of_ofRows {ρ : Type} {rules : List (Rule ρ)} {rows : List ρ} {computedBy : String}
    {t : Table} (h : ofRows rules rows computedBy = .ok t) {name : String}
    (hname : name ∈ rules.map Rule.name) : t.contains name = true := by
  obtain ⟨r, hr, rfl⟩ := List.mem_map.1 hname
  unfold contains
  rw [(fields_of_ofRows h).1, List.any_map, List.any_eq_true]
  exact ⟨r, hr, beq_self_eq_true r.name⟩

theorem computedBy_of_ofRows {ρ : Type} {rules : List (Rule ρ)} {rows : List ρ}
    {computedBy : String} {t : Table} (h : ofRows rules rows computedBy = .ok t) :
    t.computedBy = some computedBy := by
  unfold ofRows ofFields at h
  split at h
  · cases h
    rfl
  · exact nomatch h

end Table

namespace Stat

/-! ### The axis -/

section Axis

variable {stat : StatKind} {asked : Option Axis} {table : Table} {mapping : Mapping}
  {geometry : Value} {layer : Option Int}

theorem mem_boundAxes {a : Axis} :
    a ∈ boundAxes mapping ↔ (mapping.column? a.channel).isSome = true := by
  unfold boundAxes
  rw [List.mem_filter]
  refine and_iff_right ?_
  cases a <;> decide

/-- Where more than one axis is bound, both are. -/
theorem mem_boundAxes_of_two {a b : Axis} {rest : List Axis}
    (h : boundAxes mapping = a :: b :: rest) (c : Axis) : c ∈ boundAxes mapping := by
  have hall : boundAxes mapping = Axis.all := by
    refine List.Sublist.eq_of_length_le List.filter_sublist ?_
    rw [h, List.length_cons, List.length_cons]
    exact Nat.le_add_left 2 rest.length
  rw [hall]
  cases c <;> decide

/-- The axis of a statistic is bound to a column. -/
theorem isSome_of_axis {a : Axis} (h : axis stat asked table mapping geometry layer = .ok a) :
    (mapping.column? a.channel).isSome = true := by
  rw [← mem_boundAxes]
  unfold axis at h
  split at h
  -- an axis that is asked for is found among the bound ones
  · unfold requiredAxis at h
    split at h
    · next hfind =>
      cases h
      exact List.mem_of_find?_eq_some hfind
    · exact nomatch h
  -- an axis that is free is the only bound one, or the preferred one of two
  · unfold chosenAxis at h
    split at h
    · exact nomatch h
    · next hb =>
      cases h
      rw [hb]
      exact List.mem_cons_self
    · -- more than one axis is bound, so both are, and the one that is preferred is among them
      next hnil hone =>
      cases hb : boundAxes mapping with
      | nil => exact absurd hb hnil
      | cons a₁ rest =>
        cases rest with
        | nil => exact absurd hb (hone a₁)
        | cons a₂ rest =>
          rw [← hb]
          exact mem_boundAxes_of_two hb a

theorem channel_ofName? {text : String} {a : Axis} (h : Axis.ofName? text = some a) :
    Channel.ofName? text = some a.channel := by
  have htext : a.name = text := by simpa using List.find?_some h
  rw [← htext]
  exact Channel.ofName?_name a.channel

end Axis

/-- An axis that is asked for is looked up by its name, and has to be bound. -/
theorem orientation_of_asked {stat : StatConfig} (h : stat.orientation ≠ .null) (table : Table)
    (mapping : Mapping) (geometry : Value) (layer : Option Int) :
    orientation stat table mapping geometry layer =
      (stat.orientation.characters?.bind Channel.ofName?).elim (.error (.fault .badValue)) fun c =>
        requiredAxis stat.kind mapping layer c := by
  unfold orientation
  split
  · next hnull => exact absurd hnull h
  · split <;> next hc =>
      rw [hc]
      rfl

/-- The axis that is looked for when the result is drawn is the one the statistic runs along. -/
theorem orientation_eq_axis {kit : Toolkit} {stat : StatConfig} {settings : Settings}
    {layer : Option Int} (h : stat.settings kit layer = .ok settings) (table : Table)
    (mapping : Mapping) (geometry : Value) :
    orientation stat table mapping geometry layer =
      axis stat.kind settings.axis table mapping geometry layer := by
  rcases StatConfig.optional_eq_ok_iff.1 (StatConfig.readAs_of_settings h).axis with
    ⟨hnull, hfree⟩ | ⟨hgiven, hsome, hread⟩
  · -- no axis is asked for: both choose one by the table and the geometry
    unfold orientation axis
    rw [hnull, hfree]
  · -- an axis is asked for by its name, which is the name of its channel
    obtain ⟨a, hasked⟩ := Option.isSome_iff_exists.1 hsome
    rw [hasked] at hread
    obtain ⟨text, htext, hname⟩ := Option.bind_eq_some_iff.1 (Except.ok.inj hread)
    rw [orientation_of_asked hgiven, htext, Option.bind_some, channel_ofName? hname, hasked]
    rfl

/-! ### The result -/

/-- What a statistic that runs along an axis leaves in its result: the column it ran along, and the
column it computes for the other axis. -/
structure RanAlong (stat : StatKind) (mapping : Mapping) (result : Table) (along : Axis)
    (column computed : String) : Prop where
  /-- The axis is bound to the column. -/
  bound : mapping.column? along.channel = some column
  /-- The result has the column. -/
  kept : result.contains column = true
  /-- The result has the computed column. -/
  computed : result.contains computed = true
  /-- Bins come with their edges. -/
  edges : stat = .bin →
    result.contains (startName column) = true ∧ result.contains (stopName column) = true

section Result

variable {table result : Table} {mapping : Mapping} {geometry : Value} {layer : Option Int}
  {settings : Settings} {defaults : Defaults}

theorem contains_of_assemble {ρ : Type} {stat : StatKind} {keys : List String}
    {division : Division} {computed : List (Table.Rule ρ)} {key : ρ → List Cell}
    {blocks : List (List ρ)} (h : assemble stat keys division computed key blocks = .ok result)
    {name : String} (hname : name ∈ computed.map Table.Rule.name) :
    result.contains name = true := by
  unfold assemble at h
  split at h
  · exact nomatch h
  · refine Table.contains_of_ofRows h ?_
    rw [List.map_append]
    exact List.mem_append_right _ hname

theorem computedBy_of_assemble {ρ : Type} {stat : StatKind} {keys : List String}
    {division : Division} {computed : List (Table.Rule ρ)} {key : ρ → List Cell}
    {blocks : List (List ρ)} (h : assemble stat keys division computed key blocks = .ok result) :
    result.computedBy = some stat.name := by
  unfold assemble at h
  split at h
  · exact nomatch h
  · exact Table.computedBy_of_ofRows h

/-- The column that is read along an axis is the one that is bound to it. -/
theorem name_of_continuousColumn {stat : StatKind} {along : Axis} {name : String}
    (hbound : (mapping.column? along.channel).isSome = true)
    (h : continuousColumn stat table mapping along layer = .ok name) :
    mapping.column? along.channel = some name := by
  obtain ⟨bound, hb⟩ := Option.isSome_iff_exists.1 hbound
  unfold continuousColumn at h
  obtain ⟨kind, -, h⟩ := bind_eq_ok.1 h
  split at h
  · rw [hb, Option.getD_some] at h
    rw [hb, Except.ok.inj h]
  · exact nomatch h

/-- What an input was read from. -/
theorem input_eq_ok {stat : StatKind} {along : Axis} {found : Input}
    (h : (input stat table mapping along layer).outcome = .ok found) :
    continuousColumn stat table mapping along layer = .ok found.name ∧
      table.series found.name = .ok found.column ∧
      groupColumns table mapping found.name = .ok found.keys := by
  unfold input at h
  obtain ⟨name, hname, h⟩ := Logged.bind_eq_ok.1 h
  obtain ⟨keys, hkeys, h⟩ := Logged.bind_eq_ok.1 h
  obtain ⟨column, hcolumn, h⟩ := Logged.bind_eq_ok.1 h
  dsimp only at h
  split at h <;> (cases h; exact ⟨hname, hcolumn, hkeys⟩)

/-- The column of an input is the one that is bound to the axis. -/
theorem name_of_input {stat : StatKind} {along : Axis} {found : Input}
    (hbound : (mapping.column? along.channel).isSome = true)
    (h : (input stat table mapping along layer).outcome = .ok found) :
    mapping.column? along.channel = some found.name :=
  name_of_continuousColumn hbound (input_eq_ok h).1

theorem bin_ranAlong
    (h : (bin settings defaults table mapping geometry layer).outcome = .ok result) :
    result.computedBy = some StatKind.bin.name ∧
      ∃ along column, axis .bin settings.axis table mapping geometry layer = .ok along ∧
        RanAlong .bin mapping result along column countName := by
  unfold bin at h
  split at h
  · exact nomatch h
  obtain ⟨along, halong, h⟩ := Logged.bind_eq_ok.1 h
  obtain ⟨found, hfound, h⟩ := Logged.bind_eq_ok.1 h
  obtain ⟨edges, -, h⟩ := Logged.bind_eq_ok.1 h
  obtain ⟨division, -, h⟩ := Logged.bind_eq_ok.1 h
  -- the rules of the histogram are named after the column that is binned
  have hnames : ∀ name ∈ [found.name, startName found.name, stopName found.name, countName,
      densityName], result.contains name = true := fun name hname => contains_of_assemble h hname
  refine ⟨computedBy_of_assemble h, along, found.name, halong, ?_⟩
  refine ⟨name_of_input (isSome_of_axis halong) hfound, ?_, ?_, fun _ => ⟨?_, ?_⟩⟩
  · exact hnames _ List.mem_cons_self
  · exact hnames _ (by simp)
  · exact hnames _ (by simp)
  · exact hnames _ (by simp)

theorem density_ranAlong {kit : Toolkit} {kernel : Value}
    (h : (density kit kernel settings defaults table mapping geometry layer).outcome =
      .ok result) :
    ∃ along column, axis .density settings.axis table mapping geometry layer = .ok along ∧
      RanAlong .density mapping result along column densityName := by
  unfold density at h
  obtain ⟨along, halong, h⟩ := Logged.bind_eq_ok.1 h
  obtain ⟨found, hfound, h⟩ := Logged.bind_eq_ok.1 h
  split at h
  · exact nomatch h
  obtain ⟨division, -, h⟩ := Logged.bind_eq_ok.1 h
  obtain ⟨blocks, -, h⟩ := Logged.bind_eq_ok.1 h
  have hnames : ∀ name ∈ [found.name, densityName, countName, scaledName],
      result.contains name = true := fun name hname => contains_of_assemble h hname
  refine ⟨along, found.name, halong, ?_⟩
  refine ⟨name_of_input (isSome_of_axis halong) hfound, ?_, ?_, fun h => nomatch h⟩
  · exact hnames _ List.mem_cons_self
  · exact hnames _ (by simp)

/-- Bins and curves run along an axis that is bound to a column, and their result has this column
and the one they compute. -/
theorem run_ranAlong {kit : Toolkit} {stat : StatConfig} {computed : String}
    (hc : computedName? stat.kind = some computed)
    (h : (run kit stat defaults table mapping geometry layer).outcome = .ok result) :
    ∃ settings along column, stat.settings kit layer = .ok settings ∧
      axis stat.kind settings.axis table mapping geometry layer = .ok along ∧
      RanAlong stat.kind mapping result along column computed := by
  unfold run at h
  obtain ⟨settings, hsettings, h⟩ := Logged.bind_eq_ok.1 h
  unfold runWith at h
  -- identity and summary compute no column of their own
  cases hk : stat.kind with
  | identity | summary =>
    rw [hk] at hc
    exact nomatch hc
  | bin =>
    rw [hk] at hc h
    cases hc
    obtain ⟨-, along, column, halong, hran⟩ := bin_ranAlong h
    exact ⟨settings, along, column, hsettings, halong, hran⟩
  | density =>
    rw [hk] at hc h
    cases hc
    obtain ⟨along, column, halong, hran⟩ := density_ranAlong h
    exact ⟨settings, along, column, hsettings, halong, hran⟩

/-- The result of bins says so. -/
theorem computedBy_of_run {kit : Toolkit} {stat : StatConfig} (hk : stat.kind = .bin)
    (h : (run kit stat defaults table mapping geometry layer).outcome = .ok result) :
    result.computedBy = some StatKind.bin.name := by
  unfold run at h
  obtain ⟨settings, -, h⟩ := Logged.bind_eq_ok.1 h
  unfold runWith at h
  rw [hk] at h
  exact (bin_ranAlong h).1

end Result

/-! ### The columns of a summary -/

section Columns

/-- Mapping what was made with its place is mapping, if the place does not matter then. -/
theorem map_mapIdx {α β γ : Type} {f : Nat → α → β} {g : β → γ} {h : α → γ} {xs : List α}
    (heq : ∀ i a, xs[i]? = some a → g (f i a) = h a) : (xs.mapIdx f).map g = xs.map h := by
  refine List.ext_getElem? fun i => ?_
  rw [List.getElem?_map, List.getElem?_mapIdx, List.getElem?_map]
  cases hi : xs[i]? with
  | none => rfl
  | some a => exact congrArg some (heq i a hi)

theorem names_keyRules {ρ : Type} {names : List String} {columns : List Column}
    {kinds : List ColumnKind} (hcolumns : columns.length = names.length)
    (hkinds : kinds.length = names.length) (stores : List KeyStore) (key : ρ → List Cell) :
    (keyRules names columns kinds stores key).map Table.Rule.name = names := by
  have hlength : names.length = (columns.zip kinds).length := by
    rw [List.length_zip, hcolumns, hkinds, Nat.min_self]
  unfold keyRules
  rw [map_mapIdx (h := Prod.fst), List.map_fst_zip (Nat.le_of_eq hlength)]
  exact fun _ _ _ => rfl

theorem names_summaryRules {keys reduced : List String} {keyColumns : List Column}
    {kinds : List ColumnKind} {types : List ColumnType} (hcolumns : keyColumns.length = keys.length)
    (hkinds : kinds.length = keys.length) (htypes : types.length = reduced.length)
    (stores : List KeyStore) :
    (summaryRules keys keyColumns kinds stores reduced types).map Table.Rule.name =
      keys ++ reduced := by
  unfold summaryRules
  rw [List.map_append, names_keyRules hcolumns hkinds, map_mapIdx (h := Prod.fst),
    List.map_fst_zip (Nat.le_of_eq htypes.symm)]
  exact fun _ _ _ => rfl

variable {table result : Table} {mapping : Mapping} {layer : Option Int}

/-- The columns of a summary are collected one by one: a column that is known is passed over, and
any other is added, if it is only counted or is continuous. -/
theorem reducedColumns_steps {counting : Bool} {keys reduced : List String}
    (h : reducedColumns counting table mapping keys layer = .ok reduced) :
    ∃ step : List String → Channel × String → Except Failure (List String),
      mapping.columns.foldlM step [] = .ok reduced ∧
        ∀ found e found', step found e = .ok found' →
          (found' = found ∧ (e.2 ∈ keys ∨ e.2 ∈ found)) ∨
            (found' = found ++ [e.2] ∧
              (counting = true ∨ table.kind e.2 = .ok .continuous)) := by
  refine ⟨_, h, fun found e found' hstep => ?_⟩
  -- a name that is already a key or already taken leaves the list as it was
  split at hstep
  · next hknown =>
    cases hstep
    rw [Bool.or_eq_true, List.contains_iff_mem, List.contains_iff_mem] at hknown
    exact Or.inl ⟨rfl, hknown⟩
  -- any other name is added, once it is counted or continuous
  · split at hstep
    · next hcounting =>
      cases hstep
      exact Or.inr ⟨rfl, Or.inl hcounting⟩
    · obtain ⟨kind, hkind, hstep⟩ := bind_eq_ok.1 hstep
      split at hstep
      · next hcontinuous =>
        cases hstep
        exact Or.inr ⟨rfl, Or.inr (hcontinuous ▸ hkind)⟩
      · exact nomatch hstep

/-- A column that is bound is a key of a summary or is reduced by it. -/
theorem mem_of_reducedColumns {counting : Bool} {keys reduced : List String}
    (h : reducedColumns counting table mapping keys layer = .ok reduced) {c : Channel}
    {name : String} (hc : mapping.column? c = some name) : name ∈ keys ∨ name ∈ reduced := by
  obtain ⟨step, hfold, hsteps⟩ := reducedColumns_steps h
  refine foldlM_reaches (P := fun found => name ∈ keys ∨ name ∈ found)
    (Mapping.mem_columns.2 hc) (fun found found' hstep => ?_)
    (fun found e found' _ hfound hstep => ?_) hfold
  · -- at its own turn the column is known already or is added
    rcases hsteps found _ found' hstep with ⟨rfl, hknown⟩ | ⟨rfl, -⟩
    · exact hknown
    · exact Or.inr (List.mem_append_right _ List.mem_cons_self)
  · rcases hsteps found e found' hstep with ⟨rfl, -⟩ | ⟨rfl, -⟩
    · exact hfound
    · exact hfound.imp_right (List.mem_append_left _)

/-- The result of a summary has every column that is bound. -/
theorem contains_of_summary {kit : Toolkit} {stat : StatConfig} {settings : Settings}
    {geometry : Value} (h : summary kit stat settings table mapping geometry layer = .ok result)
    {c : Channel} {name : String} (hc : mapping.column? c = some name) :
    result.contains name = true := by
  unfold summary at h
  obtain ⟨along, -, h⟩ := bind_eq_ok.1 h
  split at h
  · exact nomatch h
  obtain ⟨reduce, -, h⟩ := bind_eq_ok.1 h
  obtain ⟨others, -, h⟩ := bind_eq_ok.1 h
  obtain ⟨reduced, hreduced, h⟩ := bind_eq_ok.1 h
  obtain ⟨keyColumns, hkeyColumns, h⟩ := bind_eq_ok.1 h
  obtain ⟨reducedColumns, hreducedColumns, h⟩ := bind_eq_ok.1 h
  extract_lets -underBinder afterKeys at h
  split at h
  · obtain ⟨rows, -, h⟩ := bind_eq_ok.1 h
    obtain ⟨kinds, hkinds, h⟩ := bind_eq_ok.1 h
    -- the names of the result are the keys and then the reduced columns, and every bound column is
    -- one
    refine Table.contains_of_ofRows h ?_
    rw [names_summaryRules (length_of_mapM hkeyColumns) (length_of_mapM hkinds)
      ((List.length_map _).trans (length_of_mapM hreducedColumns))]
    exact List.mem_append.2 (mem_of_reducedColumns hreduced hc)
  · exact nomatch h

/-- A statistic that computes no axis keeps every column that is bound. -/
theorem contains_of_run {kit : Toolkit} {stat : StatConfig} {defaults : Defaults} {geometry : Value}
    (hnone : computedName? stat.kind = none)
    (hpresent : ∀ c name, mapping.column? c = some name → table.contains name = true)
    (h : (run kit stat defaults table mapping geometry layer).outcome = .ok result) {c : Channel}
    {name : String} (hc : mapping.column? c = some name) : result.contains name = true := by
  unfold run at h
  obtain ⟨settings, -, h⟩ := Logged.bind_eq_ok.1 h
  unfold runWith at h
  cases hk : stat.kind with
  | identity =>
    rw [hk] at h
    cases h
    exact hpresent c name hc
  | summary =>
    rw [hk] at h
    exact contains_of_summary h hc
  | bin | density =>
    rw [hk] at hnone
    exact nomatch hnone

end Columns

end Stat

end PlotGrammar
