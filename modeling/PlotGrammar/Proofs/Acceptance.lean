import PlotGrammar.Proofs.Specification

/-!
# Which plots can be built

`Build.Acceptable` says it without a word about the order of things: the root has rows, every layer
passes its preparation by itself, columns that share a scale are of one kind, and every scale gets a
cell it can use. `Build.run_ok_iff_acceptable` says that a build succeeds exactly then, and
otherwise reports something.

That the first column decides the kind of a scale and later ones are measured against it does not
matter: the columns before a clash have been read, so a clash always involves two columns of
different kinds (`Build.no_problem_of_kinds`).
-/

namespace PlotGrammar

namespace Build

open ScaleRegistry (Attempt Reflects readingsFor feeding columnCells)

variable {kit : Toolkit} {config : BuildConfig} {plot : Plot}

/-- A channel of a prepared layer is bound to a column of its table. -/
def Feeds (kit : Toolkit) (config : BuildConfig) (plot : Plot) (c : Channel) (table : Table)
    (column : String) : Prop :=
  ∃ i layer p, plot.layers[i]? = some layer ∧
    Ready kit config.defaults plot.data plot.mapping i layer p ∧
    p.mapping.column? c = some column ∧ p.data = table

/-- A plot that can be built. -/
structure Acceptable (kit : Toolkit) (config : BuildConfig) (plot : Plot) : Prop where
  /-- The root has rows. -/
  rows : plot.data.isEmpty = false
  /-- Every layer passes its preparation. -/
  ready : ∀ i layer, plot.layers[i]? = some layer →
    ∃ p, Ready kit config.defaults plot.data plot.mapping i layer p
  /-- Columns that feed one scale are of one kind. -/
  kinds : ∀ c table column d table' column', Feeds kit config plot c table column →
    Feeds kit config plot d table' column' → c.scaleChannel = d.scaleChannel →
      table.kind? column = table'.kind? column'
  /-- A scale that is fed gets a cell that it can use. -/
  values : ∀ c table column, Feeds kit config plot c table column →
    ∃ d table' column' kind, Feeds kit config plot d table' column' ∧
      d.scaleChannel = c.scaleChannel ∧ table'.kind? column' = some kind ∧
      ∃ name ∈ feeding table' column', ∃ cells,
        columnCells table' kind name = .ok cells ∧ cells ≠ []

/-! ### From a build to its plot -/

section Built

variable {spec : RenderSpec} {items : List Item} {attempts : List Attempt}

/-- What makes a layer ready is what its preparation gave. -/
theorem exists_item_of_ready
    (h : (preparations kit config plot).outcome = .ok items) {i : Nat} {layer : Layer}
    {p : Prepared} (hi : plot.layers[i]? = some layer)
    (hp : Ready kit config.defaults plot.data plot.mapping i layer p) :
    ∃ item ∈ items, item.outcome = .ok p := by
  obtain ⟨-, hlayers⟩ := prepareAll_eq_ok h
  obtain ⟨outcome, hitem, houtcome⟩ := hlayers i layer hi
  rw [Nat.zero_add, prepare_eq_ok.2 hp] at houtcome
  exact ⟨_, List.mem_of_getElem? hitem, (Except.ok.inj houtcome).symm⟩

/-- A prepared layer feeds the scales of the channels it binds to columns. -/
theorem feeds_of_item
    (h : (preparations kit config plot).outcome = .ok items) {item : Item} {p : Prepared}
    {c : Channel} {column : String} (hitem : item ∈ items) (hp : item.outcome = .ok p)
    (hc : p.mapping.column? c = some column) :
    Feeds kit config plot c p.data column := by
  obtain ⟨hlayer, hprepare⟩ := mem_of_prepareAll h hitem
  rw [hp] at hprepare
  exact ⟨item.index, item.layer, p, hlayer, prepare_eq_ok.1 hprepare, hc, rfl⟩

/-- Columns that are read one after the other give cells if and only if one of them does. -/
theorem flatten_ne_nil_iff {table : Table} {kind : ColumnKind} {names : List String}
    {columns : List (List Cell)} (h : names.mapM (columnCells table kind) = .ok columns) :
    columns.flatten ≠ [] ↔
      ∃ name ∈ names, ∃ cells, columnCells table kind name = .ok cells ∧ cells ≠ [] := by
  -- induction on the columns: a value is found in the first one or among the others
  induction names generalizing columns with
  | nil =>
    cases h
    exact ⟨fun hne => absurd rfl hne, fun ⟨_, hname, _⟩ => absurd hname List.not_mem_nil⟩
  | cons first rest ih =>
    rw [List.mapM_cons] at h
    obtain ⟨own, hown, h⟩ := bind_eq_ok.1 h
    obtain ⟨others, hothers, h⟩ := bind_eq_ok.1 h
    cases h
    rw [List.flatten_cons, ne_eq, List.append_eq_nil_iff, not_and_or, ← ne_eq, ← ne_eq,
      ih hothers]
    constructor
    · rintro (hne | ⟨name, hname, hcells⟩)
      · exact ⟨first, List.mem_cons_self, own, hown, hne⟩
      · exact ⟨name, List.mem_cons_of_mem _ hname, hcells⟩
    · rintro ⟨name, hname, cells, hcells, hne⟩
      rcases List.mem_cons.1 hname with rfl | hname
      · obtain rfl : own = cells := Except.ok.inj (hown.symm.trans hcells)
        exact Or.inl hne
      · exact Or.inr ⟨name, hname, cells, hcells, hne⟩

/-- Readings without any cell belong to a scale without a domain. -/
theorem exists_reading_of_valid {s : Scale} {readings : List Reading} (h : s.Summarizes readings)
    (hv : s.valid = true) : ∃ x ∈ readings, x.cells ≠ [] := by
  have hall : Reading.all readings ≠ [] := by
    intro hnil
    rw [h.invalid.2 hnil] at hv
    exact Bool.false_ne_true hv
  obtain ⟨c, hc⟩ := List.exists_mem_of_ne_nil _ hall
  obtain ⟨x, hx, hcx⟩ := List.mem_flatMap.1 hc
  exact ⟨x, hx, List.ne_nil_of_mem hcx⟩

theorem acceptable_of_built (h : Built kit config plot spec items attempts) :
    Acceptable kit config plot where
  rows := h.rows
  ready := by
    intro i layer hi
    obtain ⟨item, p, drawn, hitem, rfl, rfl, -, hdraws⟩ := h.layer hi
    exact ⟨p, h.ready_of_mem hitem hdraws.outcome⟩
  kinds := by
    rintro c table column d table' column' ⟨i, layer, p, hi, hp, hc, rfl⟩
      ⟨j, layer', q, hj, hq, hd, rfl⟩ hchannel
    obtain ⟨item, hitem, hout⟩ := exists_item_of_ready h.prepared hi hp
    obtain ⟨item', hitem', hout'⟩ := exists_item_of_ready h.prepared hj hq
    obtain ⟨s, -, hs, -, -, hkind, -⟩ := h.scale hitem hout hc
    obtain ⟨s', -, hs', -, -, hkind', -⟩ := h.scale hitem' hout' hd
    rw [scale?_congr hchannel, hs'] at hs
    rw [hkind, hkind', Option.some.inj hs]
  values := by
    rintro c table column ⟨i, layer, p, hi, hp, hc, rfl⟩
    obtain ⟨item, hitem, hout⟩ := exists_item_of_ready h.prepared hi hp
    obtain ⟨s, -, -, -, hvalid, -, -, hsum, -⟩ := h.scale hitem hout hc
    -- a valid scale has read a cell, and it has read it from a column of some layer
    obtain ⟨x, hx, hcells⟩ := exists_reading_of_valid hsum hvalid
    obtain ⟨item', hitem', q, d, name, columns, hout', hchannel, hname, hkind, hread, hflat⟩ :=
      h.source_of_reading hx
    rw [hflat] at hcells
    exact ⟨d, q.data, name, x.kind, feeds_of_item h.prepared hitem' hout' hname, hchannel, hkind,
      (flatten_ne_nil_iff hread).1 hcells⟩

end Built

/-! ### From a plot to its build -/

section Accepted

variable {items : List Item}

/-- If columns that share a scale are of one kind, no call meets a problem: a call that does has
been preceded by one that read a column of another kind. -/
theorem no_problem_of_kinds (h : Acceptable kit config plot)
    (hitems : (preparations kit config plot).outcome = .ok items) {a : Attempt}
    (ha : a ∈ feedAttempts .empty items) : a.problem? = none := by
  have hr := reflects_fedRegistry items
  cases hp : a.problem? with
  | none => rfl
  | some problem =>
    obtain ⟨column, hc, hkind⟩ := (hr.explained a ha).refused problem hp
    obtain ⟨item, hitem, p, name, hout, htable, hmapping, hname⟩ := (fedLayers_feed _ _).mem ha
    rw [hmapping] at hc
    have hfeeds := feeds_of_item hitems hitem hout hc
    obtain ⟨kind, hk⟩ : ∃ kind, p.data.kind? column = some kind := by
      obtain ⟨i, layer, p', -, hready, hbound, hdata⟩ := hfeeds
      rw [← hdata]
      exact Table.exists_kind_of_contains (hready.present hbound)
    rw [htable] at hkind
    -- the scale has read another kind, and it has read it from a column of some layer
    obtain ⟨x, hx, hne⟩ := hkind kind hk
    obtain ⟨b, hb, hchannel, hreading⟩ := ScaleRegistry.mem_readingsFor.1 hx
    obtain ⟨item', hitem', q, name', hout', htable', hmapping', hname'⟩ :=
      (fedLayers_feed _ _).mem hb
    have hfeeds' := feeds_of_item hitems hitem' hout' hname'
    have hkind' : q.data.kind? name' = some x.kind := by
      rw [← hmapping'] at hname'
      rw [← htable']
      exact ScaleRegistry.Attempt.kind_of_reading hreading hname'
    rw [h.kinds _ _ _ _ _ _ hfeeds' hfeeds hchannel, hk] at hkind'
    exact absurd (Option.some.inj hkind').symm hne

/-- Where no call meets a problem, a scale that gets a cell it can use has a domain. -/
theorem valid_of_values (h : Acceptable kit config plot)
    (hitems : (preparations kit config plot).outcome = .ok items) {found : List Problem}
    (hfed : (feed .empty items).2.outcome = .ok found) {s : Scale}
    (hs : s ∈ (fedRegistry items).snapshot) : s.valid = true := by
  have hr := reflects_fedRegistry items
  obtain ⟨-, hoffered, hends⟩ := (fedLayers_feed _ _).of_ok hfed
  have hsum := hr.summarizes hs
  -- something feeds the scale, so some cell of its columns can be used
  obtain ⟨x, hx⟩ := List.exists_mem_of_ne_nil _ hsum.fed
  obtain ⟨a, ha, hchannel, -⟩ := ScaleRegistry.mem_readingsFor.1 hx
  obtain ⟨item, hitem, p, name, hout, -, -, hname⟩ := (fedLayers_feed _ _).mem ha
  obtain ⟨d, table, column, kind, ⟨i, layer, q, hi, hq, hd, rfl⟩, hdc, hkind, name', hname', cells,
    hcells, hne⟩ := h.values _ _ _ (feeds_of_item hitems hitem hout hname)
  obtain ⟨item', hitem', hout'⟩ := exists_item_of_ready hitems hi hq
  -- the column with this cell has been offered to the scale, and the scale has read it
  obtain ⟨b, hb, rfl, htable, hmapping⟩ := hoffered item' hitem' q hout' d column hd
  rw [← hmapping] at hd
  obtain ⟨kind', columns, hkind', hread, hreading⟩ :=
    hr.reading_of_accepted hb (hends b hb (no_problem_of_kinds h hitems hb)) hd
  rw [htable] at hkind' hread
  obtain rfl : kind = kind' := Option.some.inj (hkind.symm.trans hkind')
  have hmem : (⟨kind, columns.flatten⟩ : Reading) ∈
      readingsFor s.channel (feedAttempts .empty items) :=
    ScaleRegistry.mem_readingsFor.2 ⟨b, hb, hdc.trans hchannel, hreading⟩
  cases hv : s.valid with
  | true => rfl
  | false =>
    -- a scale without a domain has read nothing, not even from this column
    have hall := hsum.invalid.1 hv
    have hflat : columns.flatten = [] := by
      refine List.eq_nil_iff_forall_not_mem.2 fun c hc => ?_
      have : c ∈ Reading.all (readingsFor s.channel (feedAttempts .empty items)) :=
        List.mem_flatMap.2 ⟨_, hmem, hc⟩
      rw [hall] at this
      exact List.not_mem_nil this
    exact absurd hflat ((flatten_ne_nil_iff hread).2 ⟨name', hname', cells, hcells, hne⟩)

end Accepted

/-- A build that fails has found problems, unless a fault ended it. -/
theorem run_eq_error {e : Failure} (h : (run kit config plot).outcome = .error e) :
    (∃ f, e = .fault f) ∨ ∃ ps, ps ≠ [] ∧ e = .build ps := by
  rw [outcome_run] at h
  rcases bind_eq_error.1 h with h | ⟨items, -, h⟩
  · exact Or.inl (fault_of_prepareAll h)
  · rcases bind_eq_error.1 h with h | ⟨found, -, h⟩
    · exact Or.inl ((fedLayers_feed _ _).fault_of_error rfl h)
    · split at h
      · exact nomatch h
      · next hne =>
        cases h
        exact Or.inr ⟨_, hne, rfl⟩

/-- A build of an acceptable plot that no fault ends has nothing to report. -/
theorem run_eq_ok_of_acceptable (h : Acceptable kit config plot)
    (hfault : ∀ f, (run kit config plot).outcome ≠ .error (.fault f)) :
    ∃ spec, (run kit config plot).outcome = .ok spec := by
  rw [outcome_run] at hfault ⊢
  -- a preparation that gives no list of items ends with a fault, which is excluded
  cases hitems : (preparations kit config plot).outcome with
  | error e =>
    obtain ⟨f, rfl⟩ := fault_of_prepareAll hitems
    rw [hitems] at hfault
    exact absurd rfl (hfault f)
  | ok items =>
    rw [hitems] at hfault
    -- feeding breaks off for the same reason only
    cases hfed : (feed .empty items).2.outcome with
    | error e =>
      obtain ⟨f, rfl⟩ := (fedLayers_feed _ _).fault_of_error rfl hfed
      refine absurd ?_ (hfault f)
      change (feed .empty items).2.outcome.bind _ = _
      rw [hfed]
      rfl
    | ok found =>
      obtain ⟨hfound, -, -⟩ := (fedLayers_feed _ _).of_ok hfed
      -- what is left to show is that none of the three sources of problems has one
      have hnone : problems plot.data items found (fedRegistry items).freeze.2 = [] := by
        refine problems_eq_nil.2 ⟨h.rows, fun item hitem => ?_, ?_, fun s hs => ?_⟩
        · -- every layer is ready, so none has reported a problem
          obtain ⟨hlayer, hprepare⟩ := mem_of_prepareAll hitems hitem
          obtain ⟨p, hp⟩ := h.ready _ _ hlayer
          rw [prepare_eq_ok.2 hp] at hprepare
          unfold Item.problems
          rw [← Except.ok.inj hprepare]
        -- kinds that agree leave nothing to be reported of a column that is fed
        · rw [hfound]
          refine List.filterMap_eq_nil_iff.2 fun a ha => ?_
          rw [no_problem_of_kinds h hitems ha]
          rfl
        -- every scale that is kept has a value to show
        · rw [(reflects_fedRegistry items).freeze_eq] at hs
          exact valid_of_values h hitems hfed hs
      exact ⟨⟨items.filterMap layerSpec?, (fedRegistry items).freeze.2⟩,
        bind_eq_ok.2 ⟨items, rfl, bind_eq_ok.2 ⟨found, hfed, if_pos hnone⟩⟩⟩

/-- **Exactly the acceptable plots can be built.** Unless a fault ends it, a build succeeds if its
plot is acceptable, and reports at least one problem if it is not. -/
theorem run_ok_iff_acceptable (kit : Toolkit) (config : BuildConfig) (plot : Plot)
    (hfault : ∀ f, (run kit config plot).outcome ≠ .error (.fault f)) :
    ((∃ spec, (run kit config plot).outcome = .ok spec) ↔ Acceptable kit config plot) ∧
      (¬ Acceptable kit config plot →
        ∃ ps, ps ≠ [] ∧ (run kit config plot).outcome = .error (.build ps)) := by
  have hiff : (∃ spec, (run kit config plot).outcome = .ok spec) ↔ Acceptable kit config plot := by
    constructor
    · rintro ⟨spec, h⟩
      obtain ⟨items, hb⟩ := built_of_run h
      exact acceptable_of_built hb
    · intro h
      exact run_eq_ok_of_acceptable h hfault
  refine ⟨hiff, fun hnot => ?_⟩
  cases hrun : (run kit config plot).outcome with
  | ok spec => exact absurd (hiff.1 ⟨spec, hrun⟩) hnot
  | error e =>
    rcases run_eq_error hrun with ⟨f, rfl⟩ | ⟨ps, hne, rfl⟩
    · exact absurd hrun (hfault f)
    · exact ⟨ps, hne, rfl⟩

/-- A histogram is acceptable. -/
theorem run_ok_iff_acceptable_histogram :
    (∀ f, (run .standard {} histogramPlot).outcome ≠ .error (.fault f)) ∧
      ((∃ spec, (run .standard {} histogramPlot).outcome = .ok spec) ↔
        Acceptable .standard {} histogramPlot) ∧
      (¬ Acceptable .standard {} histogramPlot →
        ∃ ps, ps ≠ [] ∧ (run .standard {} histogramPlot).outcome = .error (.build ps)) := by
  have hok : (run .standard {} histogramPlot).outcome.toBool = true := by decide +kernel
  have hfault : ∀ f, (run .standard {} histogramPlot).outcome ≠ .error (.fault f) := by
    intro f h
    rw [h] at hok
    exact nomatch hok
  exact ⟨hfault, run_ok_iff_acceptable .standard {} histogramPlot hfault⟩

end Build

end PlotGrammar
