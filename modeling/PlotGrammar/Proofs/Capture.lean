import PlotGrammar.Proofs.Preparation
import PlotGrammar.Proofs.Stat.Sampling
import PlotGrammar.Proofs.Table.Lookup

/-!
# Bindings after bins and curves

Bins and curves make a new table of the columns that divide the rows and of columns that they
compute (`Stat.ComputedFrom`). What a channel is bound to is looked up there by name. So a binding
survives if its column was read, and also if its column just has the name of a computed one.

* `Build.column?_of_transform` says which bindings survive, off the axis that is computed.
* `Build.warns_of_transform`: whichever does not is dropped with a warning.
* `Build.bindings_of_prepare` puts both together for a prepared layer. Channels keep to columns that
  were read exactly if none of them names a computed column, apart from the column the statistic ran
  along. Otherwise the binding is captured, and the channel shows what was computed
  (`Build.count_captured`).
-/

namespace PlotGrammar

namespace Logged

variable {α : Type}

theorem events_problemOrResult (x : Logged α) : x.problemOrResult.events = x.events := by
  unfold problemOrResult
  split <;> rfl

end Logged

namespace Stat

/-- The columns that a statistic reads: the one it runs along, and those that divide the rows. -/
def Input.Reads (found : Input) (name : String) : Prop :=
  name = found.name ∨ name ∈ found.keys

/-- A statistic ran along an axis, read an input, and left a table of the columns that divide the
rows and of those that it computes. -/
structure ComputedFrom (kit : Toolkit) (stat : StatConfig) (table : Table) (mapping : Mapping)
    (geometry : Value) (layer : Option Int) (along : Axis) (found : Input) (result : Table) :
    Prop where
  axis : ∃ settings, stat.settings kit layer = .ok settings ∧
    axis stat.kind settings.axis table mapping geometry layer = .ok along
  input : (input stat.kind table mapping along layer).outcome = .ok found
  names : result.names = found.keys ++ computedNames stat.kind found.name

section Computed

variable {kit : Toolkit} {stat : StatConfig} {settings : Settings} {defaults : Defaults}
  {table result : Table} {mapping : Mapping} {geometry : Value} {layer : Option Int}
  {computed : String}

theorem names_of_assemble {ρ : Type} {kind : StatKind} {names : List String} {division : Division}
    {rules : List (Table.Rule ρ)} {key : ρ → List Cell} {blocks : List (List ρ)}
    (h : assemble kind names division rules key blocks = .ok result)
    (hcolumns : division.columns.length = names.length)
    (hkinds : division.kinds.length = names.length) :
    result.names = names ++ rules.map Table.Rule.name := by
  -- names are the first components of kinds, which are known
  have hfst : result.names = result.kinds.map Prod.fst := by
    unfold Table.names Table.kinds
    rw [List.map_map]
    rfl
  rw [hfst, kinds_of_assemble h hcolumns hkinds, List.map_append,
    List.map_fst_zip (Nat.le_of_eq hkinds.symm), List.map_map]
  rfl

/-- Bins and curves leave a table that is computed from their input. -/
theorem exists_computedFrom (hc : computedName? stat.kind = some computed)
    (h : (run kit stat defaults table mapping geometry layer).outcome = .ok result) :
    ∃ along found, ComputedFrom kit stat table mapping geometry layer along found result := by
  obtain ⟨settings, hsettings, h⟩ := run_eq_ok_iff.1 h
  unfold runWith at h
  -- the two statistics that compute columns differ in what is assembled, not in how
  cases hk : stat.kind with
  | identity | summary =>
    rw [hk] at hc
    exact nomatch hc
  | bin =>
    rw [hk] at h
    obtain ⟨-, along, found, edges, division, halong, hfound, -, hdivision, h⟩ := bin_eq_ok_iff.1 h
    obtain ⟨hcolumns, hkinds, -, -⟩ := divide_eq_ok_iff.1 hdivision
    refine ⟨along, found, ⟨settings, hsettings, hk ▸ halong⟩, hk ▸ hfound, ?_⟩
    rw [names_of_assemble h (length_of_mapM hcolumns) (length_of_mapM hkinds), hk]
    rfl
  | density =>
    rw [hk] at h
    obtain ⟨along, found, weighing, division, blocks, halong, hfound, -, hdivision, -, h⟩ :=
      density_eq_ok_iff.1 h
    obtain ⟨hcolumns, hkinds, -, -⟩ := divide_eq_ok_iff.1 hdivision
    refine ⟨along, found, ⟨settings, hsettings, hk ▸ halong⟩, hk ▸ hfound, ?_⟩
    rw [names_of_assemble h (length_of_mapM hcolumns) (length_of_mapM hkinds), hk]
    rfl

namespace ComputedFrom

variable {along : Axis} {found : Input}
  (h : ComputedFrom kit stat table mapping geometry layer along found result)

include h

theorem contains_iff {name : String} :
    result.contains name = true ↔
      name ∈ found.keys ∨ name ∈ computedNames stat.kind found.name := by
  rw [Table.contains_iff_mem, h.names, List.mem_append]

/-- No column that divides the rows has the name of a computed one, as there would be two. -/
theorem not_mem_keys {name : String} (hname : name ∈ computedNames stat.kind found.name) :
    name ∉ found.keys := by
  have hdistinct : (found.keys ++ computedNames stat.kind found.name).Nodup :=
    h.names ▸ result.distinct
  exact fun hkey => List.disjoint_of_nodup_append hdistinct hkey hname

end ComputedFrom

/-! ### What is dropped -/

/-- Only the axis opposite to the one a statistic ran along is bound anew. -/
theorem column?_boundOther_of_ne {a : Axis} {c : Channel} (hne : c ≠ a.other.channel) :
    (boundOther mapping result a computed).column? c = mapping.column? c := by
  have hset := mapping.column?_set_of_ne (.column computed) hne
  unfold boundOther
  split
  · exact hset
  · split
    · rfl
    · exact hset

/-- A binding to a column that the result does not have is dropped with a warning. -/
theorem warns_of_remap {kind : StatKind} (hc : computedName? kind = some computed) {a : Axis}
    {c : Channel} {name : String} (hne : c ≠ a.other.channel)
    (hbound : mapping.column? c = some name) (habsent : result.contains name = false) :
    .channelDropped layer c name kind ∈
      (remap kind mapping (some result) (some a) layer).events := by
  unfold remap
  rw [hc, Option.some_or]
  dsimp only
  rw [Logged.events_bind_ok (outcome_bindComputed kind mapping result layer a computed)]
  refine List.mem_append_right _ (List.mem_append_left _ ?_)
  refine List.mem_map.2 ⟨(c, name), List.mem_filter.2 ⟨?_, by rw [habsent]; rfl⟩, rfl⟩
  exact Mapping.mem_columns.2 ((column?_boundOther_of_ne hne).trans hbound)

end Computed

end Stat

namespace Build

section Transform

variable {kit : Toolkit} {defaults : Stat.Defaults} {stat : StatConfig} {table : Table}
  {mapping : Mapping} {geometry : Geometry} {index : Nat} {p : Prepared} {computed : String}
  {along : Axis} {found : Stat.Input}

/-- The axis that is found once more for drawing is the one the statistic ran along. -/
theorem orientation_of_computedFrom {result : Table}
    (h : Stat.ComputedFrom kit stat table mapping (.member (.geometry geometry)) (some index)
      along found result) :
    Stat.orientation stat table mapping (.member (.geometry geometry)) (some index) =
      .ok along := by
  obtain ⟨settings, hsettings, halong⟩ := h.axis
  rw [Stat.orientation_eq_axis hsettings, halong]

variable (hc : Stat.computedName? stat.kind = some computed)
  (htransform : (transform kit defaults stat table mapping geometry index).outcome = .ok p)
  (h : Stat.ComputedFrom kit stat table mapping (.member (.geometry geometry)) (some index)
    along found p.data)

include hc htransform h

/-- Off the axis that is computed, a binding survives exactly if the result has a column of this
name. -/
theorem column?_of_transform {c : Channel} (hne : c ≠ along.other.channel) :
    p.mapping.column? c = (mapping.column? c).filter p.data.contains := by
  obtain ⟨-, known, hknown, hmapping⟩ := transform_eq_ok.1 htransform
  unfold drawnAlong at hknown
  rw [hc, Option.isSome_some, if_pos rfl, orientation_of_computedFrom h] at hknown
  cases hknown
  rw [hmapping, Stat.drawn_of_computed hc, Stat.column?_filter_survives,
    Stat.column?_boundOther_of_ne hne]

/-- Off the axis that is computed, a binding that does not survive is dropped with a warning. -/
theorem warns_of_transform {c : Channel} {name : String} (hne : c ≠ along.other.channel)
    (hbound : mapping.column? c = some name) (habsent : p.data.contains name = false) :
    .channelDropped (some index) c name stat.kind ∈
      (transform kit defaults stat table mapping geometry index).events := by
  unfold transform
  dsimp only
  rw [Logged.events_bind_ok (transform_eq_ok.1 htransform).1, hc]
  refine List.mem_append_right _ ?_
  dsimp only
  rw [orientation_of_computedFrom h]
  change _ ∈ (Stat.remap stat.kind mapping (some p.data) (some along) (some index) >>= _).events
  rw [Logged.events_bind_ok (Stat.outcome_remap _ _ _ _ _)]
  exact List.mem_append_left _ (Stat.warns_of_remap hc hne hbound habsent)

end Transform

section Prepare

variable {kit : Toolkit} {defaults : Stat.Defaults} {data : Table} {root : Mapping} {index : Nat}
  {layer : Layer} {p : Prepared}

/-- What the statistic of a layer records is recorded by its preparation. -/
theorem mem_events_prepare (h : Ready kit defaults data root index layer p) {e : Event}
    (he : e ∈ (transform kit defaults layer.stat (layer.table data) (layer.resolved root)
      layer.geometry index).events) :
    e ∈ (prepare kit defaults data root index layer).events := by
  -- a layer that was prepared had no problem before its stat ran
  have hnone : bindingProblems data root index layer = [] :=
    bindingProblems_eq_nil.2 ⟨h.columns, h.geometry⟩
  unfold prepare
  dsimp only
  rw [Logged.events_bind_ok (Logged.outcome_record _)]
  refine List.mem_append_right _ ?_
  change e ∈ (if !(bindingProblems data root index layer).isEmpty then
      pure (.error (bindingProblems data root index layer))
    else do
      let done ← (transform kit defaults layer.stat (layer.table data) (layer.resolved root)
        layer.geometry index).problemOrResult
      pure (done.mapError fun p => [p]) : Logged (Except (List Problem) Prepared)).events
  rw [hnone, if_neg (by simp), Logged.events_bind_ok (Logged.problemOrResult_eq_ok.2 h.stat),
    Logged.events_problemOrResult]
  exact List.mem_append_left _ he

/-- **Bindings of a prepared layer with bins or curves**, off the axis that is computed. A binding
survives exactly if its column divides the rows or has the name of a computed one, and any other is
dropped with a warning. So channels keep to columns that were read exactly if none of them names a
computed column, apart from the one the statistic ran along. -/
theorem bindings_of_prepare (computed : String)
    (hc : Stat.computedName? layer.stat.kind = some computed)
    (hprepare : (prepare kit defaults data root index layer).outcome = .ok (.ok p)) :
    ∃ along found, Stat.ComputedFrom kit layer.stat (layer.table data) (layer.resolved root)
        (.member (.geometry layer.geometry)) (some index) along found p.data ∧
      (∀ c n, c ≠ along.other.channel → (p.mapping.column? c = some n ↔
        (layer.resolved root).column? c = some n ∧
          (n ∈ found.keys ∨ n ∈ Stat.computedNames layer.stat.kind found.name))) ∧
      (∀ c n, c ≠ along.other.channel → (layer.resolved root).column? c = some n →
        p.mapping.column? c ≠ some n →
          p.mapping.column? c = none ∧ ∃ e ∈ (prepare kit defaults data root index layer).events,
            e = .channelDropped (some index) c n layer.stat.kind ∧ e.level = .warning) ∧
      ((∀ c n, c ≠ along.other.channel → p.mapping.column? c = some n → found.Reads n) ↔
        ∀ c n, c ≠ along.other.channel → (layer.resolved root).column? c = some n →
          n ∈ Stat.computedNames layer.stat.kind found.name → n = found.name) := by
  have hready := prepare_eq_ok.1 hprepare
  obtain ⟨along, found, h⟩ := Stat.exists_computedFrom hc (transform_eq_ok.1 hready.stat).1
  have hcolumn : ∀ c, c ≠ along.other.channel →
      p.mapping.column? c = ((layer.resolved root).column? c).filter p.data.contains :=
    fun c hne => column?_of_transform hc hready.stat h hne
  have hsurvives : ∀ c n, c ≠ along.other.channel → (p.mapping.column? c = some n ↔
      (layer.resolved root).column? c = some n ∧
        (n ∈ found.keys ∨ n ∈ Stat.computedNames layer.stat.kind found.name)) := by
    intro c n hne
    rw [hcolumn c hne, Option.filter_eq_some_iff, h.contains_iff]
  refine ⟨along, found, h, hsurvives, fun c n hne hbound hgone => ?_, ?_⟩
  · have habsent : p.data.contains n = false := by
      rw [← Bool.not_eq_true, h.contains_iff]
      exact fun hn => hgone ((hsurvives c n hne).2 ⟨hbound, hn⟩)
    refine ⟨?_, _, mem_events_prepare hready
      (warns_of_transform hc hready.stat h hne hbound habsent), rfl, rfl⟩
    rw [hcolumn c hne, hbound, Option.filter_some, if_neg (habsent ▸ Bool.false_ne_true)]
  · constructor
    · intro hreads c n hne hbound hname
      -- a column that was read and is computed cannot divide the rows
      rcases hreads c n hne ((hsurvives c n hne).2 ⟨hbound, Or.inr hname⟩) with heq | hkey
      · exact heq
      · exact absurd hkey (h.not_mem_keys hname)
    · intro hfree c n hne hdrawn
      obtain ⟨hbound, hkey | hname⟩ := (hsurvives c n hne).1 hdrawn
      · exact Or.inr hkey
      · exact Or.inl (hfree c n hne hbound hname)

/-- Three columns of numbers, one of which bears the name of the counts of bins. -/
def countedTable : Table where
  fields := [⟨.text "v", .continuous, ⟨.int, [.int 1, .int 2]⟩⟩,
    ⟨.text "w", .continuous, ⟨.int, [.int 3, .int 4]⟩⟩,
    ⟨.text "count", .continuous, ⟨.int, [.int 5, .int 7]⟩⟩]
  height := 2
  computedBy := none
  uniform := by decide
  distinct := by decide

/-- A channel for each of them. -/
def countedMapping : Mapping :=
  ((Mapping.empty.set .x (.column "v")).set .color (.column "w")).set .fill (.column "count")

/-- A histogram of the first column. -/
def countedLayer : Layer :=
  ⟨.histogram, none, none, { kind := .bin, bins := .int 1 }, [], .null⟩

/-- The histogram runs along the horizontal axis, and reads the first column only. -/
theorem input_of_countedLayer {along : Axis} {found : Stat.Input} {t : Table}
    (h : Stat.ComputedFrom .standard countedLayer.stat countedTable countedMapping
      (.member (.geometry .histogram)) (some 0) along found t) :
    along = .x ∧ found.name = "v" ∧ found.keys = [] := by
  -- with one continuous column the orientation is settled, and with it the column and its keys
  have horientation : Stat.orientation countedLayer.stat countedTable countedMapping
      (.member (.geometry .histogram)) (some 0) = .ok .x := rfl
  obtain ⟨settings, hsettings, halong⟩ := h.axis
  cases horientation.symm.trans ((Stat.orientation_eq_axis hsettings _ _ _).trans halong)
  have hread : ((Stat.input .bin countedTable countedMapping .x (some 0)).outcome.map fun found =>
      (found.name, found.keys)) = .ok ("v", []) := rfl
  rw [show (Stat.input .bin countedTable countedMapping .x (some 0)).outcome = .ok found from
    h.input] at hread
  obtain ⟨hname, hkeys⟩ := Prod.mk.inj (Except.ok.inj hread)
  exact ⟨rfl, hname, hkeys⟩

theorem exists_prepare_countedLayer :
    ∃ p, (prepare .standard {} countedTable countedMapping 0 countedLayer).outcome =
      .ok (.ok p) := by
  have hok : ((prepare .standard {} countedTable countedMapping 0 countedLayer).outcome.toOption.any
      Except.toBool) = true := by
    decide +kernel
  cases hrun : (prepare .standard {} countedTable countedMapping 0 countedLayer).outcome with
  | error e =>
    rw [hrun] at hok
    exact nomatch hok
  | ok done =>
    rw [hrun] at hok
    cases done with
    | ok p => exact ⟨p, rfl⟩
    | error ps => exact nomatch hok

/-- Of the channels off the axes one is dropped with a warning; the other one stays bound, as its
column has the name of the counts. -/
theorem bindings_of_prepare_countedLayer :
    ∃ p, (prepare .standard {} countedTable countedMapping 0 countedLayer).outcome = .ok (.ok p) ∧
      p.mapping.column? .color = none ∧
      (∃ e ∈ (prepare .standard {} countedTable countedMapping 0 countedLayer).events,
        e = .channelDropped (some 0) .color "w" .bin ∧ e.level = .warning) ∧
      p.mapping.column? .fill = some "count" := by
  obtain ⟨p, hp⟩ := exists_prepare_countedLayer
  obtain ⟨along, found, h, hsurvives, hdropped, -⟩ := bindings_of_prepare Stat.countName rfl hp
  obtain ⟨rfl, hname, hkeys⟩ := input_of_countedLayer h
  -- the column `w` is neither binned nor a key nor computed, so it is gone
  obtain ⟨hnone, hwarned⟩ := hdropped .color "w" (by decide) rfl fun hstays => by
    have hmem := ((hsurvives .color "w" (by decide)).1 hstays).2
    rw [hname, hkeys] at hmem
    revert hmem
    decide
  refine ⟨p, hp, hnone, hwarned, (hsurvives .fill "count" (by decide)).2 ⟨rfl, Or.inr ?_⟩⟩
  rw [hname]
  decide

/-- Channels do not always keep to columns that were read: one that was bound to a column of data
shows the counts of bins instead. -/
theorem count_captured :
    ¬ ∀ (kit : Toolkit) (defaults : Stat.Defaults) (data : Table) (root : Mapping) (index : Nat)
        (layer : Layer) (p : Prepared) (along : Axis) (found : Stat.Input),
      (Stat.computedName? layer.stat.kind).isSome = true →
        (prepare kit defaults data root index layer).outcome = .ok (.ok p) →
        Stat.ComputedFrom kit layer.stat (layer.table data) (layer.resolved root)
          (.member (.geometry layer.geometry)) (some index) along found p.data →
        ∀ c n, c ≠ along.other.channel → p.mapping.column? c = some n → found.Reads n := by
  intro hall
  obtain ⟨p, hp⟩ := exists_prepare_countedLayer
  have hready := prepare_eq_ok.1 hp
  have hcomputed : Stat.computedName? countedLayer.stat.kind = some Stat.countName := rfl
  -- the hypotheses hold of this layer, so that the conclusion is refuted on it
  obtain ⟨along, found, h⟩ := Stat.exists_computedFrom hcomputed (transform_eq_ok.1 hready.stat).1
  obtain ⟨rfl, hname, hkeys⟩ := input_of_countedLayer h
  have hfill : p.mapping.column? .fill = some "count" := by
    rw [column?_of_transform rfl hready.stat h (by decide)]
    refine Option.filter_eq_some_iff.2 ⟨rfl, h.contains_iff.2 (Or.inr ?_)⟩
    rw [hname]
    decide
  -- `fill` reads neither the column that is counted nor a key, since there are none
  rcases hall _ _ _ _ _ _ _ _ _ rfl hp h .fill "count" (by decide) hfill with heq | hkey
  · rw [hname] at heq
    revert heq
    decide
  · rw [hkeys] at hkey
    exact absurd hkey List.not_mem_nil

end Prepare

end Build

end PlotGrammar
