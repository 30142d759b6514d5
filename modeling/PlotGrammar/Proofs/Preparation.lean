import PlotGrammar.Plot.Build
import PlotGrammar.Proofs.Stat.Failure
import PlotGrammar.Proofs.Stat.Remap

/-!
# Preparing one layer

A layer is prepared over its own table and mapping, or over those of the root. `Build.Ready` says
when this succeeds, and with what; `Build.prepare_eq_ok` that preparation gives just that. Otherwise
there is a problem to report (`Build.ne_nil_of_prepare`), unless a fault ends everything
(`Build.fault_of_prepare`).

What later steps rely on in a prepared layer is derived from `Build.Ready` alone: the columns it
refers to are in its table (`Build.Ready.present`), nothing is removed (`Build.Ready.keeps`), and
after bins or curves both axes are bound (`Build.Ready.axes`).
-/

namespace PlotGrammar

namespace Layer

/-- The table a layer reads, over a root table. -/
def table (layer : Layer) (data : Table) : Table :=
  layer.data.getD data

/-- The mapping of a layer, merged over a root mapping. -/
def resolved (layer : Layer) (root : Mapping) : Mapping :=
  (layer.mapping.map root.resolve).getD root

theorem keeps_resolved (layer : Layer) {root : Mapping} (h : root.Keeps) :
    (layer.resolved root).Keeps := by
  unfold resolved
  cases layer.mapping with
  | none => exact h
  | some override => exact h.resolve override

end Layer

namespace Logged

variable {α : Type}

theorem problemOrResult_eq_ok {x : Logged α} {a : α} :
    x.problemOrResult.outcome = .ok (.ok a) ↔ x.outcome = .ok a := by
  unfold problemOrResult
  split
  · next b hb =>
    rw [hb]
    exact ⟨fun h => by cases h; rfl, fun h => by cases h; rfl⟩
  · next p hp =>
    rw [hp]
    exact ⟨fun h => (nomatch h), fun h => (nomatch h)⟩
  · next e _ he =>
    rw [he]
    exact ⟨fun h => (nomatch h), fun h => (nomatch h)⟩

/-- What is no problem ends the operation all the same. -/
theorem problemOrResult_eq_error {x : Logged α} {e : Failure}
    (h : x.problemOrResult.outcome = .error e) :
    x.outcome = .error e ∧ ∀ p, e ≠ .problem p := by
  unfold problemOrResult at h
  split at h
  · exact nomatch h
  · exact nomatch h
  · next e' hne he =>
    cases h
    refine ⟨he, ?_⟩
    rintro p rfl
    exact hne p rfl

end Logged

namespace Build

section Prepare

variable {kit : Toolkit} {defaults : Stat.Defaults} {data : Table} {root : Mapping} {index : Nat}
  {layer : Layer}

/-! ### The statistic of a layer -/

section Transform

variable {stat : StatConfig} {table : Table} {mapping : Mapping} {geometry : Geometry}
  {p : Prepared}

/-- The axis that is known when a result is drawn: the one a statistic ran along if it computes the
other one. -/
def drawnAlong (stat : StatConfig) (table : Table) (mapping : Mapping) (geometry : Geometry)
    (index : Nat) : Except Failure (Option Axis) :=
  if (Stat.computedName? stat.kind).isSome then
    (Stat.orientation stat table mapping (.member (.geometry geometry)) (some index)).map some
  else .ok none

/-- The statistic runs, the axis is looked for, and the mapping to draw the result with follows. -/
theorem outcome_transform :
    (transform kit defaults stat table mapping geometry index).outcome =
      (Stat.run kit stat defaults table mapping (.member (.geometry geometry))
        (some index)).outcome.bind fun result =>
          (drawnAlong stat table mapping geometry index).map fun along =>
            ⟨Stat.drawn stat.kind mapping result along, result⟩ := by
  unfold transform drawnAlong
  dsimp only
  rw [Logged.outcome_bind]
  refine congrArg (Except.bind _) (funext fun result => ?_)
  -- only statistics that compute a column ask for their orientation
  cases Stat.computedName? stat.kind with
  | none =>
    change (Stat.remap stat.kind mapping (some result) none (some index) >>= _).outcome = _
    rw [Logged.outcome_bind, Stat.outcome_remap]
    rfl
  | some computed =>
    dsimp only [Option.isSome_some]
    rw [if_pos rfl, Logged.outcome_bind, Logged.outcome_lift]
    cases Stat.orientation stat table mapping (.member (.geometry geometry)) (some index) with
    | error e => rfl
    | ok a =>
      change (Stat.remap stat.kind mapping (some result) (some a) (some index) >>= _).outcome = _
      rw [Logged.outcome_bind, Stat.outcome_remap]
      rfl

/-- Running the statistic of a layer ends with a mapping and a table, one problem or one fault. -/
theorem settles_transform :
    Settles (transform kit defaults stat table mapping geometry index).outcome := by
  rw [outcome_transform]
  refine Settles.bind (Stat.settles_run _ _ _ _ _ _ _) fun result => ?_
  refine Settles.map ?_ _
  unfold drawnAlong
  split
  · exact (Stat.settles_orientation _ _ _ _ _).map some
  · exact .ok none

theorem transform_eq_ok {p : Prepared} :
    (transform kit defaults stat table mapping geometry index).outcome = .ok p ↔
      (Stat.run kit stat defaults table mapping (.member (.geometry geometry))
        (some index)).outcome = .ok p.data ∧
      ∃ along, drawnAlong stat table mapping geometry index = .ok along ∧
        p.mapping = Stat.drawn stat.kind mapping p.data along := by
  rw [outcome_transform]
  constructor
  · intro h
    obtain ⟨result, hresult, h⟩ := bind_eq_ok.1 h
    obtain ⟨along, halong, h⟩ := bind_eq_ok.1 h
    cases h
    exact ⟨hresult, along, halong, rfl⟩
  · rintro ⟨hresult, along, halong, hmapping⟩
    obtain ⟨drawn, result⟩ := p
    refine bind_eq_ok.2 ⟨result, hresult, ?_⟩
    rw [halong]
    exact congrArg Except.ok (congrArg (Prepared.mk · result) hmapping.symm)

/-- Nothing goes wrong after the statistic has run: the axis that is looked for then is the one it
ran along. -/
theorem exists_transform_iff :
    (∃ p, (transform kit defaults stat table mapping geometry index).outcome = .ok p) ↔
      ∃ result, (Stat.run kit stat defaults table mapping (.member (.geometry geometry))
        (some index)).outcome = .ok result := by
  constructor
  · rintro ⟨p, h⟩
    exact ⟨p.data, (transform_eq_ok.1 h).1⟩
  · rintro ⟨result, hrun⟩
    have hknown : ∃ along, drawnAlong stat table mapping geometry index = .ok along := by
      unfold drawnAlong
      cases hc : Stat.computedName? stat.kind with
      | none => exact ⟨none, rfl⟩
      | some computed =>
        obtain ⟨settings, along, column, hsettings, halong, -⟩ := Stat.run_ranAlong hc hrun
        rw [Option.isSome_some, if_pos rfl, Stat.orientation_eq_axis hsettings, halong]
        exact ⟨some along, rfl⟩
    obtain ⟨along, halong⟩ := hknown
    exact ⟨⟨Stat.drawn stat.kind mapping result along, result⟩,
      transform_eq_ok.2 ⟨hrun, along, halong, rfl⟩⟩

end Transform

/-! ### Preparation -/

/-- The problems of a layer that show before its statistic runs. -/
def bindingProblems (data : Table) (root : Mapping) (index : Nat) (layer : Layer) : List Problem :=
  missingColumns (layer.table data) (layer.resolved root) index ++
    problemsOf (layer.geometry.check (layer.resolved root) (some index))

/-- A layer passes its preparation, by itself: the columns it is bound to are in its table, the
channels its geometry needs are bound, and its statistic runs. -/
structure Ready (kit : Toolkit) (defaults : Stat.Defaults) (data : Table) (root : Mapping)
    (index : Nat) (layer : Layer) (p : Prepared) : Prop where
  columns : ∀ c name, (layer.resolved root).column? c = some name →
    (layer.table data).contains name = true
  geometry : layer.geometry.missing (layer.resolved root) = []
  stat : (transform kit defaults layer.stat (layer.table data) (layer.resolved root)
    layer.geometry index).outcome = .ok p

theorem missingColumns_eq_nil {table : Table} {mapping : Mapping} :
    missingColumns table mapping index = [] ↔
      ∀ c name, mapping.column? c = some name → table.contains name = true := by
  unfold missingColumns
  rw [List.map_eq_nil_iff, List.filter_eq_nil_iff]
  constructor
  · intro h c name hc
    simpa using h (c, name) (Mapping.mem_columns.2 hc)
  · rintro h ⟨c, name⟩ hc
    simpa using h c name (Mapping.mem_columns.1 hc)

theorem problemsOf_check_eq_nil {g : Geometry} {mapping : Mapping} :
    problemsOf (g.check mapping (some index)) = [] ↔ g.missing mapping = [] := by
  unfold Geometry.check
  cases g.missing mapping with
  | nil => exact ⟨fun _ => rfl, fun _ => rfl⟩
  | cons first rest => exact ⟨fun h => (nomatch h), fun h => (nomatch h)⟩

theorem bindingProblems_eq_nil :
    bindingProblems data root index layer = [] ↔
      (∀ c name, (layer.resolved root).column? c = some name →
        (layer.table data).contains name = true) ∧
      layer.geometry.missing (layer.resolved root) = [] := by
  unfold bindingProblems
  rw [List.append_eq_nil_iff, missingColumns_eq_nil, problemsOf_check_eq_nil]

/-- A layer with problems gives these; without any its statistic runs, and may meet one. -/
theorem outcome_prepare :
    (prepare kit defaults data root index layer).outcome =
      if bindingProblems data root index layer = [] then
        (transform kit defaults layer.stat (layer.table data) (layer.resolved root)
          layer.geometry index).problemOrResult.outcome.map fun done =>
            done.mapError fun p => [p]
      else .ok (.error (bindingProblems data root index layer)) := by
  unfold prepare
  rw [Logged.outcome_record_bind]
  change (if !(bindingProblems data root index layer).isEmpty then
      pure (.error (bindingProblems data root index layer))
    else do
      let done ← (transform kit defaults layer.stat (layer.table data) (layer.resolved root)
        layer.geometry index).problemOrResult
      pure (done.mapError fun p => [p]) : Logged (Except (List Problem) Prepared)).outcome = _
  -- a layer with problems of its bindings is not transformed
  cases bindingProblems data root index layer with
  | nil =>
    rw [if_pos rfl]
    exact Logged.outcome_bind _ _
  | cons first rest => rfl

variable {p : Prepared}

/-- Preparation succeeds exactly with what makes a layer ready. -/
theorem prepare_eq_ok :
    (prepare kit defaults data root index layer).outcome = .ok (.ok p) ↔
      Ready kit defaults data root index layer p := by
  rw [outcome_prepare]
  constructor
  · intro h
    split at h
    · -- nothing is wrong before the statistic runs, so the result is that of the statistic
      next hnone =>
      obtain ⟨hcolumns, hgeometry⟩ := bindingProblems_eq_nil.1 hnone
      obtain ⟨done, hdone, h⟩ := bind_eq_ok.1 h
      obtain rfl := mapError_eq_ok.1 (Except.ok.inj h)
      exact ⟨hcolumns, hgeometry, Logged.problemOrResult_eq_ok.1 hdone⟩
    · exact nomatch h
  · intro h
    rw [if_pos (bindingProblems_eq_nil.2 ⟨h.columns, h.geometry⟩),
      Logged.problemOrResult_eq_ok.2 h.stat]
    rfl

/-- A layer that is not ready has a problem to report. -/
theorem ne_nil_of_prepare {ps : List Problem}
    (h : (prepare kit defaults data root index layer).outcome = .ok (.error ps)) : ps ≠ [] := by
  rw [outcome_prepare] at h
  split at h
  · obtain ⟨done, -, h⟩ := bind_eq_ok.1 h
    cases done with
    | ok p => exact nomatch h
    | error p =>
      cases h
      exact List.cons_ne_nil p []
  · next hne =>
    cases h
    exact hne

/-- Only a fault ends the preparation of all layers. -/
theorem fault_of_prepare {e : Failure}
    (h : (prepare kit defaults data root index layer).outcome = .error e) : ∃ f, e = .fault f := by
  rw [outcome_prepare] at h
  split at h
  · rcases bind_eq_error.1 h with h | ⟨done, -, h⟩
    · obtain ⟨herror, hproblem⟩ := Logged.problemOrResult_eq_error h
      -- of the failures of a statistic only a fault is no problem
      have hsingle := settles_transform e herror
      cases e with
      | problem p => exact absurd rfl (hproblem p)
      | fault f => exact ⟨f, rfl⟩
      | build | scalesFrozen => exact hsingle.elim
    · exact nomatch h
  · exact nomatch h

/-! ### What a prepared layer has -/

/-- The columns a prepared layer refers to are in its table. -/
theorem Ready.present (h : Ready kit defaults data root index layer p) {c : Channel} {name : String}
    (hc : p.mapping.column? c = some name) : p.data.contains name = true := by
  obtain ⟨-, along, -, hmapping⟩ := transform_eq_ok.1 h.stat
  rw [hmapping] at hc
  exact Stat.contains_of_drawn hc

theorem Ready.keeps (h : Ready kit defaults data root index layer p) (hroot : root.Keeps) :
    p.mapping.Keeps := by
  obtain ⟨-, along, -, hmapping⟩ := transform_eq_ok.1 h.stat
  rw [hmapping]
  exact Stat.keeps_drawn (layer.keeps_resolved hroot)

theorem Ready.computedBy (h : Ready kit defaults data root index layer p)
    (hk : layer.stat.kind = .bin) : p.data.computedBy = some StatKind.bin.name := by
  obtain ⟨hrun, -⟩ := transform_eq_ok.1 h.stat
  exact Stat.computedBy_of_run hk hrun

/-- After bins or curves both axes are bound: the one they ran along as before, and the other one
to some column. -/
theorem Ready.axes (h : Ready kit defaults data root index layer p) {computed : String}
    (hc : Stat.computedName? layer.stat.kind = some computed) :
    ∃ settings along column other,
      layer.stat.settings kit (some index) = .ok settings ∧
      Stat.axis layer.stat.kind settings.axis (layer.table data) (layer.resolved root)
        (.member (.geometry layer.geometry)) (some index) = .ok along ∧
      Stat.RanAlong layer.stat.kind (layer.resolved root) p.data along column computed ∧
      p.mapping.column? along.channel = some column ∧
      p.mapping.column? along.other.channel = some other := by
  obtain ⟨hrun, known, hknown, hmapping⟩ := transform_eq_ok.1 h.stat
  obtain ⟨settings, along, column, hsettings, halong, hran⟩ := Stat.run_ranAlong hc hrun
  -- the axis that is found for drawing is the one the statistic ran along
  have hsome : known = some along := by
    unfold drawnAlong at hknown
    rw [hc, Option.isSome_some, if_pos rfl, Stat.orientation_eq_axis hsettings, halong] at hknown
    exact (Except.ok.inj hknown).symm
  obtain ⟨other, hother⟩ := Stat.other_drawn hc hran
  refine ⟨settings, along, column, other, hsettings, halong, hran, ?_, ?_⟩
  · rw [hmapping, hsome]
    exact Stat.along_drawn hc hran
  · rw [hmapping, hsome]
    exact hother

end Prepare

end Build

end PlotGrammar
