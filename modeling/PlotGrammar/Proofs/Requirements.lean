import PlotGrammar.Proofs.Specification

/-!
# What a geometry needs after a statistic

The channels that a geometry needs are looked for before the statistic of a layer runs. The
statistic may then take a binding away, because its result has no column of that name.

* Nothing is taken away by a statistic that computes no axis: the identity gives its table back, and
  the result of a summary has every bound column (`Stat.contains_of_summary`).
* Bins and curves bind both axes, and take other bindings away unless their result has the column
  (`Build.Ready.isBound_iff`).

So what a geometry needs stays bound, except for the ends of a ribbon that is drawn from bins or
curves (`Build.missing_of_run`). There both can go (`Build.ribbon_loses_ends`).
-/

namespace PlotGrammar

/-! ### What stays bound -/

namespace Stat

variable {result : Table} {mapping : Mapping}

/-- Whether a channel that is no axis is bound to a column that a result does not have. -/
def givesUp (mapping : Mapping) (result : Table) (c : Channel) : Bool :=
  !(Axis.all.any fun a => decide (a.channel = c)) &&
    !(mapping.column? c).all result.contains

theorem isBound_filter_survives (m : Mapping) (result : Table) (c : Channel) :
    (m.filter (survives result)).isBound c =
      (m.isBound c && (m.column? c).all result.contains) := by
  unfold Mapping.isBound Mapping.column? Mapping.filter
  dsimp only
  cases m.binding c with
  | none => rfl
  | some b =>
    cases b with
    | column name member =>
      rw [Option.filter_some, Option.bind_some]
      by_cases hin : result.contains name = true
      · rw [if_pos (show survives result c (.column name member) = true from hin)]
        exact hin.symm
      · rw [if_neg (show ¬survives result c (.column name member) = true from hin)]
        exact (Bool.eq_false_of_not_eq_true hin).symm
    | constant v => rfl
    | removed => rfl

theorem binding_boundOther {along : Axis} {computed : String} {c : Channel}
    (hc : ∀ a : Axis, a.channel ≠ c) :
    (boundOther mapping result along computed).binding c = mapping.binding c := by
  have hset : (mapping.set along.other.channel (.column computed)).binding c =
      mapping.binding c := if_neg fun h => hc along.other h.symm
  unfold boundOther
  split
  · exact hset
  · split
    · rfl
    · exact hset

end Stat

namespace Mapping

theorem isBound_of_column? {m : Mapping} {c : Channel} {name : String}
    (h : m.column? c = some name) : m.isBound c = true := by
  obtain ⟨b, hb, hcolumn⟩ := Option.bind_eq_some_iff.1 h
  unfold isBound
  rw [hb]
  cases b with
  | column => rfl
  | constant | removed => exact nomatch hcolumn

end Mapping

namespace Geometry

/-- Nothing is missing when every required channel is bound, and one of those to choose from. -/
theorem missing_eq_nil {g : Geometry} {mapping : Mapping} :
    g.missing mapping = [] ↔ (∀ c ∈ g.rule.required, mapping.isBound c = true) ∧
      (g.rule.oneOf = [] ∨ ∃ c ∈ g.rule.oneOf, mapping.isBound c = true) := by
  unfold missing
  dsimp only
  -- a choice is missing if there is one and nothing of it is bound
  cases hchoice : (!g.rule.oneOf.isEmpty && !g.rule.oneOf.any mapping.isBound) with
  | true =>
    rw [if_pos rfl, List.append_eq_nil_iff]
    rw [Bool.and_eq_true, Bool.not_eq_true', Bool.not_eq_true', List.any_eq_false] at hchoice
    refine ⟨fun h => (nomatch h.2), ?_⟩
    rintro ⟨-, hnil | ⟨c, hc, hbound⟩⟩
    · rw [hnil] at hchoice
      exact nomatch hchoice.1
    · exact absurd hbound (hchoice.2 c hc)
  | false =>
    rw [if_neg Bool.false_ne_true, List.map_eq_nil_iff, List.filter_eq_nil_iff]
    rw [Bool.and_eq_false_iff, Bool.not_eq_false', Bool.not_eq_false', List.isEmpty_iff,
      List.any_eq_true] at hchoice
    simp only [Bool.not_eq_true', Bool.not_eq_false]
    exact ⟨fun h => ⟨h, hchoice⟩, fun h => h.1⟩

/-- The channels to choose from are axes. -/
theorem exists_axis_of_mem_oneOf {g : Geometry} {c : Channel} (h : c ∈ g.rule.oneOf) :
    ∃ a : Axis, a.channel = c := by
  have hall : ∀ g : Geometry, ∀ c ∈ g.rule.oneOf, c = .x ∨ c = .y := by
    intro g
    cases g <;> decide
  rcases hall g c h with rfl | rfl
  · exact ⟨.x, rfl⟩
  · exact ⟨.y, rfl⟩

end Geometry

namespace Build

variable {kit : Toolkit} {config : BuildConfig} {plot : Plot}

section Ready

variable {defaults : Stat.Defaults} {data : Table} {root : Mapping} {index : Nat} {layer : Layer}
  {p : Prepared}

/-- Nothing is given up by a statistic that computes no axis. -/
theorem Ready.givesUp_eq_false (h : Ready kit defaults data root index layer p)
    (hnone : Stat.computedName? layer.stat.kind = none) (c : Channel) :
    Stat.givesUp (layer.resolved root) p.data c = false := by
  obtain ⟨hrun, -⟩ := transform_eq_ok.1 h.stat
  have hkept : ((layer.resolved root).column? c).all p.data.contains = true := by
    rw [Option.all_eq_true]
    exact fun name hname => Stat.contains_of_run hnone h.columns hrun hname
  unfold Stat.givesUp
  rw [hkept, Bool.not_true, Bool.and_false]

/-- A channel that was bound before the statistic is bound after it, unless it is given up. -/
theorem Ready.isBound_iff (h : Ready kit defaults data root index layer p) {c : Channel}
    (hc : (layer.resolved root).isBound c = true) :
    p.mapping.isBound c = !Stat.givesUp (layer.resolved root) p.data c := by
  obtain ⟨hrun, along, halong, hmapping⟩ := transform_eq_ok.1 h.stat
  have hfiltered : ∀ m : Mapping, m.binding c = (layer.resolved root).binding c →
      (m.filter (Stat.survives p.data)).isBound c =
        ((layer.resolved root).column? c).all p.data.contains := by
    intro m hm
    have hbound : m.isBound c = true := by
      unfold Mapping.isBound at hc ⊢
      rwa [hm]
    rw [Stat.isBound_filter_survives, hbound, Bool.true_and]
    unfold Mapping.column?
    rw [hm]
  cases hcomputed : Stat.computedName? layer.stat.kind with
  | none =>
    -- no column is lost, so that no binding is
    have hkept : ((layer.resolved root).column? c).all p.data.contains = true := by
      rw [Option.all_eq_true]
      exact fun name hname => Stat.contains_of_run hcomputed h.columns hrun hname
    have hdrawn : p.mapping = (layer.resolved root).filter (Stat.survives p.data) := by
      rw [hmapping]
      unfold Stat.drawn
      rw [hcomputed]
    rw [hdrawn, hfiltered _ rfl, hkept, h.givesUp_eq_false hcomputed, Bool.not_false]
  | some computed =>
    by_cases haxis : ∃ a : Axis, a.channel = c
    · -- both axes are bound after bins or curves
      obtain ⟨a, rfl⟩ := haxis
      obtain ⟨-, along, column, other, -, -, -, hown, hother⟩ := h.axes hcomputed
      have hgone : Stat.givesUp (layer.resolved root) p.data a.channel = false := by
        unfold Stat.givesUp
        cases a <;> rfl
      rw [hgone, Bool.not_false]
      by_cases heq : a = along
      · rw [heq]
        exact Mapping.isBound_of_column? hown
      · have ha : a = along.other := by
          cases a <;> cases along <;> first | rfl | exact absurd rfl heq
        rw [ha]
        exact Mapping.isBound_of_column? hother
    · have hne : ∀ a : Axis, a.channel ≠ c := fun a ha => haxis ⟨a, ha⟩
      have hnone : (Axis.all.any fun a => decide (a.channel = c)) = false := by
        rw [List.any_eq_false]
        exact fun a _ => by simpa using hne a
      rw [hmapping]
      unfold Stat.drawn Stat.givesUp
      rw [hnone, Bool.not_false, Bool.true_and, Bool.not_not]
      refine hfiltered _ ?_
      rw [hcomputed]
      split
      · exact Stat.binding_boundOther hne
      · rfl

/-- Of the channels a geometry needs, those are missing after a statistic that it gives up. -/
theorem Ready.missing_eq (h : Ready kit defaults data root index layer p) :
    layer.geometry.missing p.mapping =
      (layer.geometry.rule.required.filter
        (Stat.givesUp (layer.resolved root) p.data)).map Channel.name := by
  obtain ⟨hrequired, honeOf⟩ := Geometry.missing_eq_nil.1 h.geometry
  -- an axis is never given up, so the choice that was made stays
  have hchoice : (!layer.geometry.rule.oneOf.isEmpty &&
      !layer.geometry.rule.oneOf.any p.mapping.isBound) = false := by
    rcases honeOf with hnil | ⟨c, hc, hbound⟩
    · rw [hnil]
      rfl
    · obtain ⟨a, rfl⟩ := Geometry.exists_axis_of_mem_oneOf hc
      have hstays : p.mapping.isBound a.channel = true := by
        rw [h.isBound_iff hbound]
        unfold Stat.givesUp
        cases a <;> rfl
      rw [List.any_eq_true.2 ⟨a.channel, hc, hstays⟩, Bool.not_true, Bool.and_false]
  unfold Geometry.missing
  dsimp only
  rw [hchoice, if_neg Bool.false_ne_true]
  refine congrArg (List.map Channel.name) (List.filter_congr fun c hc => ?_)
  rw [h.isBound_iff (hrequired c hc), Bool.not_not]

end Ready

/-- The ends of an interval that a mapping binds to columns that a table does not have. -/
def lostEnds (mapping : Mapping) (table : Table) : List Channel :=
  [.ymin, .ymax].filter fun c => !(mapping.column? c).all table.contains

/-- Only a ribbon needs a channel that is no axis. -/
theorem filter_givesUp_required (g : Geometry) (mapping : Mapping) (result : Table) :
    g.rule.required.filter (Stat.givesUp mapping result) =
      if g = .ribbon then lostEnds mapping result else [] := by
  cases g <;> rfl

/-- **What a geometry needs stays bound, except for the ends of a ribbon of bins or curves.** These
are missing if and only if the mapping of the layer binds them to columns that the computed table
does not have. -/
theorem missing_of_run (kit : Toolkit) (config : BuildConfig) (plot : Plot) (spec : RenderSpec)
    (h : (run kit config plot).outcome = .ok spec) :
    ∀ drawn ∈ spec.layers, ∃ layer, plot.layers[drawn.index]? = some layer ∧
      drawn.geometry = layer.geometry ∧ drawn.stat = layer.stat ∧
      drawn.geometry.missing drawn.mapping =
        if drawn.geometry = .ribbon ∧ (drawn.stat.kind = .bin ∨ drawn.stat.kind = .density) then
          (lostEnds (layer.resolved plot.mapping) drawn.data).map Channel.name
        else [] := by
  obtain ⟨items, hb⟩ := built_of_run h
  intro drawn hd
  obtain ⟨item, hitem, p, hdraws⟩ := hb.draws_of_mem hd
  obtain ⟨hlayer, -⟩ := mem_of_prepareAll hb.prepared hitem
  have hready := hb.ready_of_mem hitem hdraws.outcome
  rw [hdraws.index, hdraws.geometry, hdraws.stat, hdraws.mapping, hdraws.data]
  refine ⟨item.layer, hlayer, rfl, rfl, ?_⟩
  rw [hready.missing_eq]
  by_cases hribbon : item.layer.geometry = .ribbon
  · cases hk : item.layer.stat.kind with
    | bin | density =>
      rw [filter_givesUp_required, if_pos hribbon, if_pos ⟨hribbon, by simp⟩]
    | identity | summary =>
      -- these compute no axis, and so keep the ends of the ribbon
      rw [if_neg (by simp), List.map_eq_nil_iff, List.filter_eq_nil_iff]
      intro c _
      rw [hready.givesUp_eq_false (by rw [hk]; rfl)]
      exact Bool.false_ne_true
  · rw [filter_givesUp_required, if_neg hribbon, if_neg fun h => hribbon h.1]
    rfl

/-- A ribbon over bins: its ends are columns that the bins do not have. -/
def binnedRibbon : Plot where
  data :=
    { fields := [⟨.text "v", .continuous, ⟨.int, [.int 1, .int 2]⟩⟩,
        ⟨.text "low", .continuous, ⟨.int, [.int 0, .int 1]⟩⟩,
        ⟨.text "high", .continuous, ⟨.int, [.int 2, .int 3]⟩⟩]
      height := 2
      computedBy := none
      uniform := by decide
      distinct := by decide }
  mapping := ((Mapping.empty.set .x (.column "v")).set .ymin (.column "low")).set .ymax
    (.column "high")
  layers := [⟨.ribbon, none, none, { kind := .bin, bins := .int 1 }, [], .null⟩]
  keeps := by
    intro c
    cases c <;> simp [Mapping.set]

/-- The ends of the ribbon over bins are missing, as they are lost. -/
theorem missing_of_run_binnedRibbon :
    ∃ spec, (run .standard {} binnedRibbon).outcome = .ok spec ∧
      ∀ drawn ∈ spec.layers, ∃ layer, binnedRibbon.layers[drawn.index]? = some layer ∧
        drawn.geometry = layer.geometry ∧ drawn.stat = layer.stat ∧
        drawn.geometry.missing drawn.mapping =
          if drawn.geometry = .ribbon ∧ (drawn.stat.kind = .bin ∨ drawn.stat.kind = .density) then
            (lostEnds (layer.resolved binnedRibbon.mapping) drawn.data).map Channel.name
          else [] := by
  have hok : (run .standard {} binnedRibbon).outcome.toBool = true := by decide +kernel
  cases h : (run .standard {} binnedRibbon).outcome with
  | ok spec => exact ⟨spec, rfl, missing_of_run .standard {} binnedRibbon spec h⟩
  | error e =>
    rw [h] at hok
    exact nomatch hok

/-- What a geometry needs does not always stay bound. -/
theorem ribbon_loses_ends :
    ¬ ∀ (kit : Toolkit) (config : BuildConfig) (plot : Plot) (spec : RenderSpec),
      (run kit config plot).outcome = .ok spec →
        ∀ drawn ∈ spec.layers, drawn.geometry.missing drawn.mapping = [] := by
  intro hall
  -- the layer that is drawn lacks both ends, which can be evaluated
  have hmissing : ((run .standard {} binnedRibbon).outcome.toOption.map fun spec =>
      spec.layers.map fun drawn => drawn.geometry.missing drawn.mapping) =
        some [["ymin", "ymax"]] := by decide +kernel
  obtain ⟨spec, hspec, hlayers⟩ := Option.map_eq_some_iff.1 hmissing
  have hrun : (run .standard {} binnedRibbon).outcome = .ok spec := by
    cases h : (run .standard {} binnedRibbon).outcome with
    | ok spec' =>
      rw [h] at hspec
      exact congrArg Except.ok (Option.some.inj hspec)
    | error e =>
      rw [h] at hspec
      exact nomatch hspec
  obtain ⟨drawn, hdrawn, hends⟩ := List.mem_map.1 (hlayers ▸ List.mem_cons_self :
    ["ymin", "ymax"] ∈ spec.layers.map fun drawn => drawn.geometry.missing drawn.mapping)
  rw [hall .standard {} binnedRibbon spec hrun drawn hdrawn] at hends
  exact nomatch hends

end Build

end PlotGrammar
