import PlotGrammar.Proofs.Stat.Grouping
import PlotGrammar.Proofs.Stat.Steps
import PlotGrammar.Proofs.Table.Lookup

/-!
# Summaries keep what is bound

A summary collects its columns in three passes over a mapping: the column across, the columns that
divide the rows, and the columns that are left, which it reduces. Together the passes take every
column that is bound, and none of them twice (`Stat.Grouping.Of.nodup`, `Stat.Grouping.Of.mem_iff`).

So a result has the columns that are bound and no others (`Stat.summary_keeps_bound`), and its
columns never clash: there is a result as soon as the columns can be grouped and reduced
(`Stat.exists_summary_iff`). Nothing is left to drop in the mapping that the result is drawn with
(`Stat.remap_of_contains`).
-/

namespace PlotGrammar

namespace Stat

variable {kit : Toolkit} {stat : StatConfig} {settings : Settings} {defaults : Defaults}
  {table result : Table} {mapping : Mapping} {geometry : Value} {layer : Option Int}

/-! ### Collecting columns -/

/-- A column that is new can be added to columns without repetitions. -/
theorem nodup_append_new {names : List String} {name : String} (h : names.Nodup)
    (hnew : name ∉ names) : (names ++ [name]).Nodup := by
  rw [← List.concat_eq_append]
  exact (List.nodup_concat names name).2 ⟨hnew, h⟩

/-- No column divides rows twice. -/
theorem nodup_groupColumns {other : String} {keys : List String}
    (h : groupColumns table mapping other = .ok keys) : keys.Nodup := by
  unfold groupColumns at h
  refine foldlM_induction (P := List.Nodup) (fun found e found' _ hfound hstep => ?_)
    List.nodup_nil h
  split at hstep
  · cases hstep
    exact hfound
  · next hnew =>
    -- a column is looked at only if it is not there yet
    rw [Bool.or_eq_true, not_or, List.contains_iff_mem] at hnew
    have hadd := nodup_append_new hfound hnew.2
    split at hstep
    · cases hstep
      exact hadd
    · obtain ⟨kind, -, hstep⟩ := bind_eq_ok.1 hstep
      cases hstep
      split
      · exact hfound
      · exact hadd

/-- No column is reduced twice, and none that is a key. -/
theorem nodup_reducedColumns {counting : Bool} {keys reduced : List String} (hkeys : keys.Nodup)
    (h : reducedColumns counting table mapping keys layer = .ok reduced) :
    (keys ++ reduced).Nodup := by
  unfold reducedColumns at h
  -- no name repeats in what has been collected, and a step adds a new name or none
  refine foldlM_induction (P := fun reduced => (keys ++ reduced).Nodup)
    (fun found e found' _ hfound hstep => ?_) (by rwa [List.append_nil]) h
  split at hstep
  · cases hstep
    exact hfound
  · next hnew =>
    rw [Bool.or_eq_true, List.contains_iff_mem, List.contains_iff_mem, ← List.mem_append] at hnew
    have hadd : (keys ++ (found ++ [e.2])).Nodup := by
      rw [← List.append_assoc]
      exact nodup_append_new hfound hnew
    split at hstep
    · cases hstep
      exact hadd
    · obtain ⟨kind, -, hstep⟩ := bind_eq_ok.1 hstep
      split at hstep
      · cases hstep
        exact hadd
      · cases hstep

namespace Grouping.Of

variable {g : Grouping} (h : g.Of kit stat settings table mapping geometry layer)

include h

theorem nodup_names : g.names.Nodup := by
  obtain ⟨along, value, others, -, -, hothers, hnames⟩ := h.names
  rw [hnames]
  have hacross : (mapping.column? along.other.channel).toList.Nodup := by
    cases mapping.column? along.other.channel with
    | none => exact List.nodup_nil
    | some across => exact List.nodup_singleton across
  refine hacross.append ((nodup_groupColumns hothers).filter _) fun k hk hfiltered => ?_
  have hlacks := (List.mem_filter.1 hfiltered).2
  rw [List.contains_iff_mem.2 hk] at hlacks
  cases hlacks

/-- No column is taken twice. -/
theorem nodup : (g.names ++ g.reducedNames).Nodup :=
  nodup_reducedColumns h.nodup_names h.reducedNames

/-- The columns that are taken are those that are bound. -/
theorem mem_iff {name : String} :
    name ∈ g.names ++ g.reducedNames ↔ ∃ c, mapping.column? c = some name := by
  rw [List.mem_append]
  constructor
  · rintro (hkey | hreduced)
    · obtain ⟨along, value, others, -, -, hothers, hnames⟩ := h.names
      rw [hnames] at hkey
      rcases List.mem_append.1 hkey with hkey | hkey
      · exact ⟨_, Option.mem_toList.1 hkey⟩
      · exact exists_channel_of_groupColumns hothers name (List.mem_filter.1 hkey).1
    · exact exists_channel_of_reducedColumns h.reducedNames name hreduced
  · rintro ⟨c, hc⟩
    exact mem_of_reducedColumns h.reducedNames hc

/-- The rules of a result are those of the columns that are taken. -/
theorem names_rules (stores : List KeyStore) :
    (summaryRules g.names g.keys g.kinds stores g.reducedNames
      (g.reduced.map Column.type)).map Table.Rule.name = g.names ++ g.reducedNames :=
  names_summaryRules (length_of_mapM h.keys) (length_of_mapM h.kinds)
    ((List.length_map _).trans (length_of_mapM h.reduced)) stores

end Grouping.Of

/-! ### Results -/

/-- **There is a summary as soon as the columns can be grouped and reduced.** Their names are never
in the way. -/
theorem exists_summary_iff :
    (∃ result, summary kit stat settings table mapping geometry layer = .ok result) ↔
      ∃ g : Grouping, g.Of kit stat settings table mapping geometry layer ∧
        (∀ column ∈ g.keys, column.isKeyed = true) ∧ ∃ results, g.Reduced results := by
  constructor
  · rintro ⟨result, h⟩
    obtain ⟨g, hof, hkeyed, results, hresults, -⟩ := summary_eq_ok_iff.1 h
    exact ⟨g, hof, hkeyed, results, hresults⟩
  · rintro ⟨g, hof, hkeyed, results, hresults⟩
    have hnodup := hof.nodup
    rw [← hof.names_rules (keyStores KeyStore.ofNumbers g.keys (results.map SummaryRow.key))]
      at hnodup
    obtain ⟨result, hresult⟩ := Table.exists_ofRows_iff.2 hnodup
    exact ⟨result, summary_eq_ok_iff.2 ⟨g, hof, hkeyed, results, hresults, hresult⟩⟩

/-- The columns of a summary are those that are taken. -/
theorem names_of_summary
    (h : summary kit stat settings table mapping geometry layer = .ok result) :
    ∃ g : Grouping, g.Of kit stat settings table mapping geometry layer ∧
      result.names = g.names ++ g.reducedNames := by
  obtain ⟨g, hof, -, results, -, h⟩ := summary_eq_ok_iff.1 h
  refine ⟨g, hof, ?_⟩
  unfold Table.names
  rw [(Table.fields_of_ofRows h).1, List.map_map]
  exact hof.names_rules _

/-- Where the result has all columns that are bound, nothing is bound anew and nothing is dropped,
unless an axis is computed. -/
theorem remap_of_contains {kind : StatKind} (hnone : computedName? kind = none)
    (h : ∀ c name, mapping.column? c = some name → result.contains name = true)
    (along : Option Axis) (layer : Option Int) :
    remap kind mapping (some result) along layer = pure mapping := by
  -- every bound column is in the result, so no binding is dropped
  have hgone : (mapping.columns.filter fun e => !result.contains e.2) = [] := by
    refine List.filter_eq_nil_iff.2 fun e he => ?_
    rw [h e.1 e.2 (Mapping.mem_columns.1 he)]
    exact Bool.false_ne_true
  have hkept : mapping.filter (survives result) = mapping := by
    refine Mapping.ext (funext fun c => ?_)
    change (mapping.binding c).filter (survives result c) = mapping.binding c
    cases hb : mapping.binding c with
    | none => rfl
    | some b =>
      have hsurvives : survives result c b = true := by
        cases b with
        | column name member => exact h c name (congrArg (Option.bind · Binding.column?) hb)
        | constant | removed => rfl
      rw [Option.filter_some, if_pos hsurvives]
  have hdrop : dropAbsent kind mapping result layer = pure mapping := by
    unfold dropAbsent
    dsimp only
    rw [hgone, hkept]
    rfl
  unfold remap
  rw [hnone]
  change (pure mapping >>= fun bound => dropAbsent kind bound result layer) = _
  change Logged.mk (dropAbsent kind mapping result layer).outcome
    ([] ++ (dropAbsent kind mapping result layer).events) = _
  rw [hdrop]
  rfl

/-- A run of a summary reads the parameters and summarizes. -/
theorem run_summary_eq_ok_iff (hkind : stat.kind = .summary) :
    (run kit stat defaults table mapping geometry layer).outcome = .ok result ↔
      ∃ settings, stat.settings kit layer = .ok settings ∧
        summary kit stat settings table mapping geometry layer = .ok result := by
  rw [run_eq_ok_iff]
  refine exists_congr fun settings => and_congr_right fun _ => ?_
  unfold runWith
  rw [hkind]
  rfl

/-- **A summary keeps what is bound.** There is one as soon as the columns can be grouped and
reduced. Its columns are those that are bound, each once, the keys before those that are reduced,
and the mapping to draw it with is the one it was made with. -/
theorem summary_keeps_bound (hkind : stat.kind = .summary) :
    ((∃ result, (run kit stat defaults table mapping geometry layer).outcome = .ok result) ↔
        ∃ settings g, stat.settings kit layer = .ok settings ∧
          Grouping.Of g kit stat settings table mapping geometry layer ∧
          (∀ column ∈ g.keys, column.isKeyed = true) ∧ ∃ results, g.Reduced results) ∧
      ∀ result, (run kit stat defaults table mapping geometry layer).outcome = .ok result →
        (∃ settings g, stat.settings kit layer = .ok settings ∧
          Grouping.Of g kit stat settings table mapping geometry layer ∧
          result.names = g.names ++ g.reducedNames) ∧
        result.names.Nodup ∧ (∀ n, n ∈ result.names ↔ ∃ c, mapping.column? c = some n) ∧
        ∀ along layer, remap stat.kind mapping (some result) along layer = pure mapping := by
  constructor
  · constructor
    -- the run has a result exactly if its grouping does
    · rintro ⟨result, h⟩
      obtain ⟨settings, hsettings, h⟩ := (run_summary_eq_ok_iff hkind).1 h
      obtain ⟨g, hg⟩ := exists_summary_iff.1 ⟨result, h⟩
      exact ⟨settings, g, hsettings, hg⟩
    · rintro ⟨settings, g, hsettings, hg⟩
      obtain ⟨result, h⟩ := exists_summary_iff.2 ⟨g, hg⟩
      exact ⟨result, (run_summary_eq_ok_iff hkind).2 ⟨settings, hsettings, h⟩⟩
  · intro result h
    obtain ⟨settings, hsettings, h⟩ := (run_summary_eq_ok_iff hkind).1 h
    obtain ⟨g, hof, hnames⟩ := names_of_summary h
    have hmem : ∀ n, n ∈ result.names ↔ ∃ c, mapping.column? c = some n := fun n =>
      hnames ▸ hof.mem_iff
    -- the columns of the result are the bound ones, so all bindings stay
    refine ⟨⟨settings, g, hsettings, hof, hnames⟩, result.distinct, hmem, fun along layer => ?_⟩
    refine remap_of_contains (by rw [hkind]; rfl) (fun c name hc => ?_) along layer
    exact Table.contains_iff_mem.2 ((hmem name).2 ⟨c, hc⟩)

/-- Amounts of days in two columns, and the days. -/
def harvest : Table where
  fields := [⟨.text "a", .continuous, ⟨.int, [.int 3, .int 4, .int 5]⟩⟩,
    ⟨.text "d", .discrete, ⟨.text, [.text "mon", .missing, .text "mon"]⟩⟩,
    ⟨.text "b", .continuous, ⟨.float, [.float 1, .missing, .float 2]⟩⟩]
  height := 3
  computedBy := none
  uniform := by decide
  distinct := by decide

/-- One amount on both axes, the other one as a size, and the days twice. -/
def harvestMapping : Mapping :=
  ((((Mapping.empty.set .x (.column "a")).set .y (.column "a")).set .size (.column "b")).set .color
    (.column "d")).set .group (.column "d")

/-- The sums of the amounts. -/
def harvestRun : Logged Table :=
  run .standard { kind := .summary, aggregator := .text "sum" } {} harvest harvestMapping .null none

/-- The columns of the harvest that are bound are all kept. -/
theorem summary_keeps_harvest :
    ∃ result, harvestRun.outcome = .ok result ∧ result.names.Nodup ∧
      (∀ n, n ∈ result.names ↔ ∃ c, harvestMapping.column? c = some n) ∧
      remap .summary harvestMapping (some result) none none = pure harvestMapping := by
  have hok : harvestRun.outcome.toBool = true := by decide +kernel
  cases h : harvestRun.outcome with
  | error e =>
    rw [h] at hok
    exact absurd hok Bool.false_ne_true
  | ok result =>
    obtain ⟨-, hnodup, hmem, hremap⟩ := (summary_keeps_bound rfl).2 result h
    exact ⟨result, rfl, hnodup, hmem, hremap none none⟩

example : harvestRun.outcome.toOption.map Table.names = some ["a", "d", "b"] := by
  decide +kernel

end Stat

end PlotGrammar
