import PlotGrammar.Mapping

/-!
# Columns and removals of a mapping

A mapping is a function of the channel, and its listings follow the order of the channels.
`Mapping.mem_columns` says that the listing of columns misses none. `Mapping.Keeps` holds of the
mappings that remove nothing; resolving an override gives such a mapping whatever the override says
(`Mapping.Keeps.resolve`).
-/

namespace PlotGrammar

namespace Mapping

theorem mem_columns {m : Mapping} {c : Channel} {name : String} :
    (c, name) ∈ m.columns ↔ m.column? c = some name := by
  unfold columns
  rw [List.mem_filterMap]
  refine ⟨?_, fun h => ⟨c, Channel.mem_all c, by rw [h]; rfl⟩⟩
  rintro ⟨d, -, hd⟩
  obtain ⟨n, hn, heq⟩ := Option.map_eq_some_iff.1 hd
  obtain ⟨rfl, rfl⟩ := Prod.mk.inj heq
  exact hn

theorem mem_columns_map_fst {m : Mapping} {c : Channel} :
    c ∈ m.columns.map (·.1) ↔ ∃ name, m.column? c = some name := by
  rw [List.mem_map]
  constructor
  · rintro ⟨⟨d, name⟩, hd, rfl⟩
    exact ⟨name, mem_columns.1 hd⟩
  · rintro ⟨name, hname⟩
    exact ⟨(c, name), mem_columns.2 hname, rfl⟩

theorem columns_map_fst (m : Mapping) :
    m.columns.map (·.1) = Channel.all.filter fun c => (m.column? c).isSome := by
  unfold columns
  rw [List.map_filterMap]
  -- channel by channel, of which the bound ones are listed on both sides
  induction Channel.all with
  | nil => rfl
  | cons c rest ih =>
    cases h : m.column? c with
    | none =>
      rw [List.filterMap_cons_none (by rw [h]; rfl), List.filter_cons_of_neg (by rw [h]; decide),
        ih]
    | some name =>
      rw [List.filterMap_cons_some (by rw [h]; rfl), List.filter_cons_of_pos (by rw [h]; rfl), ih]

theorem column?_set_self (m : Mapping) (c : Channel) (b : Binding) :
    (m.set c b).column? c = b.column? := by
  unfold column?
  rw [set_binding, if_pos rfl, Option.bind_some]

theorem column?_set_of_ne (m : Mapping) {c d : Channel} (b : Binding) (h : d ≠ c) :
    (m.set c b).column? d = m.column? d := by
  unfold column?
  rw [set_binding, if_neg h]

/-- A mapping that removes nothing. -/
def Keeps (m : Mapping) : Prop :=
  ∀ c, m.binding c ≠ some .removed

theorem Keeps.resolve {root : Mapping} (h : root.Keeps) (override : Mapping) :
    (root.resolve override).Keeps := by
  intro c hc
  cases he : override.isEmpty with
  | true =>
    rw [resolve_of_isEmpty he] at hc
    exact h c hc
  | false =>
    rw [resolve_binding he] at hc
    have := (Option.filter_eq_some_iff.1 hc).2
    exact absurd this (by simp [Binding.isRemoved])

theorem Keeps.set {m : Mapping} (h : m.Keeps) (c : Channel) {b : Binding} (hb : b ≠ .removed) :
    (m.set c b).Keeps := by
  intro d hd
  rw [set_binding] at hd
  split at hd
  · exact hb (Option.some.inj hd)
  · exact h d hd

theorem Keeps.filter {m : Mapping} (h : m.Keeps) (keep : Channel → Binding → Bool) :
    (m.filter keep).Keeps := by
  intro c hc
  exact h c (Option.eq_some_of_filter_eq_some hc)

end Mapping

end PlotGrammar
