import PlotGrammar.Proofs.Stat.Output

/-!
# The mapping a result is drawn with

`Stat.remap` binds the axis that a statistic computed, then drops what refers to no column of the
result. It cannot fail, and what it records does not change what it gives: `Stat.drawn` is its
outcome as a function (`Stat.outcome_remap`).

Every column that is left is a column of the result (`Stat.contains_of_drawn`), nothing is removed
(`Stat.keeps_drawn`), and after bins or curves both axes are bound: the one they ran along as
before, the other one to some column of the result (`Stat.along_drawn`, `Stat.other_drawn`).
-/

namespace PlotGrammar

namespace Stat

/-- The mapping in which the axis opposite to a given one is bound to a column of the result: the
computed one, unless it is bound to another one already. -/
def boundOther (mapping : Mapping) (result : Table) (along : Axis) (computed : String) : Mapping :=
  match mapping.column? along.other.channel with
  | none => mapping.set along.other.channel (.column computed)
  | some current =>
    if result.contains current then mapping
    else mapping.set along.other.channel (.column computed)

/-- The mapping to draw a result with. -/
def drawn (stat : StatKind) (mapping : Mapping) (result : Table) (along : Option Axis) : Mapping :=
  let bound :=
    match computedName? stat, along.or (onlyAxis? mapping) with
    | some computed, some a => boundOther mapping result a computed
    | _, _ => mapping
  bound.filter (survives result)

section Drawn

variable (stat : StatKind) (mapping : Mapping) (result : Table) (along : Option Axis)
  (layer : Option Int)

theorem outcome_bindComputed (a : Axis) (computed : String) :
    (bindComputed stat mapping (some result) a computed layer).outcome =
      .ok (boundOther mapping result a computed) := by
  unfold bindComputed boundOther
  dsimp only
  -- a binding that is there is kept or overwritten; either way the outcome is the same mapping
  cases mapping.column? a.other.channel with
  | none => rfl
  | some current =>
    dsimp only
    rw [Option.map_some, Option.getD_some]
    cases result.contains current with
    | true => rfl
    | false => rfl

/-- Finding the mapping to draw with always succeeds. -/
theorem outcome_remap :
    (remap stat mapping (some result) along layer).outcome =
      .ok (drawn stat mapping result along) := by
  unfold remap drawn
  dsimp only
  cases computedName? stat with
  | none => rfl
  | some computed =>
    cases along.or (onlyAxis? mapping) with
    | none => rfl
    | some a =>
      rw [Logged.outcome_bind, outcome_bindComputed]
      rfl

/-- The columns that are left are those of the result. -/
theorem column?_filter_survives (m : Mapping) (c : Channel) :
    (m.filter (survives result)).column? c = (m.column? c).filter result.contains := by
  unfold Mapping.column? Mapping.filter
  dsimp only
  -- only a binding to a column has something to lose
  cases hb : m.binding c with
  | none => rfl
  | some b =>
    cases b with
    | column name member =>
      rw [Option.filter_some, Option.bind_some]
      unfold survives Binding.column?
      dsimp only
      rw [Option.filter_some]
      split <;> rfl
    | constant v => rfl
    | removed => rfl

variable {stat mapping result along}

theorem contains_of_drawn {c : Channel} {name : String}
    (h : (drawn stat mapping result along).column? c = some name) :
    result.contains name = true := by
  unfold drawn at h
  rw [column?_filter_survives] at h
  exact (Option.filter_eq_some_iff.1 h).2

theorem keeps_boundOther (h : mapping.Keeps) (a : Axis) (computed : String) :
    (boundOther mapping result a computed).Keeps := by
  have hset := h.set a.other.channel (b := .column computed) (fun h => nomatch h)
  unfold boundOther
  split
  · exact hset
  · split
    · exact h
    · exact hset

/-- A mapping to draw with removes nothing if the one it is made of does not. -/
theorem keeps_drawn (h : mapping.Keeps) : (drawn stat mapping result along).Keeps := by
  unfold drawn
  refine Mapping.Keeps.filter ?_ _
  split
  · exact keeps_boundOther h _ _
  · exact h

theorem other_channel_ne (a : Axis) : a.channel ≠ a.other.channel := by
  cases a <;> decide

theorem drawn_of_computed {computed : String} (hc : computedName? stat = some computed) (a : Axis) :
    drawn stat mapping result (some a) =
      (boundOther mapping result a computed).filter (survives result) := by
  unfold drawn
  rw [hc, Option.some_or]

/-- The axis a statistic ran along stays bound to its column. -/
theorem along_drawn {a : Axis} {column computed : String} (hc : computedName? stat = some computed)
    (h : RanAlong stat mapping result a column computed) :
    (drawn stat mapping result (some a)).column? a.channel = some column := by
  -- only the other axis is bound anew
  have hsame : (boundOther mapping result a computed).column? a.channel = some column := by
    have hset := mapping.column?_set_of_ne (.column computed) (other_channel_ne a)
    unfold boundOther
    split
    · rw [hset, h.bound]
    · split
      · exact h.bound
      · rw [hset, h.bound]
  rw [drawn_of_computed hc, column?_filter_survives, hsame, Option.filter_some, if_pos h.kept]

/-- The other axis is bound to a column of the result. -/
theorem other_drawn {a : Axis} {column computed : String} (hc : computedName? stat = some computed)
    (h : RanAlong stat mapping result a column computed) :
    ∃ other, (drawn stat mapping result (some a)).column? a.other.channel = some other := by
  have hset := mapping.column?_set_self a.other.channel (.column computed)
  rw [drawn_of_computed hc, column?_filter_survives]
  unfold boundOther
  -- the other axis holds its own column if the result has it, and the computed one otherwise
  split
  · rw [hset]
    exact ⟨computed, by rw [Binding.column?, Option.filter_some, if_pos h.computed]⟩
  · next current hcurrent =>
    split
    · next hin =>
      rw [hcurrent, Option.filter_some, if_pos hin]
      exact ⟨current, rfl⟩
    · rw [hset]
      exact ⟨computed, by rw [Binding.column?, Option.filter_some, if_pos h.computed]⟩

end Drawn

end Stat

end PlotGrammar
