import PlotGrammar.Proofs.Stat.Numbering
import PlotGrammar.Proofs.Table.Inferred

/-!
# What a statistic depends on

A statistic is given a whole table and a whole mapping, and reads little of either: which column
each channel is bound to, the columns that are bound, the number of rows, and which statistic the
table comes from. `Stat.SameInput` says of two inputs that they agree in this much.

* `Stat.run_congr`: on two such inputs a statistic gives the same result or the same failure, and
  records the same. The identity is left out, for it gives its table back as it is.
* There is one lemma for each function that `Stat.run` is made of, an equation between its two
  values. They rest on two facts: the listings of columns agree (`Stat.SameInput.columns_eq`), and
  a name that comes from a listing is that of a shared column.

A name that is not bound may be looked for in one place only, where no column is bound to the axis
that is asked for. No statistic comes that far, since its axis is bound (`Stat.isSome_of_axis`).
-/

namespace PlotGrammar

namespace Table

/-- Two tables have the same column of this name: with the same cells, stored as the same type, and
of the same kind. -/
structure Shares (t t' : Table) (name : String) : Prop where
  present : t.contains name = true
  kind : t'.kind? name = t.kind? name
  column : t'.column? name = t.column? name

namespace Shares

variable {t t' : Table} {name : String}

theorem refl (h : t.contains name = true) : t.Shares t name :=
  ⟨h, rfl, rfl⟩

/-- The column is found in both tables, so that neither look-up fails and lists its names. -/
theorem kind_eq (h : t.Shares t' name) : t'.kind name = t.kind name := by
  obtain ⟨kind, hkind⟩ := exists_kind_of_contains h.present
  unfold Table.kind
  rw [h.kind, hkind]

theorem series_eq (h : t.Shares t' name) : t'.series name = t.series name := by
  unfold Table.series
  rw [h.column]

end Shares

end Table

/-! ### Loops over listings -/

section Loops

variable {m : Type → Type} [Monad m] {α β : Type}

/-- Two loops whose steps agree on the items of their list. -/
theorem foldlM_congr {f g : β → α → m β} {xs : List α} (h : ∀ b, ∀ a ∈ xs, f b a = g b a) (b : β) :
    xs.foldlM f b = xs.foldlM g b := by
  induction xs generalizing b with
  | nil => rfl
  | cons a xs ih =>
    rw [List.foldlM_cons, List.foldlM_cons, h b a List.mem_cons_self]
    refine bind_congr fun b' => ?_
    exact ih (fun b a ha => h b a (List.mem_cons_of_mem _ ha)) b'

/-- Two runs through a list whose steps agree on its items. -/
theorem mapM_congr [LawfulMonad m] {f g : α → m β} {xs : List α} (h : ∀ a ∈ xs, f a = g a) :
    xs.mapM f = xs.mapM g := by
  induction xs with
  | nil => rw [List.mapM_nil, List.mapM_nil]
  | cons a xs ih =>
    rw [List.mapM_cons, List.mapM_cons, h a List.mem_cons_self,
      ih fun a ha => h a (List.mem_cons_of_mem _ ha)]

end Loops

/-- Two chains are equal if the rests of them agree on every result of their common first step. -/
theorem bind_congr_ok {ε α β : Type} {x : Except ε α} {f g : α → Except ε β}
    (h : ∀ a, x = .ok a → f a = g a) : x >>= f = x >>= g := by
  cases x with
  | ok a => exact h a rfl
  | error e => rfl

theorem Logged.bind_congr_ok {α β : Type} {x : Logged α} {f g : α → Logged β}
    (h : ∀ a, x.outcome = .ok a → f a = g a) : x >>= f = x >>= g := by
  obtain ⟨outcome, events⟩ := x
  cases outcome with
  | ok a =>
    have hrest := h a rfl
    change Logged.mk (f a).outcome (events ++ (f a).events) =
      ⟨(g a).outcome, events ++ (g a).events⟩
    rw [hrest]
  | error e => rfl

namespace Stat

/-- Two inputs of a statistic that agree in what it reads: tables of one height which the same
statistic computed, if one did, and mappings that bind channels to the same columns, which the
tables share. -/
structure SameInput (t t' : Table) (m m' : Mapping) : Prop where
  height : t'.height = t.height
  computedBy : t'.computedBy = t.computedBy
  columns : ∀ c, m'.column? c = m.column? c
  shared : ∀ c name, m.column? c = some name → t.Shares t' name

variable {t t' : Table} {m m' : Mapping}

/-- One table under two mappings that bind the same columns. -/
theorem SameInput.of_columns (hcolumns : ∀ c, m'.column? c = m.column? c)
    (hpresent : ∀ c name, m.column? c = some name → t.contains name = true) :
    SameInput t t m m' where
  height := rfl
  computedBy := rfl
  columns := hcolumns
  shared c name hc := .refl (hpresent c name hc)

/-- Mappings that bind the same columns list them alike. -/
theorem columns_congr (h : ∀ c, m'.column? c = m.column? c) : m'.columns = m.columns := by
  have hcolumns : m'.column? = m.column? := funext h
  unfold Mapping.columns
  rw [hcolumns]

namespace SameInput

theorem columns_eq (h : SameInput t t' m m') : m'.columns = m.columns :=
  columns_congr h.columns

/-- A listed column is shared. -/
theorem shared_of_mem (h : SameInput t t' m m') {e : Channel × String} (he : e ∈ m.columns) :
    t.Shares t' e.2 :=
  h.shared e.1 e.2 (Mapping.mem_columns.1 he)

end SameInput

/-! ### The axis -/

section Axis

variable (h : SameInput t t' m m') (stat : StatKind) (geometry : Value) (layer : Option Int)

include h

theorem boundAxes_congr : boundAxes m' = boundAxes m := by
  unfold boundAxes
  refine List.filter_congr fun a _ => ?_
  rw [h.columns]

theorem continuousAxes_congr {axes : List Axis} (haxes : ∀ a ∈ axes, a ∈ boundAxes m) :
    continuousAxes t' m' axes = continuousAxes t m axes := by
  induction axes with
  | nil => rfl
  | cons a rest ih =>
    have hrest := ih fun a ha => haxes a (List.mem_cons_of_mem _ ha)
    obtain ⟨name, hname⟩ :=
      Option.isSome_iff_exists.1 (mem_boundAxes.1 (haxes a List.mem_cons_self))
    have hkind : t'.kind name = t.kind name := (h.shared _ _ hname).kind_eq
    unfold continuousAxes
    rw [h.columns, hname, Option.getD_some, hkind, hrest]

theorem chosenAxis_congr :
    chosenAxis stat t' m' geometry layer = chosenAxis stat t m geometry layer := by
  have hcontinuous : continuousAxes t' m' (boundAxes m) = continuousAxes t m (boundAxes m) :=
    continuousAxes_congr h fun a ha => ha
  unfold chosenAxis
  rw [boundAxes_congr h]
  -- the kinds of columns are looked at only where both axes are bound
  generalize boundAxes m = axes at hcontinuous
  split
  · rfl
  · rfl
  · rw [hcontinuous]

theorem requiredAxis_congr (asked : Channel) :
    requiredAxis stat m' layer asked = requiredAxis stat m layer asked := by
  unfold requiredAxis
  rw [boundAxes_congr h]

theorem axis_congr (asked : Option Axis) :
    axis stat asked t' m' geometry layer = axis stat asked t m geometry layer := by
  unfold axis
  cases asked with
  | none => exact chosenAxis_congr h stat geometry layer
  | some a => exact requiredAxis_congr h stat layer a.channel

theorem orientation_congr (stat : StatConfig) :
    orientation stat t' m' geometry layer = orientation stat t m geometry layer := by
  unfold orientation
  rw [chosenAxis_congr h]
  simp only [requiredAxis_congr h]

end Axis

/-! ### Reading columns -/

section Columns

variable (h : SameInput t t' m m')

include h

theorem groupColumns_congr (other : String) :
    groupColumns t' m' other = groupColumns t m other := by
  unfold groupColumns
  rw [h.columns_eq]
  refine foldlM_congr (fun keys e he => ?_) []
  -- a step looks up the kind of the column it is at, which is listed
  rw [(h.shared_of_mem he).kind_eq]

theorem continuousColumn_congr (stat : StatKind) (layer : Option Int) {along : Axis}
    (hbound : (m.column? along.channel).isSome = true) :
    continuousColumn stat t' m' along layer = continuousColumn stat t m along layer := by
  obtain ⟨name, hname⟩ := Option.isSome_iff_exists.1 hbound
  have hkind : t'.kind name = t.kind name := (h.shared _ _ hname).kind_eq
  unfold continuousColumn
  rw [h.columns, hname, Option.getD_some]
  dsimp only
  rw [hkind]

omit h in
/-- The columns that divide rows into groups are bound. -/
theorem exists_channel_of_groupColumns {other : String} {keys : List String}
    (hkeys : groupColumns t m other = .ok keys) : ∀ k ∈ keys, ∃ c, m.column? c = some k := by
  -- what has been collected are bound columns, and a step adds one or none
  unfold groupColumns at hkeys
  refine foldlM_induction (P := fun keys => ∀ k ∈ keys, ∃ c, m.column? c = some k)
    (fun keys e keys' he hbound hstep => ?_) (fun k hk => absurd hk List.not_mem_nil) hkeys
  have hadd : ∀ k ∈ keys ++ [e.2], ∃ c, m.column? c = some k := by
    intro k hk
    rcases List.mem_append.1 hk with hk | hk
    · exact hbound k hk
    · obtain rfl := List.mem_singleton.1 hk
      exact ⟨e.1, Mapping.mem_columns.1 he⟩
  split at hstep
  · cases hstep
    exact hbound
  · split at hstep
    · cases hstep
      exact hadd
    · obtain ⟨kind, -, hstep⟩ := bind_eq_ok.1 hstep
      cases hstep
      split
      · exact hbound
      · exact hadd

omit h in
/-- The columns a summary reduces are bound. -/
theorem exists_channel_of_reducedColumns {counting : Bool} {keys reduced : List String}
    {layer : Option Int} (hreduced : reducedColumns counting t m keys layer = .ok reduced) :
    ∀ k ∈ reduced, ∃ c, m.column? c = some k := by
  obtain ⟨step, hfold, hsteps⟩ := reducedColumns_steps hreduced
  refine foldlM_induction (P := fun found => ∀ k ∈ found, ∃ c, m.column? c = some k)
    (fun found e found' he hbound hstep k hk => ?_) (fun k hk => absurd hk List.not_mem_nil) hfold
  rcases hsteps found e found' hstep with ⟨rfl, -⟩ | ⟨rfl, -⟩
  · exact hbound k hk
  · rcases List.mem_append.1 hk with hk | hk
    · exact hbound k hk
    · obtain rfl := List.mem_singleton.1 hk
      exact ⟨e.1, Mapping.mem_columns.1 he⟩

theorem reducedColumns_congr (counting : Bool) (keys : List String) (layer : Option Int) :
    reducedColumns counting t' m' keys layer = reducedColumns counting t m keys layer := by
  unfold reducedColumns
  rw [h.columns_eq]
  refine foldlM_congr (fun reduced e he => ?_) []
  rw [(h.shared_of_mem he).kind_eq]

section Names

variable {names : List String} (hnames : ∀ name ∈ names, ∃ c, m.column? c = some name)

include hnames

theorem allSeries_congr : allSeries t' names = allSeries t names := by
  refine mapM_congr fun name hname => ?_
  obtain ⟨c, hc⟩ := hnames name hname
  exact (h.shared c name hc).series_eq

theorem kinds_congr : names.mapM t'.kind = names.mapM t.kind := by
  refine mapM_congr fun name hname => ?_
  obtain ⟨c, hc⟩ := hnames name hname
  exact (h.shared c name hc).kind_eq

end Names

end Columns

/-! ### Bins and curves -/

section Along

variable (h : SameInput t t' m m') (settings : Settings) (defaults : Defaults) (geometry : Value)
  (layer : Option Int)

include h

theorem input_congr (stat : StatKind) {along : Axis}
    (hbound : (m.column? along.channel).isSome = true) :
    input stat t' m' along layer = input stat t m along layer := by
  have hcolumn : continuousColumn stat t' m' along layer = continuousColumn stat t m along layer :=
    continuousColumn_congr h stat layer hbound
  unfold input
  rw [hcolumn]
  refine Logged.bind_congr_ok fun name hname => ?_
  have hseries : t'.series name = t.series name :=
    (h.shared _ _ (name_of_continuousColumn hbound hname)).series_eq
  rw [groupColumns_congr h, hseries]

theorem divide_congr {found : Input} (hkeys : ∀ k ∈ found.keys, ∃ c, m.column? c = some k) :
    found.divide t' = found.divide t := by
  unfold Input.divide
  rw [allSeries_congr h hkeys, kinds_congr h hkeys, h.height]

theorem bin_congr :
    bin settings defaults t' m' geometry layer = bin settings defaults t m geometry layer := by
  unfold bin
  rw [h.computedBy, axis_congr h]
  congr 1
  refine Logged.bind_congr_ok fun along halong => ?_
  rw [input_congr h layer .bin (isSome_of_axis halong)]
  refine Logged.bind_congr_ok fun found hfound => ?_
  rw [divide_congr h (exists_channel_of_groupColumns (input_eq_ok hfound).2.2)]

theorem density_congr (kit : Toolkit) (kernel : Value) :
    density kit kernel settings defaults t' m' geometry layer =
      density kit kernel settings defaults t m geometry layer := by
  unfold density
  rw [axis_congr h]
  refine Logged.bind_congr_ok fun along halong => ?_
  rw [input_congr h layer .density (isSome_of_axis halong)]
  refine Logged.bind_congr_ok fun found hfound => ?_
  rw [divide_congr h (exists_channel_of_groupColumns (input_eq_ok hfound).2.2)]

end Along

/-! ### Summaries -/

section Summary

variable (h : SameInput t t' m m') (settings : Settings) (geometry : Value) (layer : Option Int)

include h

theorem valueAxis_congr (asked : Option Axis) :
    valueAxis asked t' m' geometry = valueAxis asked t m geometry := by
  have hkind : ∀ a : Axis,
      (m'.column? a.channel).mapM t'.kind = (m.column? a.channel).mapM t.kind := by
    intro a
    rw [h.columns]
    cases hc : m.column? a.channel with
    | none => rfl
    | some name =>
      have hname : t'.kind name = t.kind name := (h.shared _ _ hc).kind_eq
      simp only [Option.mapM_some, hname]
  unfold valueAxis
  simp only [hkind]

theorem summary_congr (kit : Toolkit) (stat : StatConfig) :
    summary kit stat settings t' m' geometry layer =
      summary kit stat settings t m geometry layer := by
  unfold summary
  rw [valueAxis_congr h]
  refine bind_congr_ok fun along _ => ?_
  rw [h.columns, h.columns]
  cases hc : m.column? along.channel with
  | none => rfl
  | some column =>
    refine bind_congr_ok fun reduce _ => ?_
    dsimp only
    rw [groupColumns_congr h]
    refine bind_congr_ok fun others hothers => ?_
    rw [reducedColumns_congr h]
    refine bind_congr_ok fun reduced hreduced => ?_
    -- the keys are the column across and the columns that divide the rows, and all are bound
    have hkeys : ∀ k ∈ (m.column? along.other.channel).toList ++
        others.filter (fun k => !(m.column? along.other.channel).toList.contains k),
        ∃ c, m.column? c = some k := by
      intro k hk
      rcases List.mem_append.1 hk with hk | hk
      · exact ⟨_, Option.mem_toList.1 hk⟩
      · exact exists_channel_of_groupColumns hothers k (List.mem_filter.1 hk).1
    rw [allSeries_congr h hkeys, allSeries_congr h (exists_channel_of_reducedColumns hreduced),
      kinds_congr h hkeys, h.height]

end Summary

/-- **A statistic depends on the columns that are bound, and on nothing else of its table.** -/
theorem run_congr (h : SameInput t t' m m') (kit : Toolkit) {stat : StatConfig}
    (hstat : stat.kind = .identity → t' = t) (defaults : Defaults) (geometry : Value)
    (layer : Option Int) :
    run kit stat defaults t' m' geometry layer = run kit stat defaults t m geometry layer := by
  unfold run
  refine Logged.bind_congr_ok fun settings _ => ?_
  unfold runWith
  cases hk : stat.kind with
  | identity => rw [hstat hk]
  | bin => exact bin_congr h settings defaults geometry layer
  | summary => exact congrArg Logged.ofExcept (summary_congr h settings geometry layer kit stat)
  | density => exact density_congr h settings defaults geometry layer kit stat.kernel

end Stat

end PlotGrammar
