import PlotGrammar.Proofs.Stat.Failure
import PlotGrammar.Proofs.Stat.Remap

/-!
# How a statistic names its layer

The number of a layer decides nothing. It is handed through every function of a statistic and shows
in the problem that ends it, if one does. `Alike` says so of an operation: whatever the number, it
ends with the same result or the same failure, which names the number or is one that names no layer,
namely that the columns of a result have repeated names, or a fault.

There is one lemma for each function that `Stat.run` is made of. Those that are not told the number
may not fail with a problem of their own (`Failure.Plain`), for it would not name the layer. That
the columns of a mapping are in the table is what rules this out: a column that is looked for is
there. -/

namespace PlotGrammar

/-! ### Failures apart from the layer -/

/-- A failure of a layer, without the number of the layer. -/
inductive Blame where
  | layer (cause : LayerCause) (channel : Option String)
  | repeatedNames (names : List String)
  | fault (f : Fault)

/-- The failure, of the layer of a number. -/
def Blame.failure (number : Option Int) : Blame → Failure
  | layer cause channel => .layer cause number channel
  | repeatedNames names => .misuse (.repeatedNames names)
  | fault f => .fault f

/-- Whether a failure names no layer and is not expected to. -/
def Failure.Plain : Failure → Prop
  | .fault _ | .problem (.misuse (.repeatedNames _)) => True
  | _ => False

theorem Failure.plain_fault (f : Fault) : (fault f).Plain := trivial

/-- An operation on a layer ends alike whatever the number of the layer is. -/
def Alike {α : Type} (x : Option Int → Except Failure α) : Prop :=
  ∃ y : Except Blame α, ∀ number, x number = y.mapError (Blame.failure number)

namespace Alike

variable {α β : Type}

theorem ok (a : α) : Alike fun _ => .ok a :=
  ⟨.ok a, fun _ => rfl⟩

theorem pure (a : α) : Alike fun _ => (Pure.pure a : Except Failure α) :=
  ok a

theorem layer (cause : LayerCause) (channel : Option String) :
    Alike fun number => (.error (.layer cause number channel) : Except Failure α) :=
  ⟨.error (.layer cause channel), fun _ => rfl⟩

/-- What is not told the number of the layer. -/
theorem of_plain {x : Except Failure α} (h : FailsOnly Failure.Plain x) : Alike fun _ => x := by
  cases x with
  | ok a => exact ok a
  | error e =>
    have he := h e rfl
    unfold Failure.Plain at he
    split at he
    · exact ⟨.error (.fault _), fun _ => rfl⟩
    · exact ⟨.error (.repeatedNames _), fun _ => rfl⟩
    · exact he.elim

theorem bind {x : Option Int → Except Failure α} {f : Option Int → α → Except Failure β}
    (hx : Alike x) (hf : ∀ a, (∀ number, x number = .ok a) → Alike fun number => f number a) :
    Alike fun number => x number >>= f number := by
  -- a step that fails, fails alike; one that gives a value goes on from the same value
  obtain ⟨y, hy⟩ := hx
  cases y with
  | error b =>
    refine ⟨.error b, fun number => ?_⟩
    exact congrArg (· >>= f number) (hy number)
  | ok a =>
    obtain ⟨z, hz⟩ := hf a hy
    refine ⟨z, fun number => ?_⟩
    exact (congrArg (· >>= f number) (hy number)).trans (hz number)

theorem throw_bind (cause : LayerCause) (channel : Option String)
    (f : Option Int → α → Except Failure β) :
    Alike fun number => MonadExcept.throw (.layer cause number channel) >>= f number :=
  layer cause channel

/-- A test whose failure ends the operation, before the rest of it. -/
theorem guard {c : Prop} [Decidable c] (cause : LayerCause) (channel : Option String)
    {f : Option Int → Unit → Except Failure β} (hf : Alike fun number => f number ()) :
    Alike fun number =>
      if c then MonadExcept.throw (.layer cause number channel) >>= f number else f number () := by
  by_cases h : c
  · simp only [if_pos h]
    exact throw_bind cause channel f
  · simp only [if_neg h]
    exact hf

theorem ite {c : Prop} [Decidable c] {x y : Option Int → Except Failure α} (hx : Alike x)
    (hy : Alike y) : Alike fun number => if c then x number else y number := by
  by_cases h : c
  · simp only [if_pos h]
    exact hx
  · simp only [if_neg h]
    exact hy

theorem foldlM {f : Option Int → β → α → Except Failure β} {xs : List α}
    (hf : ∀ b, ∀ a ∈ xs, Alike fun number => f number b a) (b : β) :
    Alike fun number => xs.foldlM (f number) b := by
  induction xs generalizing b with
  | nil => exact pure b
  | cons a xs ih =>
    simp only [List.foldlM_cons]
    refine (hf b a List.mem_cons_self).bind fun b' _ => ?_
    exact ih (fun b a ha => hf b a (List.mem_cons_of_mem _ ha)) b'

theorem logged {x : Option Int → Logged α} {f : Option Int → α → Logged β}
    (hx : Alike fun number => (x number).outcome)
    (hf : ∀ a, (∀ number, (x number).outcome = .ok a) → Alike fun number => (f number a).outcome) :
    Alike fun number => (x number >>= f number).outcome := by
  simp only [Logged.outcome_bind]
  exact hx.bind hf

end Alike

/-! ### Parameters -/

namespace StatConfig

theorem plain_known {α : Type} (given : Value) (entries : List (Value × α)) :
    FailsOnly Failure.Plain (known given entries) :=
  .ite (fun _ => .mapError fun f _ => Failure.plain_fault f) fun _ =>
    .error (Failure.plain_fault _)

theorem alike_optional {α : Type} {v : Value} {read : Value → Except Failure (Option α)}
    (cause : LayerCause) (hread : ∀ v, FailsOnly Failure.Plain (read v)) :
    Alike fun number => optional v read (.layer cause number none) := by
  unfold optional
  cases v.given? with
  | none => exact .ok none
  | some v =>
    refine (Alike.of_plain (hread v)).bind fun a _ => ?_
    cases a with
    | none => exact .layer _ _
    | some a => exact .pure _

section Tests

variable {kit : Toolkit} {stat : StatConfig} {f : Option Int → Unit → Except Failure Settings}

/-- A name that is not known is refused before the rest is read. -/
theorem alike_orRefuse {c : Prop} [Decidable c] {α : Type} (given : Value)
    (entries : List (Value × α)) (cause : List String → LayerCause)
    (hf : Alike fun number => f number ()) :
    Alike fun number =>
      if c then f number ()
      else known given entries >>= fun names =>
        throw (.layer (cause names) number none) >>= f number :=
  .ite hf ((Alike.of_plain (plain_known given entries)).bind fun _ _ => .throw_bind _ _ _)

theorem alike_aggregatorTest (hf : Alike fun number => f number ()) :
    Alike fun number =>
      if stat.kind = .summary then
        match stat.aggregator.characters? with
        | some name =>
          if (kit.aggregator? stat.aggregator).isSome = true then f number ()
          else known stat.aggregator kit.aggregators >>= fun names =>
            throw (.layer (.unknownAggregator name names) number none) >>= f number
        | none => f number ()
      else f number () := by
  -- the refusal names the layer, and the rest does not look at it
  refine .ite ?_ hf
  cases stat.aggregator.characters? with
  | none => exact hf
  | some name => exact alike_orRefuse _ _ _ hf

theorem alike_kernelTest (hf : Alike fun number => f number ()) :
    Alike fun number =>
      let test : Unit → Except Failure Settings := fun _ =>
        if (kit.kernel? stat.kernel).isSome = true then f number ()
        else known stat.kernel kit.kernels >>= fun names =>
          throw (.layer (.unknownKernel stat.kernel names) number none) >>= f number
      if stat.kind = .density then
        if stat.kernel.isKey = true then test ()
        else throw (.fault .wrongShape) >>= test
      else f number () := by
  refine .ite (.ite (alike_orRefuse _ _ _ hf) ?_) hf
  exact (Alike.of_plain (.throw (Failure.plain_fault _))).bind fun _ h => nomatch h none

end Tests

theorem alike_settings (stat : StatConfig) (kit : Toolkit) :
    Alike fun number => stat.settings kit number := by
  unfold settings
  -- the options are read one by one, and each refusal takes the layer along
  refine (alike_optional _ fun _ => .ok _).bind fun bins _ => ?_
  refine (alike_optional _ (failsOnly_positive (Failure.plain_fault _))).bind fun binWidth _ => ?_
  refine .guard _ _ ?_
  refine (alike_optional _ (failsOnly_finite (Failure.plain_fault _))).bind fun boundary _ => ?_
  refine (alike_optional _ (failsOnly_positive (Failure.plain_fault _))).bind fun bandwidth _ => ?_
  refine (Alike.of_plain (failsOnly_positive (Failure.plain_fault _) _)).bind fun adjust? _ => ?_
  cases adjust? with
  | none => exact .throw_bind _ _ _
  | some adjust =>
    refine (Alike.pure adjust).bind fun adjust _ => ?_
    refine (alike_optional _ fun _ => .ok _).bind fun points _ => ?_
    refine alike_aggregatorTest ?_
    refine alike_kernelTest ?_
    exact (alike_optional _ fun _ => .ok _).bind fun axis _ => .pure _

end StatConfig

namespace Stat

section Plain

variable {P : Failure → Prop} {table : Table} {mapping : Mapping}

/-! ### Looking for columns -/

/-- The kind of a column that is there is found. -/
theorem failsOnly_kind {name : String} (h : table.contains name = true) :
    FailsOnly P (table.kind name) := by
  obtain ⟨kind, hkind⟩ := Table.exists_kind_of_contains h
  unfold Table.kind
  rw [hkind]
  exact .ok kind

theorem contains_of_series {name : String} {column : Column} (h : table.series name = .ok column) :
    table.contains name = true := by
  unfold Table.series at h
  split at h
  · next hcolumn => exact Table.contains_of_column? hcolumn
  · exact nomatch h

/-- Where the columns of some names were found, their kinds are found. -/
theorem failsOnly_kinds {names : List String} {columns : List Column}
    (h : allSeries table names = .ok columns) : FailsOnly P (names.mapM table.kind) := by
  refine .mapM fun name hname => ?_
  obtain ⟨column, -, hcolumn⟩ := mapM_ok_of_mem h hname
  exact failsOnly_kind (contains_of_series hcolumn)

variable (hpresent : ∀ c name, mapping.column? c = some name → table.contains name = true)

include hpresent

theorem failsOnly_groupColumns (other : String) :
    FailsOnly P (groupColumns table mapping other) := by
  unfold groupColumns
  refine .foldlM (fun keys e he => ?_) _
  split
  · exact .pure _
  · split
    · exact .pure _
    · exact (failsOnly_kind (hpresent e.1 e.2 (Mapping.mem_columns.1 he))).bind fun _ _ => .pure _

theorem failsOnly_continuousAxes {axes : List Axis}
    (h : ∀ a ∈ axes, (mapping.column? a.channel).isSome = true) :
    FailsOnly P (continuousAxes table mapping axes) := by
  induction axes with
  | nil => exact .ok _
  | cons a rest ih =>
    obtain ⟨name, hname⟩ := Option.isSome_iff_exists.1 (h a List.mem_cons_self)
    have hrest := ih fun a ha => h a (List.mem_cons_of_mem _ ha)
    unfold continuousAxes
    rw [hname, Option.getD_some]
    refine (failsOnly_kind (hpresent _ _ hname)).bind fun _ _ => ?_
    exact hrest.bind fun _ _ => .pure _

end Plain

/-- A geometry that is known has an axis that it prefers. -/
theorem failsOnly_preferredAxis {P : Failure → Prop} (g : Geometry) :
    FailsOnly P (preferredAxis (.member (.geometry g))) := by
  have hname : Geometry.ofValue (.member (.geometry g)) = .ok g := by
    cases g <;> rfl
  unfold preferredAxis
  dsimp only
  rw [hname]
  exact .ok _

section Axis

variable {table : Table} {mapping : Mapping} (stat : StatKind) (g : Geometry)
  (hpresent : ∀ c name, mapping.column? c = some name → table.contains name = true)

theorem alike_requiredAxis (asked : Channel) :
    Alike fun number => requiredAxis stat mapping number asked := by
  unfold requiredAxis
  cases (boundAxes mapping).find? fun a => decide (a.channel = asked) with
  | none => exact .layer _ _
  | some a => exact .ok a

include hpresent

theorem alike_chosenAxis :
    Alike fun number => chosenAxis stat table mapping (.member (.geometry g)) number := by
  -- a channel that is chosen is bound, so its kind is looked up and found
  have hbound : ∀ a ∈ boundAxes mapping, (mapping.column? a.channel).isSome = true :=
    fun a ha => mem_boundAxes.1 ha
  unfold chosenAxis
  cases hb : boundAxes mapping with
  | nil => exact .layer _ _
  | cons a rest =>
    cases rest with
    | nil => exact .pure a
    | cons b rest =>
      rw [hb] at hbound
      refine Alike.of_plain ((failsOnly_continuousAxes hpresent hbound).bind fun found _ => ?_)
      split
      · exact .pure _
      · exact failsOnly_preferredAxis g

theorem alike_axis (asked : Option Axis) :
    Alike fun number => axis stat asked table mapping (.member (.geometry g)) number := by
  unfold axis
  cases asked with
  | none => exact alike_chosenAxis stat g hpresent
  | some a => exact alike_requiredAxis stat a.channel

theorem alike_orientation (stat : StatConfig) :
    Alike fun number => orientation stat table mapping (.member (.geometry g)) number := by
  -- an orientation that is given needs no choice, and one that is not is chosen by the table
  by_cases hnull : stat.orientation = .null
  · unfold orientation
    rw [hnull]
    exact alike_chosenAxis stat.kind g hpresent
  · have hasked := fun number =>
      orientation_of_asked hnull table mapping (.member (.geometry g)) number
    simp only [hasked]
    cases stat.orientation.characters?.bind Channel.ofName? with
    | none => exact .of_plain (.error (Failure.plain_fault _))
    | some c => exact alike_requiredAxis stat.kind c

end Axis

/-! ### Running -/

section Run

variable {table : Table} {mapping : Mapping}

theorem plain_divide (input : Input) : FailsOnly Failure.Plain (input.divide table) := by
  unfold Input.divide
  refine (failsOnly_allSeries Failure.plain_fault _ _).bind fun columns hcolumns => ?_
  refine (failsOnly_kinds hcolumns).bind fun kinds _ => ?_
  dsimp only
  split
  · exact .pure _
  · exact .throw_bind (Failure.plain_fault _) _

theorem alike_reduction (kit : Toolkit) (stat : StatConfig) :
    Alike fun number => stat.reduction kit number := by
  unfold StatConfig.reduction
  cases kit.reduction? stat.aggregator with
  | some reduce => exact .ok reduce
  | none =>
    refine .ite ?_ (Alike.of_plain (.error (Failure.plain_fault _)))
    cases kit.aggregator? stat.aggregator with
    | some reduce => exact .ok reduce
    | none => exact .layer _ _

variable (hpresent : ∀ c name, mapping.column? c = some name → table.contains name = true)

include hpresent

theorem alike_continuousColumn (stat : StatKind) {along : Axis}
    (hbound : (mapping.column? along.channel).isSome = true) :
    Alike fun number => continuousColumn stat table mapping along number := by
  obtain ⟨name, hname⟩ := Option.isSome_iff_exists.1 hbound
  unfold continuousColumn
  rw [hname, Option.getD_some]
  refine (Alike.of_plain (failsOnly_kind (hpresent _ _ hname))).bind fun kind _ => ?_
  exact .ite (.pure _) (.layer _ _)

theorem alike_input (stat : StatKind) {along : Axis}
    (hbound : (mapping.column? along.channel).isSome = true) :
    Alike fun number => (input stat table mapping along number).outcome := by
  unfold input
  refine .logged (alike_continuousColumn hpresent stat hbound) fun name _ => ?_
  refine .logged (Alike.of_plain (failsOnly_groupColumns hpresent name)) fun keys _ => ?_
  have hseries := table.failsOnly_series Failure.plain_fault name
  refine .logged (Alike.of_plain hseries) fun column _ => ?_
  -- how many rows have no value is recorded, and changes nothing
  dsimp only
  split
  · exact .pure _
  · exact .pure _

theorem alike_reducedColumns (counting : Bool) (keys : List String) :
    Alike fun number => reducedColumns counting table mapping keys number := by
  unfold reducedColumns
  refine .foldlM (fun reduced e he => ?_) _
  refine .ite (.pure _) (.ite (.pure _) ?_)
  refine (Alike.of_plain (failsOnly_kind ?_)).bind fun kind _ => .ite (.pure _) (.layer _ _)
  exact hpresent e.1 e.2 (Mapping.mem_columns.1 he)

variable (g : Geometry) (settings : Settings) (defaults : Defaults)

theorem failsOnly_valueAxis {P : Failure → Prop} (asked : Option Axis) :
    FailsOnly P (valueAxis asked table mapping (.member (.geometry g))) := by
  have hkind : ∀ a : Axis, FailsOnly P ((mapping.column? a.channel).mapM table.kind) := fun a =>
    .optionMapM fun name hname => failsOnly_kind (hpresent _ _ hname)
  unfold valueAxis
  split
  · exact .pure _
  · refine (hkind .x).bind fun onX _ => (hkind .y).bind fun onY _ => ?_
    split
    · exact (failsOnly_preferredAxis g).bind fun _ _ => .pure _
    · exact .pure _
    · exact .pure _

theorem alike_summary (kit : Toolkit) (stat : StatConfig) :
    Alike fun number =>
      summary kit stat settings table mapping (.member (.geometry g)) number := by
  unfold summary
  -- stage by stage: only the faults of a mapping or of the aggregator name the layer
  refine (Alike.of_plain (failsOnly_valueAxis hpresent g settings.axis)).bind fun along _ => ?_
  cases mapping.column? along.channel with
  | none => exact .layer _ _
  | some column =>
    refine (alike_reduction kit stat).bind fun reduce _ => ?_
    refine (Alike.of_plain (failsOnly_groupColumns hpresent column)).bind fun others _ => ?_
    refine (alike_reducedColumns hpresent _ _).bind fun reduced _ => Alike.of_plain ?_
    refine (failsOnly_allSeries Failure.plain_fault _ _).bind fun keyColumns hkeys => ?_
    refine (failsOnly_allSeries Failure.plain_fault _ _).bind fun reducedColumns _ => ?_
    extract_lets -underBinder afterKeys
    have hrest : ∀ u, FailsOnly Failure.Plain (afterKeys u) := by
      intro u
      refine (failsOnly_faulty Failure.plain_fault _).bind fun rows _ => ?_
      exact (failsOnly_kinds hkeys).bind fun kinds _ => failsOnly_ofRows (fun _ => trivial) _ _ _
    split
    · exact hrest ()
    · exact .throw_bind (Failure.plain_fault _) _

theorem alike_bin :
    Alike fun number =>
      (bin settings defaults table mapping (.member (.geometry g)) number).outcome := by
  unfold bin
  -- a table that is already binned is refused with the layer, whatever its number
  by_cases hbinned : table.computedBy = some StatKind.bin.name
  · simp only [if_pos hbinned]
    exact .layer _ _
  · simp only [if_neg hbinned]
    refine .logged (alike_axis .bin g hpresent settings.axis) fun along halong => ?_
    have hbound := isSome_of_axis (halong none)
    refine .logged (alike_input hpresent .bin hbound) fun input _ => Alike.of_plain ?_
    refine .logged (failsOnly_binEdges Failure.plain_fault _ _ _) fun edges _ => ?_
    refine .logged (plain_divide _) fun division _ => ?_
    exact failsOnly_assemble Failure.plain_fault (fun _ => trivial) _ _ _ _ _ _

theorem alike_density (kit : Toolkit) (kernel : Value) :
    Alike fun number =>
      (density kit kernel settings defaults table mapping (.member (.geometry g))
        number).outcome := by
  unfold density
  refine .logged (alike_axis .density g hpresent settings.axis) fun along halong => ?_
  have hbound := isSome_of_axis (halong none)
  refine .logged (alike_input hpresent .density hbound) fun input _ => Alike.of_plain ?_
  split
  · exact .error (Failure.plain_fault _)
  · next weighing _ =>
    refine .logged (plain_divide _) fun division _ => ?_
    have hblock := failsOnly_curveBlock Failure.plain_fault weighing settings defaults
    refine .logged (.loggedFilterMapM fun s _ => hblock s) fun blocks _ => ?_
    exact failsOnly_assemble Failure.plain_fault (fun _ => trivial) _ _ _ _ _ _

/-- **A statistic is told the number of its layer, and only names it.** -/
theorem alike_run (kit : Toolkit) (stat : StatConfig) :
    Alike fun number =>
      (run kit stat defaults table mapping (.member (.geometry g)) number).outcome := by
  unfold run
  refine .logged (stat.alike_settings kit) fun settings _ => ?_
  unfold runWith
  cases stat.kind with
  | identity => exact .pure _
  | bin => exact alike_bin hpresent g settings defaults
  | summary => exact alike_summary hpresent g settings kit stat
  | density => exact alike_density hpresent g settings defaults kit stat.kernel

end Run

end Stat

end PlotGrammar
