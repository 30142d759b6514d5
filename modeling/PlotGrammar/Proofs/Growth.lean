import PlotGrammar.Proofs.Bindings
import PlotGrammar.Proofs.Collection

/-!
# What calls do to scales

A registry is a state machine: calls on channels and on layers feed its scales, and freezing ends
that. `ScaleRegistry.calls_extend_scales` says what a call may do after any run of calls.

* A call on a channel that is refused leaves the registry as it is.
* A call on a layer is the calls on its channels in turn (`ScaleRegistry.turns`), of which those
  that are refused leave no trace but their problems.
* A scale only grows (`ScaleState.Grows`): it keeps its kind, new levels come after the old ones,
  and an end of its range stays or moves outwards. It stays in order meanwhile
  (`ScaleState.Ordered`).
* Nothing moves once the scales are frozen.

Growth is a preorder that every call steps along, so a run of calls grows the scales as a single
call does. An end that moves is below or above the one it replaces, and not merely not above or
below it: `Cell.less` is no linear order, so that the weaker relation would not be transitive.

A layer call gives its problems back unless something else than a problem ends it: the scales are
frozen, or a column cannot be read at all (`ScaleRegistry.layer_call_ends_when_frozen`).
-/

namespace PlotGrammar

namespace ScaleState

/-! ### Growing -/

/-- An end of a range is another one, or it has moved from there in the direction of an order. -/
def Moved (before : Cell → Cell → Bool) (old new : Cell) : Prop :=
  new = old ∨ before new old = true

/-- A scale has grown into another one. -/
structure Grows (s s' : ScaleState) : Prop where
  kind : s'.kind = s.kind
  /-- Levels are added at the end. -/
  levels : s.levels <+: s'.levels
  /-- The lower end moves down and the upper end up, if they move. -/
  range : ∀ low high, s.range = some (low, high) → ∃ low' high', s'.range = some (low', high') ∧
    Moved Cell.less low low' ∧ Moved (fun a b => b.less a) high high'

/-- A scale is in order: no level repeats another, and the upper end is not below the lower one. -/
structure Ordered (s : ScaleState) : Prop where
  levels : s.levels.Pairwise fun l m => l.key ≠ m.key
  range : ∀ low high, s.range = some (low, high) → high.less low = false

theorem Moved.trans {before : Cell → Cell → Bool}
    (htrans : ∀ a b c, before a b = true → before b c = true → before a c = true) {a b c : Cell}
    (hab : Moved before a b) (hbc : Moved before b c) : Moved before a c := by
  rcases hab with rfl | hab
  · exact hbc
  · rcases hbc with rfl | hbc
    · exact Or.inr hab
    · exact Or.inr (htrans c b a hbc hab)

theorem Grows.refl (s : ScaleState) : s.Grows s where
  kind := rfl
  levels := List.prefix_refl _
  range low high h := ⟨low, high, h, Or.inl rfl, Or.inl rfl⟩

theorem Grows.trans {s t u : ScaleState} (hst : s.Grows t) (htu : t.Grows u) : s.Grows u where
  kind := htu.kind.trans hst.kind
  levels := hst.levels.trans htu.levels
  range := by
    intro low high h
    obtain ⟨low₁, high₁, h₁, hlow₁, hhigh₁⟩ := hst.range low high h
    obtain ⟨low₂, high₂, h₂, hlow₂, hhigh₂⟩ := htu.range low₁ high₁ h₁
    -- the ends move in opposite directions, so the order is composed either way
    have hdown : ∀ a b c : Cell, a.less b = true → b.less c = true → a.less c = true :=
      fun _ _ _ => Cell.less_trans
    have hup : ∀ a b c : Cell, b.less a = true → c.less b = true → c.less a = true :=
      fun _ _ _ hba hcb => Cell.less_trans hcb hba
    exact ⟨low₂, high₂, h₂, @Moved.trans Cell.less hdown _ _ _ hlow₁ hlow₂,
      @Moved.trans (fun a b => b.less a) hup _ _ _ hhigh₁ hhigh₂⟩

theorem Ordered.empty (kind : ColumnKind) : (empty kind).Ordered where
  levels := List.Pairwise.nil
  range _ _ h := nomatch h

/-! One cell -/

theorem prefix_addLevel (levels : List Cell) (c : Cell) : levels <+: addLevel levels c := by
  unfold addLevel
  split
  · exact List.prefix_refl _
  · exact List.prefix_append _ _

theorem pairwise_addLevel {levels : List Cell} (h : levels.Pairwise fun l m => l.key ≠ m.key)
    (c : Cell) : (addLevel levels c).Pairwise fun l m => l.key ≠ m.key := by
  unfold addLevel
  split
  · exact h
  · next hnew =>
    refine List.pairwise_append.2 ⟨h, List.pairwise_singleton _ _, fun l hl m hm => ?_⟩
    obtain rfl := List.mem_singleton.1 hm
    intro hkey
    exact hnew (List.any_eq_true.2 ⟨l, hl, beq_iff_eq.2 hkey⟩)

theorem grows_widen (kind : ColumnKind) (levels : List Cell) (range : Option (Cell × Cell))
    (c : Cell) : Grows ⟨kind, range, levels⟩ ⟨kind, widen range c, levels⟩ where
  kind := rfl
  levels := List.prefix_refl _
  range := by
    rintro low high h
    obtain rfl : range = some (low, high) := h
    refine ⟨_, _, rfl, ?_, ?_⟩
    -- an end moves to the new cell if that lies beyond it, and stays if not
    · split
      · next hc => exact Or.inr hc
      · exact Or.inl rfl
    · split
      · next hc => exact Or.inr hc
      · exact Or.inl rfl

/-- A cell that replaced both ends would be below the lower and above the upper one. -/
theorem ordered_widen {range : Option (Cell × Cell)}
    (h : ∀ low high, range = some (low, high) → high.less low = false) (c low high : Cell)
    (hw : widen range c = some (low, high)) : high.less low = false := by
  -- a first cell is both ends, and a later one replaces an end only if it lies beyond it
  cases range with
  | none =>
    cases hw
    exact Cell.less_irrefl c
  | some ends =>
    obtain ⟨low₀, high₀⟩ := ends
    have h₀ := h low₀ high₀ rfl
    cases hw
    split
    · next hlow =>
      split
      · exact Cell.less_irrefl c
      · next hhigh => exact Bool.eq_false_of_not_eq_true hhigh
    · next hlow =>
      split
      · exact Bool.eq_false_of_not_eq_true hlow
      · exact h₀

/-! All cells of a call -/

theorem grows_extend (s : ScaleState) (cells : List Cell) : s.Grows (s.extend cells) := by
  induction cells generalizing s with
  | nil =>
    rw [extend_nil]
    exact .refl s
  | cons c cells ih =>
    rw [← List.singleton_append, extend_append]
    -- cell by cell: one cell adds a level or widens the range
    refine Grows.trans ?_ (ih _)
    obtain ⟨kind, range, levels⟩ := s
    cases kind with
    | discrete =>
      exact ⟨rfl, prefix_addLevel levels c,
        fun low high h => ⟨low, high, h, Or.inl rfl, Or.inl rfl⟩⟩
    | continuous | temporal => exact grows_widen _ levels range c

theorem Ordered.extend {s : ScaleState} (h : s.Ordered) (cells : List Cell) :
    (s.extend cells).Ordered := by
  induction cells generalizing s with
  | nil =>
    rw [extend_nil]
    exact h
  | cons c cells ih =>
    rw [← List.singleton_append, extend_append]
    -- one cell leaves the levels sorted and the ends in order
    refine ih ?_
    obtain ⟨kind, range, levels⟩ := s
    cases kind with
    | discrete => exact ⟨pairwise_addLevel h.levels c, h.range⟩
    | continuous | temporal => exact ⟨h.levels, ordered_widen h.range c⟩

end ScaleState

namespace ScaleRegistry

/-! ### Registries that grow -/

/-- Every scale of a registry has grown into that of another one. -/
def Grows (r r' : ScaleRegistry) : Prop :=
  ∀ c s, r.states c = some s → ∃ s', r'.states c = some s' ∧ s.Grows s'

/-- Every scale of a registry is in order. -/
def Ordered (r : ScaleRegistry) : Prop :=
  ∀ c s, r.states c = some s → s.Ordered

theorem Grows.refl (r : ScaleRegistry) : r.Grows r :=
  fun _ s h => ⟨s, h, .refl s⟩

theorem Grows.trans {r r' r'' : ScaleRegistry} (h : r.Grows r') (h' : r'.Grows r'') :
    r.Grows r'' := by
  intro c s hs
  obtain ⟨s', hs', hgrows⟩ := h c s hs
  obtain ⟨s'', hs'', hgrows'⟩ := h' c s' hs'
  exact ⟨s'', hs'', hgrows.trans hgrows'⟩

theorem Ordered.empty : Ordered .empty :=
  fun _ _ h => nomatch h

section Step

variable {r r' : ScaleRegistry} {channel : Channel} {table : Table} {mapping : Mapping}
  {layer : Option Int} {outcome : Except Failure Unit}

theorem Fed.grows (h : Fed r channel table mapping layer r' outcome) : r.Grows r' := by
  rcases h.effect with ⟨-, rfl⟩ | ⟨x, -, -, -, rfl⟩
  · exact .refl r'
  · intro c s hs
    rw [set_states]
    split
    · next hc =>
      rw [← hc, hs, Option.getD_some]
      exact ⟨_, rfl, s.grows_extend x.cells⟩
    · exact ⟨s, hs, .refl s⟩

theorem Fed.ordered (h : Fed r channel table mapping layer r' outcome) (hr : r.Ordered) :
    r'.Ordered := by
  -- a call that succeeds touches the scale of its channel and no other
  rcases h.effect with ⟨-, rfl⟩ | ⟨x, -, -, -, rfl⟩
  · exact hr
  · intro c s hs
    rw [set_states] at hs
    split at hs
    · cases hs
      refine ScaleState.Ordered.extend ?_ x.cells
      cases hstate : r.states channel.scaleChannel with
      | none => exact .empty x.kind
      | some s => exact hr _ s hstate
    · exact hr c s hs

/-- A refused call, be it for a problem of the layer or because it comes too late, changes
nothing. -/
theorem Fed.eq_of_refused (h : Fed r channel table mapping layer r' outcome) {e : Failure}
    (ho : outcome = .error e) (he : ∀ f, e ≠ .fault f) : r' = r := by
  refine h.eq_of_not_counts ?_
  subst ho
  cases e with
  | fault f => exact absurd rfl (he f)
  | problem | build | scalesFrozen => rfl

/-- A problem of a call names the channel and the layer that it was made for. -/
theorem Fed.problem_names (h : Fed r channel table mapping layer r' outcome) {p : LayerProblem}
    (ho : outcome = .error (.problem (.layer p))) :
    p.channel = some channel.name ∧ p.layer = layer := by
  cases h with
  | frozen | unbound => exact nomatch ho
  | absent | mismatch =>
    cases ho
    exact ⟨rfl, rfl⟩
  -- reading succeeds or ends in a fault, which is no problem of a layer
  | read column kind =>
    rcases readAll_outcome table kind (feeding table column) with hread | ⟨f, hread⟩
    · rw [hread] at ho
      exact nomatch ho
    · rw [hread] at ho
      exact nomatch ho

end Step

section Layer

variable {r r' : ScaleRegistry} {table : Table} {mapping : Mapping} {layer : Option Int}
  {channels : List Channel} {result : Except Failure (List LayerProblem)} {attempts : List Attempt}

theorem FedAll.grows (h : FedAll table mapping layer r channels r' result attempts) :
    r.Grows r' := by
  induction h with
  | done r => exact .refl r
  | ended rest hcall => exact hcall.grows
  | next hcall ho hrest ih => exact hcall.grows.trans ih

theorem FedAll.ordered (h : FedAll table mapping layer r channels r' result attempts)
    (hr : r.Ordered) : r'.Ordered := by
  induction h with
  | done => exact hr
  | ended rest hcall => exact hcall.ordered hr
  | next hcall ho hrest ih => exact ih (hcall.ordered hr)

end Layer

/-! ### Runs -/

theorem states_freeze (r : ScaleRegistry) : r.freeze.1.states = r.states := by
  unfold ScaleRegistry.freeze
  split <;> rfl

theorem grows_after (r : ScaleRegistry) (call : Call) : r.Grows (r.after call) := by
  cases call with
  | channel c table mapping layer => exact (fed_accumulate r c table mapping layer).grows
  | layer table mapping layer => exact (fedAll_accumulateAll table mapping layer r _).grows
  | freeze =>
    intro c s hs
    refine ⟨s, ?_, .refl s⟩
    rw [← hs]
    exact congrFun r.states_freeze c

theorem Ordered.after {r : ScaleRegistry} (h : r.Ordered) (call : Call) :
    (r.after call).Ordered := by
  cases call with
  | channel c table mapping layer => exact (fed_accumulate r c table mapping layer).ordered h
  | layer table mapping layer => exact (fedAll_accumulateAll table mapping layer r _).ordered h
  | freeze =>
    intro c s hs
    exact h c s ((congrFun r.states_freeze c).symm.trans hs)

theorem grows_run (r : ScaleRegistry) (calls : List Call) : r.Grows (r.run calls) := by
  induction calls generalizing r with
  | nil => exact .refl r
  | cons call rest ih => exact (r.grows_after call).trans (ih (r.after call))

theorem Ordered.run {r : ScaleRegistry} (h : r.Ordered) (calls : List Call) :
    (r.run calls).Ordered := by
  induction calls generalizing r with
  | nil => exact h
  | cons call rest ih => exact ih (h.after call)

/-! ### Frozen scales -/

section Frozen

variable {r : ScaleRegistry}

theorem accumulate_of_frozen (h : r.frozen.isSome = true) (c : Channel) (table : Table)
    (mapping : Mapping) (layer : Option Int) :
    r.accumulate c table mapping layer = (r, Logged.fail .scalesFrozen) := by
  unfold accumulate
  rw [if_pos h]

/-- A layer that has a column comes too late, and one that has none asks for nothing. -/
theorem accumulateLayer_of_frozen (h : r.frozen.isSome = true) (table : Table) (mapping : Mapping)
    (layer : Option Int) :
    (r.accumulateLayer table mapping layer).1 = r ∧
      (r.accumulateLayer table mapping layer).2.outcome =
        if mapping.columns.map (·.1) = [] then .ok [] else .error .scalesFrozen := by
  unfold accumulateLayer
  cases mapping.columns.map (·.1) with
  | nil => exact ⟨rfl, rfl⟩
  | cons first rest =>
    unfold accumulateAll
    rw [accumulate_of_frozen h]
    exact ⟨rfl, rfl⟩

theorem freeze_of_frozen {scales : List Scale} (h : r.frozen = some scales) :
    r.freeze = (r, scales) := by
  unfold ScaleRegistry.freeze
  rw [h]

theorem after_of_frozen (h : r.frozen.isSome = true) (call : Call) : r.after call = r := by
  cases call with
  | channel c table mapping layer =>
    exact congrArg Prod.fst (accumulate_of_frozen h c table mapping layer)
  | layer table mapping layer => exact (accumulateLayer_of_frozen h table mapping layer).1
  | freeze =>
    obtain ⟨scales, hscales⟩ := Option.isSome_iff_exists.1 h
    exact congrArg Prod.fst (freeze_of_frozen hscales)

theorem run_of_frozen (h : r.frozen.isSome = true) (calls : List Call) : r.run calls = r := by
  induction calls with
  | nil => rfl
  | cons call rest ih =>
    change (r.after call).run rest = r
    rw [after_of_frozen h call]
    exact ih

theorem frozen_freeze (r : ScaleRegistry) : r.freeze.1.frozen = some r.freeze.2 := by
  unfold ScaleRegistry.freeze
  split
  · next h => exact h
  · rfl

end Frozen

/-! ### The channels of a layer in turn -/

section Turns

variable (table : Table) (mapping : Mapping) (layer : Option Int)

/-- The registry after calls on some channels, one after the other, however they end. -/
def accumulateEach (r : ScaleRegistry) (channels : List Channel) : ScaleRegistry :=
  channels.foldl (fun r c => (r.accumulate c table mapping layer).1) r

/-- How the calls on some channels end, each when it is its turn. -/
def turns : ScaleRegistry → List Channel → List (Channel × Except Failure Unit)
  | _, [] => []
  | r, c :: rest =>
    let fed := r.accumulate c table mapping layer
    (c, fed.2.outcome) :: turns fed.1 rest

/-- The channels that are not refused. -/
def accepted (turns : List (Channel × Except Failure Unit)) : List Channel :=
  (turns.filter fun e => e.2.toBool).map (·.1)

/-- The problem a turn ends with. -/
def turnProblem? (turn : Channel × Except Failure Unit) : Option LayerProblem :=
  match turn.2 with
  | .error (.problem (.layer p)) => some p
  | _ => none

theorem turns_cons (r : ScaleRegistry) (c : Channel) (rest : List Channel) :
    turns table mapping layer r (c :: rest) = (c, (r.accumulate c table mapping layer).2.outcome) ::
      turns table mapping layer (r.accumulate c table mapping layer).1 rest := rfl

variable {table mapping layer}

section Cons

variable {r : ScaleRegistry} {c : Channel}

/-- A channel that is fed or refused is followed by the others. -/
theorem accumulateAll_cons_next (rest : List Channel)
    (ho : (r.accumulate c table mapping layer).2.outcome = .ok () ∨
      ∃ p, (r.accumulate c table mapping layer).2.outcome = .error (.problem (.layer p))) :
    let others := accumulateAll table mapping layer (r.accumulate c table mapping layer).1 rest
    (accumulateAll table mapping layer r (c :: rest)).1 = others.1 ∧
      (accumulateAll table mapping layer r (c :: rest)).2.outcome = others.2.outcome.map
        ((turnProblem? (c, (r.accumulate c table mapping layer).2.outcome)).toList ++ ·) := by
  intro others
  conv_lhs => unfold accumulateAll
  conv => enter [2, 1]; unfold accumulateAll
  -- a call that succeeded or was refused is followed by the next one
  rcases ho with ho | ⟨p, ho⟩ <;>
  · dsimp only
    rw [ho]
    exact ⟨rfl, rfl⟩

/-- A column that cannot be read keeps the others from being fed. -/
theorem accumulateAll_cons_ended (rest : List Channel) {f : Fault}
    (ho : (r.accumulate c table mapping layer).2.outcome = .error (.fault f)) :
    (accumulateAll table mapping layer r (c :: rest)).1 =
        (r.accumulate c table mapping layer).1 ∧
      (accumulateAll table mapping layer r (c :: rest)).2.outcome = .error (.fault f) := by
  unfold accumulateAll
  dsimp only
  rw [ho]
  refine ⟨rfl, ?_⟩
  unfold Logged.discard
  rw [ho]
  rfl

end Cons

/-- While the scales are not frozen and every column can be read, feeding channels is feeding those
that are not refused, and gives a problem for each of the others. -/
theorem accumulateAll_of_readable {r : ScaleRegistry} {channels : List Channel}
    (hr : r.frozen = none)
    (hread : ∀ e ∈ turns table mapping layer r channels, ∀ f, e.2 ≠ .error (.fault f)) :
    (accumulateAll table mapping layer r channels).1 =
        accumulateEach table mapping layer r (accepted (turns table mapping layer r channels)) ∧
      (accumulateAll table mapping layer r channels).2.outcome =
        .ok ((turns table mapping layer r channels).filterMap turnProblem?) := by
  induction channels generalizing r with
  | nil => exact ⟨rfl, rfl⟩
  | cons c rest ih =>
    have hcall := fed_accumulate r c table mapping layer
    obtain ⟨hregistry, houtcome⟩ := ih (hcall.frozen_eq.trans hr)
      fun e he => hread e (List.mem_cons_of_mem _ he)
    -- a column that can be read is fed or refused, so the other channels have their turn
    have hgoes : (r.accumulate c table mapping layer).2.outcome = .ok () ∨
        ∃ p, (r.accumulate c table mapping layer).2.outcome = .error (.problem (.layer p)) := by
      rcases hcall.outcome_of_thawed hr with ho | ho | ⟨f, ho⟩
      · exact Or.inl ho
      · exact Or.inr ho
      · exact absurd ho (hread _ List.mem_cons_self f)
    obtain ⟨hregistry', houtcome'⟩ := accumulateAll_cons_next rest hgoes
    rw [hregistry', houtcome', hregistry, houtcome]
    rw [turns_cons]
    rcases hgoes with ho | ⟨p, ho⟩
    · -- the channel is fed, and the others after it
      rw [ho]
      exact ⟨rfl, rfl⟩
    · -- the channel is refused, which has changed nothing
      rw [ho, hcall.eq_of_refused ho fun f => by simp]
      exact ⟨rfl, rfl⟩

/-- A column that cannot be read ends the feeding when it is its turn: the channels before it have
been fed, and its own as far as it got. -/
theorem accumulateAll_of_unreadable {r : ScaleRegistry} {before after : List Channel} {c : Channel}
    (hr : r.frozen = none)
    (hread : ∀ e ∈ turns table mapping layer r before, ∀ f, e.2 ≠ .error (.fault f)) {f : Fault}
    (hf : ((accumulateEach table mapping layer r before).accumulate c table mapping
      layer).2.outcome = .error (.fault f)) :
    (accumulateAll table mapping layer r (before ++ c :: after)).1 =
        accumulateEach table mapping layer r (before ++ [c]) ∧
      (accumulateAll table mapping layer r (before ++ c :: after)).2.outcome =
        .error (.fault f) := by
  induction before generalizing r with
  | nil => exact accumulateAll_cons_ended after hf
  | cons d rest ih =>
    have hcall := fed_accumulate r d table mapping layer
    obtain ⟨hregistry, houtcome⟩ := ih (hcall.frozen_eq.trans hr)
      (fun e he => hread e (List.mem_cons_of_mem _ he)) hf
    -- a thawed registry takes the column or refuses it, and the feeding goes on after both
    have hgoes : (r.accumulate d table mapping layer).2.outcome = .ok () ∨
        ∃ p, (r.accumulate d table mapping layer).2.outcome = .error (.problem (.layer p)) := by
      rcases hcall.outcome_of_thawed hr with ho | ho | ⟨f', ho⟩
      · exact Or.inl ho
      · exact Or.inr ho
      · exact absurd ho (hread _ List.mem_cons_self f')
    obtain ⟨hregistry', houtcome'⟩ := accumulateAll_cons_next (rest ++ c :: after) hgoes
    rw [List.cons_append, hregistry', houtcome', hregistry, houtcome]
    exact ⟨rfl, rfl⟩

end Turns

/-! ### After any run of calls -/

/-- The channels that are refused. -/
def refused (turns : List (Channel × Except Failure Unit)) : List Channel :=
  (turns.filter fun e => !e.2.toBool).map (·.1)

/-- There is a problem for every channel that is refused, in turn. -/
theorem channels_of_problems {table : Table} {mapping : Mapping} {layer : Option Int}
    {r : ScaleRegistry} {channels : List Channel} (hr : r.frozen = none)
    (hread : ∀ e ∈ turns table mapping layer r channels, ∀ f, e.2 ≠ .error (.fault f)) :
    ((turns table mapping layer r channels).filterMap turnProblem?).map (·.channel) =
      (refused (turns table mapping layer r channels)).map fun c => some c.name := by
  induction channels generalizing r with
  | nil => rfl
  | cons c rest ih =>
    have hcall := fed_accumulate r c table mapping layer
    have hrest := ih (hcall.frozen_eq.trans hr) fun e he => hread e (List.mem_cons_of_mem _ he)
    unfold refused at hrest ⊢
    rw [turns_cons]
    -- a call adds nothing, adds its own channel, or ends in a fault, which is ruled out
    rcases hcall.outcome_of_thawed hr with ho | ⟨p, ho⟩ | ⟨f, ho⟩
    · rw [ho]
      exact hrest
    · rw [ho]
      exact congrArg₂ List.cons (hcall.problem_names ho).1 hrest
    · exact absurd ho (hread _ List.mem_cons_self f)

/-- What a call on a layer does: the calls on its channels, in channel order. -/
structure FedInTurn (r : ScaleRegistry) (table : Table) (mapping : Mapping) (layer : Option Int)
    (channels : List Channel) : Prop where
  /-- If every column can be read, the channels are fed that are not refused, and each of the others
  gives its problem. -/
  readable : r.frozen = none →
    (∀ e ∈ turns table mapping layer r channels, ∀ f, e.2 ≠ .error (.fault f)) →
    (r.accumulateLayer table mapping layer).1 =
        accumulateEach table mapping layer r (accepted (turns table mapping layer r channels)) ∧
      ∃ problems, (r.accumulateLayer table mapping layer).2.outcome = .ok problems ∧
        problems = (turns table mapping layer r channels).filterMap turnProblem? ∧
        problems.map (·.channel) =
          (refused (turns table mapping layer r channels)).map fun c => some c.name
  /-- The first column that cannot be read is the last one to be fed, as far as it gets. -/
  unreadable : r.frozen = none → ∀ before c after f, channels = before ++ c :: after →
    (∀ e ∈ turns table mapping layer r before, ∀ f, e.2 ≠ .error (.fault f)) →
    ((accumulateEach table mapping layer r before).accumulate c table mapping layer).2.outcome =
        .error (.fault f) →
    (r.accumulateLayer table mapping layer).1 =
        accumulateEach table mapping layer r (before ++ [c]) ∧
      (r.accumulateLayer table mapping layer).2.outcome = .error (.fault f)
  /-- Frozen scales are fed nothing: the call is refused as a call on a channel is. -/
  frozen : r.frozen.isSome = true →
    (r.accumulateLayer table mapping layer).1 = r ∧
      (r.accumulateLayer table mapping layer).2.outcome =
        if channels = [] then .ok [] else .error .scalesFrozen

theorem fedInTurn (r : ScaleRegistry) (table : Table) (mapping : Mapping) (layer : Option Int) :
    FedInTurn r table mapping layer (mapping.columns.map (·.1)) where
  readable hr hread := by
    obtain ⟨hregistry, houtcome⟩ := accumulateAll_of_readable hr hread
    exact ⟨hregistry, _, houtcome, rfl, channels_of_problems hr hread⟩
  unreadable hr before c after f hchannels hread hf := by
    unfold accumulateLayer
    rw [hchannels]
    exact accumulateAll_of_unreadable hr hread hf
  frozen hr := accumulateLayer_of_frozen hr table mapping layer

/-- **Calls extend the scales, and freezing ends that.** After any run of calls on a registry
without scales, a call on a channel that is refused leaves the registry as it is. A call on a layer
is the calls on those of its channels that have a column, in channel order, and gives a problem for
each that is refused. Whatever is called later, every scale grows from what it is and is in order.
Once the scales are frozen, no call changes them, and every freeze gives the same scales. -/
theorem calls_extend_scales (calls : List Call) :
    let r := run .empty calls
    (∀ channel table mapping layer e,
        (r.accumulate channel table mapping layer).2.outcome = .error e → (∀ f, e ≠ .fault f) →
        (r.accumulate channel table mapping layer).1 = r) ∧
      (∀ table mapping layer, FedInTurn r table mapping layer
        (Channel.all.filter fun c => (mapping.column? c).isSome)) ∧
      (∀ later, r.Grows (r.run later) ∧ (r.run later).Ordered) ∧
      r.freeze.1.states = r.states ∧
      ∀ later, r.freeze.1.run later = r.freeze.1 ∧
        (r.freeze.1.run later).freeze.2 = r.freeze.2 := by
  intro r
  have hordered : r.Ordered := Ordered.empty.run calls
  have hfrozen : r.freeze.1.frozen = some r.freeze.2 := r.frozen_freeze
  refine ⟨fun c table mapping layer e ho he => ?_, fun table mapping layer => ?_,
    fun later => ⟨r.grows_run later, hordered.run later⟩, r.states_freeze, fun later => ?_⟩
  -- each conjunct is a property of one call, carried through the runs by the lemmas above
  · exact (fed_accumulate r c table mapping layer).eq_of_refused ho he
  · rw [← mapping.columns_map_fst]
    exact r.fedInTurn table mapping layer
  · rw [run_of_frozen (by rw [hfrozen]; rfl) later, freeze_of_frozen hfrozen]
    exact ⟨rfl, rfl⟩

/-- A call on a layer does not always give its problems back: once the scales are frozen, it is
refused as a whole. -/
theorem layer_call_ends_when_frozen :
    ¬ ∀ (calls : List Call) (table : Table) (mapping : Mapping) (layer : Option Int),
      ∃ problems, ((run .empty calls).accumulateLayer table mapping layer).2.outcome =
        .ok problems := by
  intro h
  obtain ⟨problems, ho⟩ :=
    h [.freeze] listTable (Mapping.empty.set .color (.column "g")) (some 0)
  rw [(accumulateLayer_of_frozen (by decide) _ _ _).2, if_neg (by decide)] at ho
  exact nomatch ho

end ScaleRegistry

end PlotGrammar
