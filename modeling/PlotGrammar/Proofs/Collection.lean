import PlotGrammar.Proofs.Domain
import PlotGrammar.Proofs.Outcome
import PlotGrammar.Scale.Registry

/-!
# What a registry has collected

A registry takes one call after the other, and some of the calls fail. The scales it freezes are
those of the calls that did not fail, each computed in one piece (`frozen_scales_summarize`).

`ScaleRegistry.Fed` says once what a call on a channel can do; `ScaleRegistry.history` lists the
calls on channels that a run makes, each with how it ended. The proof is one invariant along a run,
`ScaleRegistry.Reflects`: the scale of a channel is what the readings of its calls have made of it,
and all of these are of its kind.

A call that meets a problem of the description changes nothing. A column may also be one that
nothing can read, for its cells are no keys or its label is no text. Nobody takes back what such a
call has done, so it counts as far as it got: it fixes the kind of a scale, and the cells it read
before stay.
-/

namespace PlotGrammar

namespace ScaleRegistry

/-! ### Reading columns -/

/-- The cells of a column of a table that a scale of a kind can use. -/
def columnCells (table : Table) (kind : ColumnKind) (name : String) :
    Except Failure (List Cell) := do
  let column ← table.series name
  (ScaleState.usable kind column).mapError .fault

/-- The cells of some columns, one column after the other up to the first that cannot be read, and
whether all of them could be. -/
def readAll (table : Table) (kind : ColumnKind) : List String → List Cell × Except Failure Unit
  | [] => ([], .ok ())
  | name :: rest =>
    match columnCells table kind name with
    | .error e => ([], .error e)
    | .ok cells => (cells ++ (readAll table kind rest).1, (readAll table kind rest).2)

/-- Extending a scale by columns is reading them and extending it by the cells. -/
theorem extendBy_eq (table : Table) (s : ScaleState) (names : List String) :
    extendBy table s names =
      (s.extend (readAll table s.kind names).1, (readAll table s.kind names).2) := by
  -- the scale keeps its kind while it is extended, so all columns are read for the same one
  induction names generalizing s with
  | nil => simp [extendBy, readAll]
  | cons name rest ih =>
    unfold extendBy readAll columnCells
    cases hseries : table.series name with
    | error e => simp [bind, Except.bind]
    | ok column =>
      simp only [bind, Except.bind]
      cases husable : ScaleState.usable s.kind column with
      | error f => simp [Except.mapError]
      | ok cells =>
        simp only [Except.mapError]
        rw [ih, ScaleState.kind_extend, ScaleState.extend_append]

theorem columnCells_eq_ok {table : Table} {kind : ColumnKind} {name : String} {cells : List Cell} :
    columnCells table kind name = .ok cells ↔
      ∃ column, table.column? name = some column ∧ ScaleState.usable kind column = .ok cells := by
  unfold columnCells Table.series
  cases table.column? name with
  | none => exact ⟨fun h => (nomatch h), fun ⟨_, h, _⟩ => (nomatch h)⟩
  | some column =>
    constructor
    · intro h
      exact ⟨column, rfl, mapError_eq_ok.1 h⟩
    · rintro ⟨column', hcolumn, h⟩
      obtain rfl : column = column' := Option.some.inj hcolumn
      exact mapError_eq_ok.2 h

/-- What keeps a column from being read is no problem of a description. -/
theorem columnCells_error {table : Table} {kind : ColumnKind} {name : String} {e : Failure}
    (h : columnCells table kind name = .error e) : ∃ f, e = .fault f := by
  unfold columnCells Table.series at h
  cases hcol : table.column? name with
  | none =>
    rw [hcol] at h
    exact ⟨.missingKey, (Except.error.inj h).symm⟩
  | some column =>
    rw [hcol] at h
    simp only [bind, Except.bind] at h
    cases husable : ScaleState.usable kind column with
    | error f =>
      rw [husable] at h
      exact ⟨f, (Except.error.inj h).symm⟩
    | ok cells =>
      rw [husable] at h
      simp [Except.mapError] at h

theorem readAll_outcome (table : Table) (kind : ColumnKind) (names : List String) :
    (readAll table kind names).2 = .ok () ∨
      ∃ f, (readAll table kind names).2 = .error (.fault f) := by
  induction names with
  | nil => exact Or.inl rfl
  | cons name rest ih =>
    unfold readAll
    cases hcells : columnCells table kind name with
    | error e =>
      obtain ⟨f, rfl⟩ := columnCells_error hcells
      exact Or.inr ⟨f, rfl⟩
    | ok cells => exact ih

/-- Columns that can all be read are read whole, one after the other. -/
theorem readAll_of_ok {table : Table} {kind : ColumnKind} {names : List String}
    (h : (readAll table kind names).2 = .ok ()) :
    ∃ columns, names.mapM (columnCells table kind) = .ok columns ∧
      (readAll table kind names).1 = columns.flatten := by
  -- what has been read before the first failure is kept, so both lists grow at their front
  induction names with
  | nil => exact ⟨[], rfl, rfl⟩
  | cons name rest ih =>
    unfold readAll at h ⊢
    rw [List.mapM_cons]
    cases hcells : columnCells table kind name with
    | error e =>
      rw [hcells] at h
      simp at h
    | ok cells =>
      rw [hcells] at h
      obtain ⟨columns, hmap, hread⟩ := ih h
      refine ⟨cells :: columns, ?_, ?_⟩
      · rw [hmap]
        rfl
      · simp only [List.flatten_cons]
        rw [hread]

/-! ### One call on a channel -/

section Accumulate

variable (r : ScaleRegistry) (channel : Channel) (table : Table) (mapping : Mapping)
  (layer : Option Int)

/-- Everything a call on a channel can do: the registry after it, and how it ends. -/
inductive Fed : ScaleRegistry → Except Failure Unit → Prop
  /-- The scales are frozen. -/
  | frozen (h : r.frozen.isSome = true) : Fed r (.error .scalesFrozen)
  /-- The channel has no column. -/
  | unbound (h : r.frozen = none) (hc : mapping.column? channel = none) : Fed r (.ok ())
  /-- The table has no such column. -/
  | absent (column : String) (h : r.frozen = none) (hc : mapping.column? channel = some column)
      (hk : table.kind? column = none) :
      Fed r (.error (.layer (.referenceAbsent channel column "data") layer (some channel.name)))
  /-- The scale has another kind. -/
  | mismatch (column : String) (kind : ColumnKind) (s : ScaleState) (h : r.frozen = none)
      (hc : mapping.column? channel = some column) (hk : table.kind? column = some kind)
      (hs : r.states channel.scaleChannel = some s) (hne : s.kind ≠ kind) :
      Fed r (.error (.layer (.scaleKind channel kind column s.kind) layer (some channel.name)))
  /-- The columns that feed the scale are read. -/
  | read (column : String) (kind : ColumnKind) (h : r.frozen = none)
      (hc : mapping.column? channel = some column) (hk : table.kind? column = some kind)
      (hs : ∀ s, r.states channel.scaleChannel = some s → s.kind = kind) :
      Fed (r.set channel.scaleChannel
          (((r.states channel.scaleChannel).getD (.empty kind)).extend
            (readAll table kind (feeding table column)).1))
        (readAll table kind (feeding table column)).2

/-- A call does one of these things. -/
theorem fed_accumulate : Fed r channel table mapping layer
    (r.accumulate channel table mapping layer).1
    (r.accumulate channel table mapping layer).2.outcome := by
  unfold accumulate
  by_cases hf : r.frozen.isSome = true
  · rw [if_pos hf]
    exact .frozen hf
  · rw [if_neg hf]
    have hn : r.frozen = none := by simpa using hf
    -- an open scale is fed in one of five ways, told apart by what the look-ups find
    cases hc : mapping.column? channel with
    | none => exact .unbound hn hc
    | some column =>
      cases hk : table.kind? column with
      | none =>
        simp only [hk]
        exact .absent column hn hc hk
      | some kind =>
        have hread : _ → Fed r channel table mapping layer _ _ := .read column kind hn hc hk
        cases hs : r.states channel.scaleChannel with
        | none =>
          rw [hs] at hread
          simp only [extendBy_eq, hk, hs]
          exact hread (fun s h => absurd h (by simp))
        | some s =>
          -- a scale that exists takes the column only if the kinds agree
          by_cases hsk : s.kind = kind
          · rw [hs] at hread
            simp only [hk, hs, extendBy_eq, hsk]
            exact hread (fun s' h => by rw [← Option.some.inj h, hsk])
          · simp only [hk, hs, if_neg hsk]
            exact .mismatch column kind s hn hc hk hs hsk

end Accumulate

/-! ### What calls give to a scale -/

/-- What a scale reads when a channel of a mapping is bound to a column of a table. -/
def offer? (table : Table) (mapping : Mapping) (channel : Channel) : Option Reading :=
  (mapping.column? channel).bind fun column =>
    (table.kind? column).map fun kind => ⟨kind, (readAll table kind (feeding table column)).1⟩

theorem offer?_eq {table : Table} {mapping : Mapping} {channel : Channel} {column : String}
    {kind : ColumnKind} (hc : mapping.column? channel = some column)
    (hk : table.kind? column = some kind) :
    offer? table mapping channel = some ⟨kind, (readAll table kind (feeding table column)).1⟩ := by
  unfold offer?
  rw [hc, Option.bind_some, hk, Option.map_some]

/-- A call on a channel, with how it ended. -/
structure Attempt where
  channel : Channel
  table : Table
  mapping : Mapping
  outcome : Except Failure Unit

namespace Attempt

/-- Whether a scale keeps what the call gave to it: all of it, or what was read before a column that
cannot be read. -/
def counts (a : Attempt) : Bool :=
  match a.outcome with
  | .ok () | .error (.fault _) => true
  | .error _ => false

/-- What the call gave to the scale of its channel. -/
def reading? (a : Attempt) : Option Reading :=
  if a.counts then offer? a.table a.mapping a.channel else none

/-- A reading is of the kind of its column. -/
theorem kind_of_reading {a : Attempt} {x : Reading} {column : String} (h : a.reading? = some x)
    (hc : a.mapping.column? a.channel = some column) : a.table.kind? column = some x.kind := by
  unfold reading? at h
  split at h
  · unfold offer? at h
    rw [hc, Option.bind_some] at h
    obtain ⟨kind, hk, rfl⟩ := Option.map_eq_some_iff.1 h
    exact hk
  · exact nomatch h

/-- The problem of the layer that the call met, if it met one. -/
def problem? (a : Attempt) : Option LayerProblem :=
  match a.outcome with
  | .error (.problem (.layer p)) => some p
  | _ => none

end Attempt

/-- What some calls gave to the scale of a channel, in their order. -/
def readingsFor (target : Channel) (attempts : List Attempt) : List Reading :=
  attempts.filterMap fun a => if a.channel.scaleChannel = target then a.reading? else none

theorem readingsFor_append (target : Channel) (as bs : List Attempt) :
    readingsFor target (as ++ bs) = readingsFor target as ++ readingsFor target bs :=
  List.filterMap_append

theorem readingsFor_snoc (target : Channel) (as : List Attempt) (a : Attempt) :
    readingsFor target (as ++ [a]) = readingsFor target as ++
      (if a.channel.scaleChannel = target then a.reading? else none).toList := by
  rw [readingsFor_append]
  rfl

theorem mem_readingsFor {target : Channel} {attempts : List Attempt} {x : Reading} :
    x ∈ readingsFor target attempts ↔
      ∃ a ∈ attempts, a.channel.scaleChannel = target ∧ a.reading? = some x := by
  unfold readingsFor
  rw [List.mem_filterMap]
  refine exists_congr fun a => and_congr_right fun _ => ?_
  split
  · next h => exact ⟨fun hx => ⟨h, hx⟩, fun hx => hx.2⟩
  · next h => exact ⟨fun hx => absurd hx (by simp), fun hx => absurd hx.1 h⟩

/-! ### The invariant of a run -/

theorem set_states (r : ScaleRegistry) (c d : Channel) (s : ScaleState) :
    (r.set c s).states d = if d = c then some s else r.states d := rfl

theorem set_frozen (r : ScaleRegistry) (c : Channel) (s : ScaleState) :
    (r.set c s).frozen = r.frozen := rfl

/-- Why a call ended as it did, in view of what all calls gave to the scales. -/
structure Attempt.Explained (attempts : List Attempt) (a : Attempt) : Prop where
  /-- A column that was accepted has been read whole. -/
  accepted : a.outcome = .ok () → ∀ column, a.mapping.column? a.channel = some column →
    ∃ kind, a.table.kind? column = some kind ∧
      (readAll a.table kind (feeding a.table column)).2 = .ok ()
  /-- A column that was refused is not in the table, or its scale has read another kind. -/
  refused : ∀ p, a.problem? = some p → ∃ column, a.mapping.column? a.channel = some column ∧
    ∀ kind, a.table.kind? column = some kind →
      ∃ x ∈ readingsFor a.channel.scaleChannel attempts, x.kind ≠ kind

theorem Attempt.Explained.append {attempts : List Attempt} {a : Attempt}
    (h : a.Explained attempts) (more : List Attempt) : a.Explained (attempts ++ more) where
  accepted := h.accepted
  refused := by
    intro p hp
    obtain ⟨column, hc, hkind⟩ := h.refused p hp
    refine ⟨column, hc, fun kind hk => ?_⟩
    obtain ⟨x, hx, hne⟩ := hkind kind hk
    refine ⟨x, ?_, hne⟩
    rw [readingsFor_append]
    exact List.mem_append_left _ hx

/-- The scales of a registry are what some calls have made of them. -/
structure Reflects (r : ScaleRegistry) (attempts : List Attempt) : Prop where
  /-- A scale has grown by the readings of its channel. -/
  states : ∀ c, r.states c = ScaleState.grow none (readingsFor c attempts)
  /-- All of these are of its kind. -/
  kinds : ∀ c s, r.states c = some s → ∀ x ∈ readingsFor c attempts, x.kind = s.kind
  /-- Frozen scales are the scales as they stand. -/
  frozen : ∀ scales, r.frozen = some scales → scales = r.snapshot
  /-- Every call ended as it had to. -/
  explained : ∀ a ∈ attempts, a.Explained attempts

theorem Reflects.empty : Reflects .empty [] where
  states _ := rfl
  kinds _ _ h := absurd h (by simp [ScaleRegistry.empty])
  frozen _ h := absurd h (by simp [ScaleRegistry.empty])
  explained _ h := absurd h List.not_mem_nil

section Step

variable {r r' : ScaleRegistry} {channel : Channel} {table : Table} {mapping : Mapping}
  {layer : Option Int} {outcome : Except Failure Unit}

/-- A call never freezes the scales, nor does it thaw them. -/
theorem Fed.frozen_eq (h : Fed r channel table mapping layer r' outcome) :
    r'.frozen = r.frozen := by
  cases h <;> rfl

/-- While the scales are not frozen, a call succeeds, meets a problem of the layer, or ends with a
fault. -/
theorem Fed.outcome_of_thawed (h : Fed r channel table mapping layer r' outcome)
    (hr : r.frozen = none) :
    outcome = .ok () ∨ (∃ p, outcome = .error (.problem (.layer p))) ∨
      ∃ f, outcome = .error (.fault f) := by
  cases h with
  | frozen hf =>
    rw [hr] at hf
    exact nomatch hf
  | unbound => exact Or.inl rfl
  | absent | mismatch => exact Or.inr (Or.inl ⟨_, rfl⟩)
  | read =>
    rcases readAll_outcome table _ _ with ho | ⟨f, ho⟩
    · exact Or.inl ho
    · exact Or.inr (Or.inr ⟨f, ho⟩)

/-- A call either gives nothing and leaves the registry as it is, or it gives a reading of the kind
of its scale, which takes it in. -/
theorem Fed.effect (h : Fed r channel table mapping layer r' outcome) :
    ((Attempt.mk channel table mapping outcome).reading? = none ∧ r' = r) ∨
      ∃ x, (Attempt.mk channel table mapping outcome).reading? = some x ∧ r.frozen = none ∧
        (∀ s, r.states channel.scaleChannel = some s → s.kind = x.kind) ∧
        r' = r.set channel.scaleChannel
          (((r.states channel.scaleChannel).getD (.empty x.kind)).extend x.cells) := by
  cases h with
  | frozen | absent | mismatch => exact Or.inl ⟨rfl, rfl⟩
  | unbound _ hc =>
    refine Or.inl ⟨?_, rfl⟩
    unfold Attempt.reading? offer?
    rw [hc, Option.bind_none, ite_self]
  | read column kind hn hc hk hs =>
    refine Or.inr ⟨⟨kind, (readAll table kind (feeding table column)).1⟩, ?_, hn, hs, rfl⟩
    -- it counts whether all columns could be read or a fault stopped the reading
    unfold Attempt.reading?
    rw [offer?_eq hc hk, if_pos]
    rcases readAll_outcome table kind (feeding table column) with ho | ⟨f, ho⟩
    · rw [ho]
      rfl
    · rw [ho]
      rfl

/-- A call that ends with a problem of the layer, or comes too late, changes nothing. -/
theorem Fed.eq_of_not_counts (h : Fed r channel table mapping layer r' outcome)
    (hc : (Attempt.mk channel table mapping outcome).counts = false) : r' = r := by
  rcases h.effect with ⟨-, hr⟩ | ⟨x, hx, -⟩
  · exact hr
  · unfold Attempt.reading? at hx
    rw [hc] at hx
    exact absurd hx (by simp)

/-- What has been called before explains how a call ends. -/
theorem Fed.explained {attempts : List Attempt}
    (hfed : Fed r channel table mapping layer r' outcome) (h : Reflects r attempts) :
    (Attempt.mk channel table mapping outcome).Explained attempts := by
  cases hfed with
  | frozen => exact ⟨fun ho => by simp at ho, fun p hp => absurd hp (by simp [Attempt.problem?])⟩
  | unbound _ hc =>
    refine ⟨fun _ column hcol => ?_, fun p hp => absurd hp (by simp [Attempt.problem?])⟩
    dsimp only at hcol
    rw [hc] at hcol
    exact absurd hcol (by simp)
  | absent column _ hc hk =>
    refine ⟨fun ho => by simp at ho, fun p _ => ⟨column, hc, fun kind hkind => ?_⟩⟩
    dsimp only at hkind
    rw [hk] at hkind
    exact absurd hkind (by simp)
  | mismatch column kind s _ hc hk hs hne =>
    -- refused, and the reason is an earlier reading
    refine ⟨fun ho => by simp at ho, fun p _ => ⟨column, hc, fun kind' hkind => ?_⟩⟩
    dsimp only at hkind ⊢
    obtain rfl : kind = kind' := Option.some.inj (hk.symm.trans hkind)
    -- the scale exists, so something has fed it, and that was of its kind
    obtain ⟨x, hx⟩ : ∃ x, x ∈ readingsFor channel.scaleChannel attempts := by
      refine List.exists_mem_of_ne_nil _ fun hnil => ?_
      rw [h.states, hnil, ScaleState.grow_nil] at hs
      exact absurd hs (by simp)
    exact ⟨x, hx, by rw [h.kinds _ s hs x hx]; exact hne⟩
  | read column kind _ hc hk =>
    refine ⟨fun ho column' hcol => ?_, fun p hp => ?_⟩
    · dsimp only at hcol ho ⊢
      obtain rfl : column = column' := Option.some.inj (hc.symm.trans hcol)
      exact ⟨kind, hk, ho⟩
    · unfold Attempt.problem? at hp
      dsimp only at hp
      -- what went wrong while reading is a fault, and a fault is no problem of the layer
      rcases readAll_outcome table kind (feeding table column) with ho | ⟨f, ho⟩
      · rw [ho] at hp
        exact absurd hp (by simp)
      · rw [ho] at hp
        exact absurd hp (by simp)

/-- What one call does to the scales is what its reading makes of them. -/
theorem Reflects.snoc {attempts : List Attempt} (h : Reflects r attempts)
    (hfed : Fed r channel table mapping layer r' outcome) :
    Reflects r' (attempts ++ [⟨channel, table, mapping, outcome⟩]) := by
  have hexplained : ∀ a ∈ attempts ++ [⟨channel, table, mapping, outcome⟩],
      a.Explained (attempts ++ [⟨channel, table, mapping, outcome⟩]) := by
    intro a ha
    rcases List.mem_append.1 ha with ha | ha
    · exact (h.explained a ha).append _
    · rw [List.mem_singleton.1 ha]
      exact (hfed.explained h).append _
  rcases hfed.effect with ⟨hnone, rfl⟩ | ⟨x, hx, hthawed, hkind, rfl⟩
  · -- the call gives nothing, so neither side changes
    have hsame : ∀ c, readingsFor c (attempts ++ [⟨channel, table, mapping, outcome⟩]) =
        readingsFor c attempts := by
      intro c
      rw [readingsFor_snoc, hnone, ite_self, Option.toList_none, List.append_nil]
    refine ⟨fun c => ?_, fun c s hs y hy => ?_, h.frozen, hexplained⟩
    · rw [hsame]
      exact h.states c
    · rw [hsame] at hy
      exact h.kinds c s hs y hy
  · refine ⟨fun c => ?_, fun c s hs y hy => ?_, fun scales hf => ?_, hexplained⟩
    · -- the scale of the channel grows by the reading, the others by nothing
      rw [readingsFor_snoc, hx, ScaleState.grow_append, ← h.states c, set_states]
      dsimp only
      by_cases hc : c = channel.scaleChannel
      · rw [if_pos hc, if_pos hc.symm, hc]
        rfl
      · rw [if_neg hc, if_neg (Ne.symm hc)]
        rfl
    · rw [readingsFor_snoc, hx, List.mem_append] at hy
      rw [set_states] at hs
      dsimp only at hy
      by_cases hc : c = channel.scaleChannel
      · rw [if_pos hc] at hs
        obtain rfl := Option.some.inj hs
        rw [ScaleState.kind_extend]
        rw [if_pos hc.symm, hc] at hy
        cases hst : r.states channel.scaleChannel with
        | none =>
          -- the first reading of a scale fixes its kind
          rw [h.states, ScaleState.grow_none_eq_none] at hst
          rw [hst] at hy
          simp only [List.not_mem_nil, false_or, Option.toList_some, List.mem_singleton] at hy
          rw [hy]
          rfl
        | some s =>
          -- a later one had to be of the same kind
          rcases hy with hy | hy
          · exact h.kinds _ s hst y hy
          · rw [Option.toList_some, List.mem_singleton] at hy
            rw [hy]
            exact (hkind s hst).symm
      · rw [if_neg hc] at hs
        rw [if_neg (Ne.symm hc), Option.toList_none] at hy
        rcases hy with hy | hy
        · exact h.kinds c s hs y hy
        · exact absurd hy List.not_mem_nil
    · -- a call that reads finds the scales not frozen
      rw [set_frozen, hthawed] at hf
      exact absurd hf (by simp)

end Step

/-! ### Feeding several channels -/

/-- The calls on channels that feeding some channels comes to. What is no problem of the layer ends
them. -/
def attemptsAll (table : Table) (mapping : Mapping) (layer : Option Int) :
    ScaleRegistry → List Channel → List Attempt
  | _, [] => []
  | r, c :: rest =>
    let fed := r.accumulate c table mapping layer
    match fed.2.outcome with
    | .ok () | .error (.problem (.layer _)) =>
      ⟨c, table, mapping, fed.2.outcome⟩ :: attemptsAll table mapping layer fed.1 rest
    | .error _ => [⟨c, table, mapping, fed.2.outcome⟩]

section Layer

variable (table : Table) (mapping : Mapping) (layer : Option Int)

/-- Everything that feeding some channels can do: the registry after it, how it ends, and the calls
that it comes to. -/
inductive FedAll : ScaleRegistry → List Channel → ScaleRegistry →
    Except Failure (List LayerProblem) → List Attempt → Prop
  /-- No channel is left. -/
  | done (r : ScaleRegistry) : FedAll r [] r (.ok []) []
  /-- A call ends with something that is no problem of the layer, and so does the feeding. -/
  | ended {r r' : ScaleRegistry} {c : Channel} {e : Failure} (rest : List Channel)
      (hcall : Fed r c table mapping layer r' (.error e)) (he : ∀ p, e ≠ .problem (.layer p)) :
      FedAll r (c :: rest) r' (.error e) [⟨c, table, mapping, .error e⟩]
  /-- A call succeeds or meets a problem, and the feeding goes on. -/
  | next {r r' r'' : ScaleRegistry} {c : Channel} {rest : List Channel}
      {outcome : Except Failure Unit} {result : Except Failure (List LayerProblem)}
      {attempts : List Attempt} (hcall : Fed r c table mapping layer r' outcome)
      (ho : outcome = .ok () ∨ ∃ p, outcome = .error (.problem (.layer p)))
      (hrest : FedAll r' rest r'' result attempts) :
      FedAll r (c :: rest) r''
        (result.map ((Attempt.mk c table mapping outcome).problem?.toList ++ ·))
        (⟨c, table, mapping, outcome⟩ :: attempts)

/-- Feeding channels does this. -/
theorem fedAll_accumulateAll (r : ScaleRegistry) (channels : List Channel) :
    FedAll table mapping layer r channels (accumulateAll table mapping layer r channels).1
      (accumulateAll table mapping layer r channels).2.outcome
      (attemptsAll table mapping layer r channels) := by
  induction channels generalizing r with
  | nil => exact .done r
  | cons c rest ih =>
    have hcall := fed_accumulate r c table mapping layer
    unfold accumulateAll attemptsAll
    generalize r.accumulate c table mapping layer = fed at hcall ⊢
    obtain ⟨r', outcome, events⟩ := fed
    -- success and a problem of the layer go on to the next channel, all else ends here
    cases outcome with
    | ok u => exact .next hcall (Or.inl rfl) (ih r')
    | error e =>
      cases e with
      | problem p =>
        cases p with
        | layer p => exact .next hcall (Or.inr ⟨p, rfl⟩) (ih r')
        | misuse m => exact .ended rest hcall fun p hp => by cases hp
      | build | scalesFrozen | fault => exact .ended rest hcall fun p hp => by cases hp

namespace FedAll

variable {table mapping layer} {r r' : ScaleRegistry} {channels : List Channel}
  {result : Except Failure (List LayerProblem)} {attempts : List Attempt}

/-- The invariant passes through the channels of a layer. -/
theorem reflects (h : FedAll table mapping layer r channels r' result attempts)
    {before : List Attempt} (hr : Reflects r before) : Reflects r' (before ++ attempts) := by
  induction h generalizing before with
  | done r =>
    rw [List.append_nil]
    exact hr
  | ended rest hcall he => exact hr.snoc hcall
  | next hcall ho hrest ih =>
    have := ih (hr.snoc hcall)
    rwa [List.append_assoc, List.singleton_append] at this

theorem frozen_eq (h : FedAll table mapping layer r channels r' result attempts) :
    r'.frozen = r.frozen := by
  induction h with
  | done => rfl
  | ended rest hcall he => exact hcall.frozen_eq
  | next hcall ho hrest ih => exact ih.trans hcall.frozen_eq

/-- All calls are made with the table and the mapping that are fed. -/
theorem mem (h : FedAll table mapping layer r channels r' result attempts) {a : Attempt}
    (ha : a ∈ attempts) : a.table = table ∧ a.mapping = mapping ∧ a.channel ∈ channels := by
  induction h with
  | done => exact absurd ha List.not_mem_nil
  | ended rest hcall he =>
    obtain rfl := List.mem_singleton.1 ha
    exact ⟨rfl, rfl, List.mem_cons_self⟩
  | next hcall ho hrest ih =>
    rcases List.mem_cons.1 ha with rfl | ha
    · exact ⟨rfl, rfl, List.mem_cons_self⟩
    · obtain ⟨ht, hm, hc⟩ := ih ha
      exact ⟨ht, hm, List.mem_cons_of_mem _ hc⟩

/-- Feeding that ends well has called every channel, and gives the problems of all calls. -/
theorem of_ok (h : FedAll table mapping layer r channels r' result attempts)
    {found : List LayerProblem} (hok : result = .ok found) :
    found = attempts.filterMap Attempt.problem? ∧ attempts.map Attempt.channel = channels ∧
      ∀ a ∈ attempts, a.problem? = none → a.outcome = .ok () := by
  induction h generalizing found with
  | done =>
    cases hok
    exact ⟨rfl, rfl, fun a ha => absurd ha List.not_mem_nil⟩
  | ended => exact nomatch hok
  | next hcall ho hrest ih =>
    obtain ⟨others, hothers, hfound⟩ := bind_eq_ok.1 hok
    obtain ⟨hproblems, hchannels, hends⟩ := ih hothers
    cases hfound
    rw [hproblems, List.map_cons, hchannels]
    refine ⟨?_, rfl, fun a ha hp => ?_⟩
    -- a call that ended well or with a problem is followed by the others
    · rcases ho with rfl | ⟨p, rfl⟩
      · rfl
      · rfl
    · rcases List.mem_cons.1 ha with rfl | ha
      · rcases ho with rfl | ⟨p, rfl⟩
        · rfl
        · exact nomatch hp
      · exact hends a ha hp

/-- While the scales are not frozen, only a fault ends a feeding. -/
theorem fault_of_error (h : FedAll table mapping layer r channels r' result attempts)
    (hr : r.frozen = none) {e : Failure} (herror : result = .error e) : ∃ f, e = .fault f := by
  induction h with
  | done => exact nomatch herror
  | ended rest hcall he =>
    cases herror
    rcases hcall.outcome_of_thawed hr with ho | ⟨p, ho⟩ | ⟨f, ho⟩
    · exact nomatch ho
    · exact absurd (Except.error.inj ho) (he p)
    · exact ⟨f, Except.error.inj ho⟩
  | next hcall ho hrest ih =>
    rcases bind_eq_error.1 herror with herror | ⟨_, _, herror⟩
    · exact ih (hcall.frozen_eq.trans hr) herror
    · exact nomatch herror

end FedAll

end Layer

/-! ### Runs -/

/-- A call on a registry: on one channel, on the channels of a layer, or to freeze the scales. -/
inductive Call where
  | channel (channel : Channel) (table : Table) (mapping : Mapping) (layer : Option Int)
  | layer (table : Table) (mapping : Mapping) (layer : Option Int)
  | freeze

/-- The registry after a call, however the call ends. -/
def after (r : ScaleRegistry) : Call → ScaleRegistry
  | .channel c table mapping layer => (r.accumulate c table mapping layer).1
  | .layer table mapping layer => (r.accumulateLayer table mapping layer).1
  | .freeze => r.freeze.1

/-- The calls on channels that a call comes to. -/
def attempts (r : ScaleRegistry) : Call → List Attempt
  | .channel c table mapping layer =>
    [⟨c, table, mapping, (r.accumulate c table mapping layer).2.outcome⟩]
  | .layer table mapping layer => attemptsAll table mapping layer r (mapping.columns.map (·.1))
  | .freeze => []

/-- The registry after some calls. -/
def run (r : ScaleRegistry) (calls : List Call) : ScaleRegistry :=
  calls.foldl after r

/-- The calls on channels that some calls come to, one after the other. -/
def history : ScaleRegistry → List Call → List Attempt
  | _, [] => []
  | r, call :: rest => r.attempts call ++ history (r.after call) rest

section Run

variable {r : ScaleRegistry} {attempts : List Attempt}

theorem Reflects.freeze (h : Reflects r attempts) : Reflects r.freeze.1 attempts := by
  unfold ScaleRegistry.freeze
  split
  · exact h
  · refine ⟨h.states, h.kinds, fun scales hf => ?_, h.explained⟩
    exact (Option.some.inj hf).symm

theorem Reflects.after (h : Reflects r attempts) (call : Call) :
    Reflects (r.after call) (attempts ++ r.attempts call) := by
  cases call with
  | channel c table mapping layer => exact h.snoc (fed_accumulate r c table mapping layer)
  | layer table mapping layer => exact (fedAll_accumulateAll table mapping layer r _).reflects h
  | freeze =>
    have := h.freeze
    rwa [← List.append_nil attempts] at this

theorem Reflects.run (h : Reflects r attempts) (calls : List Call) :
    Reflects (r.run calls) (attempts ++ r.history calls) := by
  induction calls generalizing r attempts with
  | nil =>
    unfold ScaleRegistry.history
    rw [List.append_nil]
    exact h
  | cons call rest ih =>
    have := ih (h.after call)
    rwa [List.append_assoc] at this

/-- Whether they are frozen or not, the scales that are given are the scales as they stand. -/
theorem Reflects.freeze_eq (h : Reflects r attempts) : r.freeze.2 = r.snapshot := by
  unfold ScaleRegistry.freeze
  split
  · next scales hf => exact h.frozen scales hf
  · rfl

theorem channel_freeze (channel : Channel) (s : ScaleState) :
    (s.freeze channel).channel = channel := by
  unfold ScaleState.freeze
  split <;> rfl

theorem mem_snapshot {s : Scale} (h : s ∈ r.snapshot) :
    ∃ state, r.states s.channel = some state ∧ s = state.freeze s.channel := by
  obtain ⟨c, -, hc⟩ := List.mem_filterMap.1 h
  obtain ⟨state, hs, rfl⟩ := Option.map_eq_some_iff.1 hc
  rw [channel_freeze]
  exact ⟨state, hs, rfl⟩

/-- There is a scale for every channel that something was read for, in channel order. -/
theorem Reflects.channels (h : Reflects r attempts) :
    r.snapshot.map Scale.channel =
      Channel.all.filter fun c => !(readingsFor c attempts).isEmpty := by
  -- a channel has a state when a reading has made one, by the invariant, so the lists agree channel
  -- by channel
  unfold snapshot
  induction Channel.all with
  | nil => rfl
  | cons c rest ih =>
    have hc := h.states c
    cases hs : r.states c with
    | none =>
      rw [hs, eq_comm, ScaleState.grow_none_eq_none] at hc
      rw [List.filterMap_cons_none (by rw [hs]; rfl), ih, List.filter_cons_of_neg (by simp [hc])]
    | some s =>
      have hne : readingsFor c attempts ≠ [] := by
        intro hnil
        rw [hs, hnil, ScaleState.grow_nil] at hc
        exact absurd hc (by simp)
      rw [List.filterMap_cons_some (b := s.freeze c) (by rw [hs]; rfl), List.map_cons, ih,
        channel_freeze, List.filter_cons_of_pos (by simpa using hne)]

/-- Every scale is what the readings of its channel amount to. -/
theorem Reflects.summarizes (h : Reflects r attempts) {s : Scale} (hs : s ∈ r.snapshot) :
    s.Summarizes (readingsFor s.channel attempts) := by
  obtain ⟨state, hstate, heq⟩ := mem_snapshot hs
  rw [heq, channel_freeze]
  exact ScaleState.summarizes_freeze _ _ state (by rw [← h.states, hstate]) (h.kinds _ state hstate)

/-- A call that ended well has given its column as a whole, and the edges of its bins after it. -/
theorem Reflects.reading_of_accepted (h : Reflects r attempts) {a : Attempt} (ha : a ∈ attempts)
    (ho : a.outcome = .ok ()) {column : String} (hc : a.mapping.column? a.channel = some column) :
    ∃ kind columns, a.table.kind? column = some kind ∧
      (feeding a.table column).mapM (columnCells a.table kind) = .ok columns ∧
      a.reading? = some ⟨kind, columns.flatten⟩ := by
  obtain ⟨kind, hk, hread⟩ := (h.explained a ha).accepted ho column hc
  obtain ⟨columns, hmap, hall⟩ := readAll_of_ok hread
  refine ⟨kind, columns, hk, hmap, ?_⟩
  unfold Attempt.reading?
  rw [offer?_eq hc hk, hall, if_pos]
  unfold Attempt.counts
  rw [ho]

end Run

/-- **Frozen scales are those of the calls taken together.** After any run of calls on a registry
without scales, freezing gives one scale for every channel that something was read for, in channel
order. Each is what the readings for it amount to: one kind, the levels as first seen or a least and
a greatest cell, and no domain if there is no cell. A call that ended well has read its column
whole, and after it the edges of its bins. -/
theorem frozen_scales_summarize (calls : List Call) :
    let attempts := history .empty calls
    let scales := (run .empty calls).freeze.2
    scales.map Scale.channel = (Channel.all.filter fun c => !(readingsFor c attempts).isEmpty) ∧
      (∀ s ∈ scales, s.Summarizes (readingsFor s.channel attempts)) ∧
      ∀ a ∈ attempts, a.outcome = .ok () → ∀ column, a.mapping.column? a.channel = some column →
        ∃ kind columns, a.table.kind? column = some kind ∧
          (feeding a.table column).mapM (columnCells a.table kind) = .ok columns ∧
          a.reading? = some ⟨kind, columns.flatten⟩ := by
  intro attempts scales
  have h : Reflects (run .empty calls) attempts := Reflects.empty.run calls
  have hscales : scales = (run .empty calls).snapshot := h.freeze_eq
  refine ⟨?_, fun s hs => ?_, fun a ha ho column hc => ?_⟩
  · rw [hscales]
    exact h.channels
  · rw [hscales] at hs
    exact h.summarizes hs
  · exact h.reading_of_accepted ha ho hc

/-- A table of one column of lists, which no scale can take for levels. -/
def listTable : Table where
  fields := [⟨.text "g", .discrete, ⟨.object, [.compound (.list [])]⟩⟩]
  height := 1
  computedBy := none
  uniform := by simp
  distinct := by simp

/-- A call that ends with a column it cannot read has made a scale all the same, so the scales are
not those of the calls that ended well alone. -/
theorem unreadable_column_leaves_scale :
    ¬ ∀ calls : List Call, (run .empty calls).freeze.2.map Scale.channel =
      Channel.all.filter fun c => (history .empty calls).any fun a =>
        a.outcome.toBool && decide (a.channel.scaleChannel = c) &&
          (a.mapping.column? a.channel).isSome := by
  intro h
  -- the only call fails, and there is a scale of colours all the same
  have := h [.channel .color listTable (Mapping.empty.set .color (.column "g")) none]
  exact absurd this (by decide)

end ScaleRegistry

end PlotGrammar
