import PlotGrammar.Proofs.Number.Range
import PlotGrammar.Proofs.Stat.Parameters

/-!
# Which parameters are admitted

`StatConfig.settings` looks at the parameters of a statistic one after the other. What it asks for
is said here without the reading, parameter by parameter (`StatConfig.InRange`): integers may be of
any size, doubles have to be finite, and truth values are no numbers.

Four of the parameters are compared with the doubles, and an integer from `Binary64.leastBeyond` on
has none. `StatConfig.MeetsBeyond` says that the reading comes to such an integer: those before it
are in range. `StatConfig.Refuses` gives the first parameter that is out of range where it does not.

Everything about the reading follows from what one step of it does. `StatConfig.demands` lists what
is asked for in order, `Demand.Follows` says that an operation does as such a list says, and
`StatConfig.follows_settings` goes down the list. A refusal is worded at once, and the wording may
hold an integer that cannot be written out: `StatConfig.check_outcomes` is the whole behaviour of
the check.
-/

namespace PlotGrammar

theorem Axis.ofName?_eq_some {name : String} {axis : Axis} :
    ofName? name = some axis ↔ name = axis.name := by
  constructor
  · intro h
    unfold ofName? at h
    have hname := List.find?_some h
    exact (eq_of_beq hname).symm
  · rintro rfl
    cases axis <;> rfl

namespace Value

/-- An integer from a least one on. -/
def IsCount (least : Nat) (v : Value) : Prop :=
  ∃ n : Nat, least ≤ n ∧ v = .int n

/-- An integer of any size, or a double that is neither infinite nor the non-number. -/
def IsFinite : Value → Prop
  | .int _ => True
  | .float x => Binary64.isFinite x = true
  | _ => False

/-- A finite number above zero. -/
def IsPositive : Value → Prop
  | .int i => 0 < i
  | .float x => Binary64.isFinite x = true ∧ Binary64.lt 0 x = true
  | _ => False

/-- An integer that no double is near to. -/
def IsBeyond : Value → Prop
  | .int i => Binary64.leastBeyond ≤ i.natAbs
  | _ => False

/-- A parameter that is left out, or given as is asked for. -/
def NullOr (P : Value → Prop) (v : Value) : Prop :=
  v = .null ∨ P v

end Value

namespace StatConfig

open Value

/-! ### One parameter -/

/-- A reading gives a result for what is asked for, and overflows on what no double is near to. -/
structure Reads {α : Type} (read : Value → Except Failure (Option α)) (met beyond : Value → Prop) :
    Prop where
  found : ∀ v, (∃ a, read v = .ok (some a)) ↔ met v ∧ ¬ beyond v
  fails : ∀ v e, read v = .error e ↔ e = .fault .overflow ∧ beyond v

/-- A reading that cannot fail overflows on nothing. -/
theorem Reads.of_option {α : Type} {read : Value → Option α} {met : Value → Prop}
    (h : ∀ v, (∃ a, read v = some a) ↔ met v) :
    Reads (fun v => .ok (read v)) met fun _ => False where
  found v := by
    rw [← h v, and_iff_left not_false]
    exact exists_congr fun a => ⟨Except.ok.inj, congrArg _⟩
  fails _ _ := ⟨fun h => (nomatch h), fun h => h.2.elim⟩

theorem positiveCount?_eq_some {v : Value} {n : Nat} :
    positiveCount? v = some n ↔ 0 < n ∧ v = .int n := by
  cases v with
  | int i =>
    change (if 0 < i then some i.toNat else none) = some n ↔ _
    rw [Option.ite_none_right_eq_some, Option.some.injEq, Value.int.injEq]
    omega
  | _ => exact ⟨fun h => (nomatch h), fun h => (nomatch h.2)⟩

theorem reads_bins : Reads (fun v => .ok (positiveCount? v)) (IsCount 1) fun _ => False :=
  .of_option fun _ => exists_congr fun _ => positiveCount?_eq_some

theorem reads_points :
    Reads (fun v => .ok ((positiveCount? v).filter fun n => decide (2 ≤ n))) (IsCount 2)
      fun _ => False := by
  refine .of_option fun v => exists_congr fun n => ?_
  rw [Option.filter_eq_some_iff, positiveCount?_eq_some, decide_eq_true_iff]
  constructor
  · rintro ⟨⟨-, rfl⟩, h⟩
    exact ⟨h, rfl⟩
  · rintro ⟨h, rfl⟩
    exact ⟨⟨by omega, rfl⟩, h⟩

theorem reads_axis :
    Reads (fun v => .ok (v.characters?.bind Axis.ofName?))
      (fun v => ∃ axis : Axis, v.characters? = some axis.name) fun _ => False := by
  refine .of_option fun v => exists_congr fun axis => ?_
  rw [Option.bind_eq_some_iff]
  constructor
  · rintro ⟨name, hname, haxis⟩
    rw [hname, Axis.ofName?_eq_some.1 haxis]
  · exact fun h => ⟨_, h, Axis.ofName?_eq_some.2 rfl⟩

theorem exists_finite_iff {v : Value} :
    (∃ n, finite v = .ok (some n)) ↔ v.IsFinite ∧ ¬ v.IsBeyond := by
  -- only integers can lie beyond the doubles, and only doubles can fail to be finite
  cases v with
  | int i =>
    have hbeyond : Value.IsBeyond (.int i) ↔ Binary64.ofInt? i = none :=
      Binary64.ofInt?_eq_none_iff.symm
    rw [hbeyond]
    unfold finite
    dsimp only [Number.isFinite?]
    cases Binary64.ofInt? i with
    | none => exact ⟨fun ⟨_, h⟩ => (nomatch h), fun h => absurd rfl h.2⟩
    | some x => exact ⟨fun _ => ⟨trivial, fun h => (nomatch h)⟩, fun _ => ⟨_, rfl⟩⟩
  | float x =>
    unfold finite
    dsimp only [Number.isFinite?, Value.IsFinite]
    cases Binary64.isFinite x with
    | false => exact ⟨fun ⟨_, h⟩ => (nomatch h), fun h => (nomatch h.1)⟩
    | true => exact ⟨fun _ => ⟨rfl, id⟩, fun _ => ⟨_, rfl⟩⟩
  | _ => exact ⟨fun ⟨_, h⟩ => (nomatch h), fun h => h.1.elim⟩

/-- A number that is read is the one the value stands for. -/
theorem number?_of_finite {v : Value} {n : Number} (h : finite v = .ok (some n)) :
    v.number? = some n := by
  -- of an integer or a double the number read is the value itself
  unfold finite at h
  cases v with
  | int i =>
    dsimp only at h
    split at h
    · exact Except.ok.inj h
    · exact nomatch h
    · exact nomatch h
  | float x =>
    dsimp only at h
    split at h
    · exact Except.ok.inj h
    · exact nomatch h
    · exact nomatch h
  | _ => exact nomatch h

/-- Of a finite number the sign is asked for on the number that it is read as. -/
theorem isPositive_iff {v : Value} :
    v.IsPositive ↔ v.IsFinite ∧ ∀ n, v.number? = some n → n.isAboveZero = true := by
  cases v with
  | int i =>
    refine ⟨fun h => ⟨trivial, ?_⟩, fun h => of_decide_eq_true (p := 0 < i) (h.2 _ rfl)⟩
    rintro n ⟨⟩
    exact decide_eq_true (p := 0 < i) h
  | float x =>
    refine and_congr Iff.rfl ⟨?_, fun h => h _ rfl⟩
    rintro h n ⟨⟩
    exact h
  | _ => exact ⟨fun h => h.elim, fun h => h.1.elim⟩

theorem exists_positive_iff {v : Value} :
    (∃ n, positive v = .ok (some n)) ↔ v.IsPositive ∧ ¬ v.IsBeyond := by
  rw [isPositive_iff, and_right_comm, ← exists_finite_iff]
  constructor
  -- a positive number is a finite one that is above zero
  · rintro ⟨n, h⟩
    obtain ⟨found, hfound, h⟩ := bind_eq_ok.1 h
    obtain ⟨rfl, habove⟩ := Option.filter_eq_some_iff.1 (Except.ok.inj h)
    refine ⟨⟨n, hfound⟩, fun m hm => ?_⟩
    obtain rfl : n = m := Option.some.inj ((number?_of_finite hfound).symm.trans hm)
    exact habove
  · rintro ⟨⟨n, hn⟩, habove⟩
    exact ⟨n, bind_eq_ok.2 ⟨_, hn, congrArg _ (Option.filter_eq_some_iff.2
      ⟨rfl, habove n (number?_of_finite hn)⟩)⟩⟩

theorem finite_eq_error_iff {v : Value} {e : Failure} :
    finite v = .error e ↔ e = .fault .overflow ∧ v.IsBeyond := by
  cases v with
  | int i =>
    have hbeyond : Value.IsBeyond (.int i) ↔ Binary64.ofInt? i = none :=
      Binary64.ofInt?_eq_none_iff.symm
    rw [hbeyond]
    unfold finite
    dsimp only [Number.isFinite?]
    cases Binary64.ofInt? i with
    | none => exact ⟨fun h => by cases h; exact ⟨rfl, rfl⟩, fun h => h.1 ▸ rfl⟩
    | some x => exact ⟨fun h => (nomatch h), fun h => (nomatch h.2)⟩
  | float x =>
    unfold finite
    dsimp only [Number.isFinite?, Value.IsBeyond]
    cases Binary64.isFinite x <;> exact ⟨fun h => (nomatch h), fun h => h.2.elim⟩
  | _ => exact ⟨fun h => (nomatch h), fun h => h.2.elim⟩

theorem reads_finite : Reads finite IsFinite IsBeyond :=
  ⟨fun _ => exists_finite_iff, fun _ _ => finite_eq_error_iff⟩

theorem reads_positive : Reads positive IsPositive IsBeyond where
  found _ := exists_positive_iff
  fails v e := by
    unfold positive
    rw [bind_eq_error, finite_eq_error_iff]
    exact or_iff_left fun ⟨_, _, h⟩ => nomatch h

/-! ### What is asked for -/

/-- The parameters that a statistic may have. -/
structure InRange (kit : Toolkit) (stat : StatConfig) : Prop where
  bins : NullOr (IsCount 1) stat.bins
  binWidth : NullOr IsPositive stat.binWidth
  one : stat.bins = .null ∨ stat.binWidth = .null
  boundary : NullOr IsFinite stat.boundary
  bandwidth : NullOr IsPositive stat.bandwidth
  adjust : stat.adjust.IsPositive
  points : NullOr (IsCount 2) stat.points
  aggregator : stat.kind = .summary → ∀ name, stat.aggregator.characters? = some name →
    (kit.aggregator? stat.aggregator).isSome = true
  kernel : stat.kind = .density → (kit.kernel? stat.kernel).isSome = true
  orientation : NullOr (fun v => ∃ axis : Axis, v.characters? = some axis.name) stat.orientation

/-- The reading of the parameters comes to an integer beyond all doubles: those before it are in
range. -/
def MeetsBeyond (stat : StatConfig) : Prop :=
  NullOr (IsCount 1) stat.bins ∧
    (stat.binWidth.IsBeyond ∨
      NullOr IsPositive stat.binWidth ∧ (stat.bins = .null ∨ stat.binWidth = .null) ∧
        (stat.boundary.IsBeyond ∨
          NullOr IsFinite stat.boundary ∧
            (stat.bandwidth.IsBeyond ∨
              NullOr IsPositive stat.bandwidth ∧ stat.adjust.IsBeyond)))

/-- What is asked for in one step, whether it is to be compared with the doubles and beyond all of
them, and what is reported where it is not met. -/
structure Demand where
  met : Prop
  beyond : Prop
  cause : LayerCause

namespace Demand

/-- The first demands are met, and the next one comes to an integer beyond all doubles. -/
def MeetBeyond : List Demand → Prop
  | [] => False
  | d :: rest => d.beyond ∨ d.met ∧ MeetBeyond rest

/-- The first demands are met, and the next one, which comes to no integer beyond all doubles, is
not. -/
def Refuse : List Demand → LayerCause → Prop
  | [], _ => False
  | d :: rest, cause =>
    ¬ d.beyond ∧ (¬ d.met ∧ cause = d.cause ∨ d.met ∧ Refuse rest cause)

/-- Demands that are not all met come to an integer beyond all doubles, or one is refused. -/
theorem met_or_meetBeyond_or_refuse (ds : List Demand) :
    (∀ d ∈ ds, d.met ∧ ¬ d.beyond) ∨ MeetBeyond ds ∨ ∃ cause, Refuse ds cause := by
  induction ds with
  | nil => exact Or.inl fun d hd => absurd hd List.not_mem_nil
  -- the first demand that is beyond or not met settles the outcome
  | cons d rest ih =>
    by_cases hbeyond : d.beyond
    · exact Or.inr (Or.inl (Or.inl hbeyond))
    by_cases hmet : d.met
    · rcases ih with hall | hrest | ⟨cause, hrest⟩
      · exact Or.inl (List.forall_mem_cons.2 ⟨⟨hmet, hbeyond⟩, hall⟩)
      · exact Or.inr (Or.inl (Or.inr ⟨hmet, hrest⟩))
      · exact Or.inr (Or.inr ⟨cause, hbeyond, Or.inr ⟨hmet, hrest⟩⟩)
    · exact Or.inr (Or.inr ⟨d.cause, hbeyond, Or.inl ⟨hmet, rfl⟩⟩)

/-- What is refused is not met. -/
theorem Refuse.exists_not_met {ds : List Demand} {cause : LayerCause} (h : Refuse ds cause) :
    ∃ d ∈ ds, ¬ d.met ∧ cause = d.cause := by
  induction ds with
  | nil => exact h.elim
  | cons d rest ih =>
    rcases h.2 with hfirst | ⟨-, hrest⟩
    · exact ⟨d, List.mem_cons_self, hfirst⟩
    · obtain ⟨d', hd', h'⟩ := ih hrest
      exact ⟨d', List.mem_cons_of_mem _ hd', h'⟩

/-- An operation does what a list of demands says: it has a result if all are met, and otherwise
ends with the first one that is not. -/
structure Follows (layer : Option Int) {α : Type} (x : Except Failure α) (ds : List Demand) :
    Prop where
  passes : (∀ d ∈ ds, d.met ∧ ¬ d.beyond) → ∃ a, x = .ok a
  breaks : MeetBeyond ds → x = .error (.fault .overflow)
  refuses : ∀ cause, Refuse ds cause → x = .error (.layer cause layer none)

namespace Follows

variable {layer : Option Int} {α β : Type} {x : Except Failure β} {d : Demand} {ds : List Demand}

theorem ok (b : β) : Follows layer (.ok b) [] :=
  ⟨fun _ => ⟨b, rfl⟩, fun h => h.elim, fun _ h => h.elim⟩

/-- One step: what comes after it counts if its demand is met. -/
theorem cons (hbreaks : d.beyond → x = .error (.fault .overflow))
    (hrefuses : ¬ d.beyond → ¬ d.met → x = .error (.layer d.cause layer none))
    (hrest : ¬ d.beyond → d.met → Follows layer x ds) : Follows layer x (d :: ds) where
  -- the first demand is met, or it is the one that settles the outcome
  passes h := by
    obtain ⟨⟨hmet, hbeyond⟩, hall⟩ := List.forall_mem_cons.1 h
    exact (hrest hbeyond hmet).passes hall
  breaks h := by
    by_cases hbeyond : d.beyond
    · exact hbreaks hbeyond
    · obtain ⟨hmet, h⟩ := h.resolve_left hbeyond
      exact (hrest hbeyond hmet).breaks h
  refuses cause h := by
    obtain ⟨hbeyond, ⟨hmet, rfl⟩ | ⟨hmet, h⟩⟩ := h
    · exact hrefuses hbeyond hmet
    · exact (hrest hbeyond hmet).refuses cause h

section Reading

variable {read : Value → Except Failure (Option α)} {met beyond : Value → Prop} {v : Value}
  {cause : LayerCause}

/-- A parameter that has to be given. -/
theorem read_bind {f : Option α → Except Failure β} (hread : Reads read met beyond)
    (hnone : f none = .error (.layer cause layer none))
    (hf : ∀ a, read v = .ok (some a) → Follows layer (f (some a)) ds) :
    Follows layer (read v >>= f) (⟨met v, beyond v, cause⟩ :: ds) := by
  -- a value beyond fails to be read, a value read as nothing is refused, and else the rest follows
  refine cons (fun hbeyond => ?_) (fun hbeyond hmet => ?_) fun hbeyond hmet => ?_
  · exact bind_eq_error.2 (Or.inl ((hread.fails v _).2 ⟨rfl, hbeyond⟩))
  · cases hv : read v with
    | error e => exact absurd ((hread.fails v e).1 hv).2 hbeyond
    | ok found =>
      cases found with
      | none => exact hnone
      | some a => exact absurd ((hread.found v).1 ⟨a, hv⟩).1 hmet
  · obtain ⟨a, ha⟩ := (hread.found v).2 ⟨hmet, hbeyond⟩
    have hnext := hf a ha
    rw [ha]
    exact hnext

/-- A parameter that may be left out. -/
theorem optional_bind {f : Option α → Except Failure β} (hread : Reads read met beyond)
    (hnull : ¬ beyond .null)
    (hf : ∀ a, optional v read (.layer cause layer none) = .ok a → Follows layer (f a) ds) :
    Follows layer (optional v read (.layer cause layer none) >>= f)
      (⟨NullOr met v, beyond v, cause⟩ :: ds) := by
  -- an option that is left out meets its demand
  by_cases hv : v = .null
  · subst hv
    exact cons (fun h => absurd h hnull) (fun _ h => absurd (Or.inl rfl) h) fun _ _ => hf none rfl
  · have hmet : NullOr met v ↔ met v := or_iff_right hv
    rw [hmet, optional_of_ne_null hv, bind_assoc]
    refine read_bind hread rfl fun a ha => hf (some a) ?_
    rw [optional_of_ne_null hv, ha]
    rfl

end Reading

end Follows

end Demand

/-- What is asked for, in the order in which it is looked at. -/
def demands (kit : Toolkit) (stat : StatConfig) : List Demand :=
  [⟨NullOr (IsCount 1) stat.bins, False, .bins stat.bins⟩,
    ⟨NullOr IsPositive stat.binWidth, stat.binWidth.IsBeyond, .binWidth stat.binWidth⟩,
    ⟨stat.bins = .null ∨ stat.binWidth = .null, False, .binsAndWidth⟩,
    ⟨NullOr IsFinite stat.boundary, stat.boundary.IsBeyond, .boundary stat.boundary⟩,
    ⟨NullOr IsPositive stat.bandwidth, stat.bandwidth.IsBeyond, .bandwidth stat.bandwidth⟩,
    ⟨stat.adjust.IsPositive, stat.adjust.IsBeyond, .adjust stat.adjust⟩,
    ⟨NullOr (IsCount 2) stat.points, False, .points stat.points⟩,
    ⟨stat.kind = .summary → ∀ name, stat.aggregator.characters? = some name →
        (kit.aggregator? stat.aggregator).isSome = true, False,
      .unknownAggregator ((stat.aggregator.characters?).getD "")
        (kit.aggregators.filterMap fun e => e.1.characters?)⟩,
    ⟨stat.kind = .density → (kit.kernel? stat.kernel).isSome = true, False,
      .unknownKernel stat.kernel (kit.kernels.filterMap fun e => e.1.characters?)⟩,
    ⟨NullOr (fun v => ∃ axis : Axis, v.characters? = some axis.name) stat.orientation, False,
      .orientation stat.orientation⟩]

/-- The first parameter that is out of range, where those before it are no integers beyond all
doubles. -/
def Refuses (kit : Toolkit) (stat : StatConfig) (cause : LayerCause) : Prop :=
  Demand.Refuse (demands kit stat) cause

section All

variable {kit : Toolkit} {stat : StatConfig} {layer : Option Int}

theorem inRange_iff : stat.InRange kit ↔ ∀ d ∈ demands kit stat, d.met := by
  unfold demands
  simp only [List.forall_mem_cons, List.not_mem_nil, false_implies, implies_true, and_true]
  exact ⟨fun ⟨h₁, h₂, h₃, h₄, h₅, h₆, h₇, h₈, h₉, h₁₀⟩ => ⟨h₁, h₂, h₃, h₄, h₅, h₆, h₇, h₈, h₉, h₁₀⟩,
    fun ⟨h₁, h₂, h₃, h₄, h₅, h₆, h₇, h₈, h₉, h₁₀⟩ => ⟨h₁, h₂, h₃, h₄, h₅, h₆, h₇, h₈, h₉, h₁₀⟩⟩

theorem meetsBeyond_iff : stat.MeetsBeyond ↔ Demand.MeetBeyond (demands kit stat) := by
  simp only [demands, Demand.MeetBeyond, MeetsBeyond, false_or, and_false, or_false]

/-- Where all parameters are in range, the reading comes to any integer beyond all doubles. -/
theorem InRange.not_meetsBeyond_iff (h : stat.InRange kit) :
    ¬ stat.MeetsBeyond ↔ ¬ stat.binWidth.IsBeyond ∧ ¬ stat.boundary.IsBeyond ∧
      ¬ stat.bandwidth.IsBeyond ∧ ¬ stat.adjust.IsBeyond := by
  have := h.bins
  have := h.binWidth
  have := h.one
  have := h.boundary
  have := h.bandwidth
  unfold MeetsBeyond
  tauto

/-! ### The reading -/

/-- Refusing a name lists those that are known; a name that cannot be written out ends that. -/
theorem refuse_unknown {α : Type} {entries : List (Value × α)} {given : Value}
    {cause : List String → LayerCause} {f : Unit → Except Failure Settings}
    (hnames : ∀ e ∈ entries, e.1.characters?.isSome = true)
    (hcause : ∀ names, (cause names).isWritable = given.isWritable) :
    (known given entries >>= fun names => throw (.layer (cause names) layer none) >>= f) =
      .error (.layer (cause (entries.filterMap fun e => e.1.characters?)) layer none) := by
  -- a refusal that can be worded lists the names, and one that cannot fails before it is made
  cases hgiven : given.isWritable with
  | true =>
    rw [known_of_named hgiven hnames]
    rfl
  | false =>
    have hunworded : Failure.layer (cause (entries.filterMap fun e => e.1.characters?)) layer none =
        .fault .badValue := by
      unfold Failure.layer
      rw [hcause, hgiven]
      rfl
    unfold known
    rw [hunworded, hgiven]
    rfl

/-- The test of the reduction of a summary, and what comes after it. -/
theorem follows_aggregatorTest (hkit : kit.Named) {f : Unit → Except Failure Settings}
    {ds : List Demand} (hf : Demand.Follows layer (f ()) ds) :
    Demand.Follows layer
      (if stat.kind = .summary then
        match stat.aggregator.characters? with
        | some name =>
          if (kit.aggregator? stat.aggregator).isSome = true then f ()
          else known stat.aggregator kit.aggregators >>= fun names =>
            throw (.layer (.unknownAggregator name names) layer none) >>= f
        | none => f ()
      else f ())
      (⟨stat.kind = .summary → ∀ name, stat.aggregator.characters? = some name →
          (kit.aggregator? stat.aggregator).isSome = true, False,
        .unknownAggregator ((stat.aggregator.characters?).getD "")
          (kit.aggregators.filterMap fun e => e.1.characters?)⟩ :: ds) := by
  refine .cons False.elim (fun _ hmet => ?_) fun _ hmet => ?_
  -- refused: the aggregator of a summary goes by a name, and the registry knows none like it
  · dsimp only at hmet
    push Not at hmet
    obtain ⟨hkind, name, hname, hknown⟩ := hmet
    have hwritable := Value.isWritable_of_characters (Option.isSome_iff_exists.2 ⟨name, hname⟩)
    rw [if_pos hkind, hname]
    dsimp only
    rw [if_neg hknown]
    exact refuse_unknown hkit.aggregators fun _ => hwritable.symm
  -- met: the statistic is no summary, it has a function for aggregator, or the name is known
  · by_cases hkind : stat.kind = .summary
    · rw [if_pos hkind]
      cases hname : stat.aggregator.characters? with
      | none => exact hf
      | some name =>
        dsimp only
        rw [if_pos (hmet hkind name hname)]
        exact hf
    · rw [if_neg hkind]
      exact hf

/-- The test of the kernel of a density, and what comes after it. -/
theorem follows_kernelTest (hkit : kit.Named) (hkernel : stat.kernel.isKey = true)
    {f : Unit → Except Failure Settings} {ds : List Demand}
    (hf : Demand.Follows layer (f ()) ds) :
    Demand.Follows layer
      (let test : Unit → Except Failure Settings := fun _ =>
        if (kit.kernel? stat.kernel).isSome = true then f ()
        else known stat.kernel kit.kernels >>= fun names =>
          throw (.layer (.unknownKernel stat.kernel names) layer none) >>= f
      if stat.kind = .density then
        if stat.kernel.isKey = true then test ()
        else throw (.fault .wrongShape) >>= test
      else f ())
      (⟨stat.kind = .density → (kit.kernel? stat.kernel).isSome = true, False,
        .unknownKernel stat.kernel (kit.kernels.filterMap fun e => e.1.characters?)⟩ :: ds) := by
  refine .cons False.elim (fun _ hmet => ?_) fun _ hmet => ?_
  -- refused: only the kernel of a density is looked up
  · dsimp only at hmet
    push Not at hmet
    obtain ⟨hkind, hknown⟩ := hmet
    dsimp only
    rw [if_pos hkind, if_pos hkernel, if_neg hknown]
    exact refuse_unknown hkit.kernels fun _ => rfl
  · by_cases hkind : stat.kind = .density
    · dsimp only
      rw [if_pos hkind, if_pos hkernel, if_pos (hmet hkind)]
      exact hf
    · dsimp only
      rw [if_neg hkind]
      exact hf

/-- The reading of the parameters does what is asked for, step by step. -/
theorem follows_settings (hkit : kit.Named) (hkernel : stat.kernel.isKey = true)
    (layer : Option Int) : Demand.Follows layer (stat.settings kit layer) (demands kit stat) := by
  have hbeyond : ¬ Value.IsBeyond .null := id
  unfold settings demands
  -- one line for each parameter, in the order in which they are looked at
  refine .optional_bind reads_bins id fun bins hbins => ?_
  refine .optional_bind reads_positive hbeyond fun binWidth hwidth => ?_
  extract_lets -underBinder afterBins
  have hboth : (bins.isSome && binWidth.isSome) = true ↔
      ¬ (stat.bins = .null ∨ stat.binWidth = .null) := by
    rw [Bool.and_eq_true, isSome_of_optional hbins, isSome_of_optional hwidth, not_or]
  -- whether bins and width are both given is the one demand on two parameters
  refine .cons False.elim (fun _ hmet => ?_) fun _ hmet => ?_
  · rw [if_pos (hboth.2 hmet)]
    rfl
  rw [if_neg (fun h => hboth.1 h hmet)]
  refine .optional_bind reads_finite hbeyond fun boundary _ => ?_
  refine .optional_bind reads_positive hbeyond fun bandwidth _ => ?_
  refine .read_bind reads_positive rfl fun adjust _ => ?_
  refine .optional_bind reads_points id fun points _ => ?_
  refine follows_aggregatorTest hkit ?_
  refine follows_kernelTest hkit hkernel ?_
  exact .optional_bind reads_axis id fun axis _ => .ok _

/-- What is asked for parameter by parameter is what the reading in order asks for. -/
theorem exists_settings_iff (hkit : kit.Named) (hkernel : stat.kernel.isKey = true) :
    (∃ settings, stat.settings kit layer = .ok settings) ↔
      stat.InRange kit ∧ ¬ stat.MeetsBeyond := by
  have hfollows := follows_settings hkit hkernel layer
  rw [meetsBeyond_iff]
  -- one of three things happens to the demands, and each has its own outcome
  rcases Demand.met_or_meetBeyond_or_refuse (demands kit stat) with hall | hmeet | ⟨cause, hrefuse⟩
  · refine iff_of_true (hfollows.passes hall) ⟨inRange_iff.2 fun d hd => (hall d hd).1, ?_⟩
    intro hmeet
    obtain ⟨settings, hok⟩ := hfollows.passes hall
    exact nomatch hok.symm.trans (hfollows.breaks hmeet)
  · refine iff_of_false (fun ⟨_, hok⟩ => ?_) fun h => h.2 hmeet
    exact nomatch hok.symm.trans (hfollows.breaks hmeet)
  · refine iff_of_false (fun ⟨_, hok⟩ => ?_) fun h => ?_
    · exact nomatch hok.symm.trans (hfollows.refuses cause hrefuse)
    · obtain ⟨d, hd, hmet, -⟩ := hrefuse.exists_not_met
      exact hmet (inRange_iff.1 h.1 d hd)

/-- The failures of the reading: an integer beyond all doubles, or the parameter that is refused. -/
theorem settings_eq_error_iff (hkit : kit.Named) (hkernel : stat.kernel.isKey = true)
    {e : Failure} :
    stat.settings kit layer = .error e ↔
      (stat.MeetsBeyond ∧ e = .fault .overflow) ∨
        ∃ cause, stat.Refuses kit cause ∧ e = .layer cause layer none := by
  have hfollows := follows_settings hkit hkernel layer
  rw [meetsBeyond_iff]
  constructor
  · intro h
    -- which of the three happened is told by the error
    rcases Demand.met_or_meetBeyond_or_refuse (demands kit stat) with
      hall | hmeet | ⟨cause, hrefuse⟩
    · obtain ⟨settings, hok⟩ := hfollows.passes hall
      exact nomatch h.symm.trans hok
    · exact Or.inl ⟨hmeet, Except.error.inj (h.symm.trans (hfollows.breaks hmeet))⟩
    · exact Or.inr ⟨cause, hrefuse,
        Except.error.inj (h.symm.trans (hfollows.refuses cause hrefuse))⟩
  · rintro (⟨hmeet, rfl⟩ | ⟨cause, hrefuse, rfl⟩)
    · exact hfollows.breaks hmeet
    · exact hfollows.refuses cause hrefuse

/-- **Reading the parameters is a fault exactly where it meets an integer beyond all doubles, or
refuses a parameter that cannot be written out.** -/
theorem faults_settings (hkit : kit.Named) (hkernel : stat.kernel.isKey = true)
    (layer : Option Int) :
    Faults (stat.settings kit layer) ↔
      stat.MeetsBeyond ∨ ∃ cause, stat.Refuses kit cause ∧ cause.isWritable = false := by
  unfold Faults
  simp only [settings_eq_error_iff hkit hkernel]
  constructor
  · rintro ⟨f, ⟨hmeet, -⟩ | ⟨cause, hrefuse, h⟩⟩
    · exact Or.inl hmeet
    -- a refusal is a fault only if it cannot be worded
    · exact Or.inr ⟨cause, hrefuse, Failure.layer_eq_fault_iff.1 h.symm |>.1⟩
  · rintro (hmeet | ⟨cause, hrefuse, h⟩)
    · exact ⟨.overflow, Or.inl ⟨hmeet, rfl⟩⟩
    · exact ⟨.badValue, Or.inr ⟨cause, hrefuse, (Failure.layer_eq_fault_iff.2 ⟨h, rfl⟩).symm⟩⟩

/-! ### The check -/

theorem category_of_refuses {cause : LayerCause} (h : stat.Refuses kit cause) :
    cause.category = .statParameter := by
  have hall : ∀ d ∈ demands kit stat, d.cause.category = .statParameter := by
    simp [demands, LayerCause.category]
  obtain ⟨d, hd, -, rfl⟩ := h.exists_not_met
  exact hall d hd

/-- A cause can be worded for a layer: neither the value that it shows nor the number of the layer
is too long to be written out. -/
def Worded (cause : LayerCause) (layer : Option Int) : Prop :=
  cause.isWritable = true ∧ ∀ i ∈ layer, (Value.int i).isWritable = true

theorem numbered_layer_of_worded {cause : LayerCause} (h : Worded cause layer) :
    (Failure.layer cause layer none).numbered = .problem (.layer ⟨cause, layer, none⟩) := by
  rw [Failure.layer_of_isWritable h.1]
  exact if_pos ((Option.all_eq_true _ _).2 h.2)

theorem numbered_layer_of_not_worded {cause : LayerCause} (h : ¬ Worded cause layer) :
    (Failure.layer cause layer none).numbered = .fault .badValue := by
  unfold Failure.layer
  split
  · next hcause => exact if_neg fun hlayer => h ⟨hcause, (Option.all_eq_true _ _).1 hlayer⟩
  · rfl

theorem check_eq_error_iff {e : Failure} :
    stat.check kit layer = .error e ↔
      ∃ e', stat.settings kit layer = .error e' ∧ e'.numbered = e := by
  unfold check
  cases stat.settings kit layer with
  | ok settings => exact ⟨fun h => (nomatch h), fun ⟨_, h, _⟩ => (nomatch h)⟩
  | error e' =>
    refine ⟨fun h => ⟨e', rfl, Except.error.inj h⟩, ?_⟩
    rintro ⟨_, h, he⟩
    cases h
    exact congrArg _ he

theorem check_eq_ok_iff (hkit : kit.Named) (hkernel : stat.kernel.isKey = true) :
    stat.check kit layer = .ok () ↔ stat.InRange kit ∧ ¬ stat.MeetsBeyond := by
  have hread : stat.check kit layer = .ok () ↔
      ∃ settings, stat.settings kit layer = .ok settings := by
    unfold check
    cases stat.settings kit layer with
    | ok settings => exact iff_of_true rfl ⟨settings, rfl⟩
    | error e => exact iff_of_false (fun h => (nomatch h)) fun ⟨_, h⟩ => (nomatch h)
  exact hread.trans (exists_settings_iff hkit hkernel)

/-- The check ends with a failure where the reading does: an overflow, a report of the parameter
that is refused, or no report of it. -/
theorem check_eq_error_cases (hkit : kit.Named) (hkernel : stat.kernel.isKey = true)
    {e : Failure} :
    stat.check kit layer = .error e ↔
      (stat.MeetsBeyond ∧ e = .fault .overflow) ∨
        ∃ cause, stat.Refuses kit cause ∧ (Failure.layer cause layer none).numbered = e := by
  rw [check_eq_error_iff]
  simp only [settings_eq_error_iff hkit hkernel]
  constructor
  -- the check numbers the failure that reading the settings ends in
  · rintro ⟨e', ⟨hmeet, rfl⟩ | ⟨cause, hrefuse, rfl⟩, rfl⟩
    · exact Or.inl ⟨hmeet, rfl⟩
    · exact Or.inr ⟨cause, hrefuse, rfl⟩
  · rintro (⟨hmeet, rfl⟩ | ⟨cause, hrefuse, rfl⟩)
    · exact ⟨_, Or.inl ⟨hmeet, rfl⟩, rfl⟩
    · exact ⟨_, Or.inr ⟨cause, hrefuse, rfl⟩, rfl⟩

theorem check_eq_overflow_iff (hkit : kit.Named) (hkernel : stat.kernel.isKey = true) :
    stat.check kit layer = .error (.fault .overflow) ↔ stat.MeetsBeyond := by
  rw [check_eq_error_cases hkit hkernel]
  refine ⟨fun h => h.elim And.left ?_, fun h => Or.inl ⟨h, rfl⟩⟩
  -- a refusal is a report or another fault
  rintro ⟨cause, -, h⟩
  by_cases hworded : Worded cause layer
  · rw [numbered_layer_of_worded hworded] at h
    exact nomatch h
  · rw [numbered_layer_of_not_worded hworded] at h
    exact nomatch h

theorem check_eq_badValue_iff (hkit : kit.Named) (hkernel : stat.kernel.isKey = true) :
    stat.check kit layer = .error (.fault .badValue) ↔
      ∃ cause, stat.Refuses kit cause ∧ ¬ Worded cause layer := by
  rw [check_eq_error_cases hkit hkernel, or_iff_right fun h => nomatch h.2]
  refine exists_congr fun cause => and_congr_right fun _ => ⟨fun h hworded => ?_, ?_⟩
  · rw [numbered_layer_of_worded hworded] at h
    exact nomatch h
  · exact numbered_layer_of_not_worded

/-- **The outcomes of the check.** It succeeds exactly on parameters in range among which it meets
no integer beyond all doubles. Meeting one is an overflow. In every other case there is a first
parameter that is refused. It is reported for the layer that was asked about if the report can be
worded; otherwise the attempt is a fault. -/
theorem check_outcomes (hkit : kit.Named) (hkernel : stat.kernel.isKey = true)
    (layer : Option Int) :
    (stat.check kit layer = .ok () ↔ stat.InRange kit ∧ ¬ stat.MeetsBeyond) ∧
      (stat.check kit layer = .error (.fault .overflow) ↔ stat.MeetsBeyond) ∧
      (stat.check kit layer = .error (.fault .badValue) ↔
        ∃ cause, stat.Refuses kit cause ∧ ¬ Worded cause layer) ∧
      (¬ stat.InRange kit → ¬ stat.MeetsBeyond →
        ∃ cause, stat.Refuses kit cause ∧ cause.category = .statParameter ∧
          (Worded cause layer →
            stat.check kit layer = .error (.problem (.layer ⟨cause, layer, none⟩)))) := by
  refine ⟨check_eq_ok_iff hkit hkernel, check_eq_overflow_iff hkit hkernel,
    check_eq_badValue_iff hkit hkernel, fun hrange hbeyond => ?_⟩
  -- a parameter out of range is a demand that is not met, so one refuses
  rcases Demand.met_or_meetBeyond_or_refuse (demands kit stat) with hall | hmeet | ⟨cause, hrefuse⟩
  · exact absurd (inRange_iff.2 fun d hd => (hall d hd).1) hrange
  · exact absurd (meetsBeyond_iff.2 hmeet) hbeyond
  · refine ⟨cause, hrefuse, category_of_refuses hrefuse, fun hworded => ?_⟩
    exact (check_eq_error_cases hkit hkernel).2
      (Or.inr ⟨cause, hrefuse, numbered_layer_of_worded hworded⟩)

end All

/-- Bins of width one half that are laid from a boundary on. -/
def halfBins (boundary : Value) : StatConfig :=
  { kind := .bin, binWidth := .float 0.5, boundary := boundary }

theorem inRange_halfBins (i : Int) : (halfBins (.int i)).InRange .standard where
  bins := Or.inl rfl
  binWidth := Or.inr (show _ ∧ _ by decide +kernel)
  one := Or.inl rfl
  boundary := Or.inr trivial
  bandwidth := Or.inl rfl
  adjust := show _ ∧ _ by decide +kernel
  points := Or.inl rfl
  aggregator := fun h => nomatch h
  kernel := fun h => nomatch h
  orientation := Or.inl rfl

/-- An integer of three hundred digits still has a double. -/
theorem check_outcomes_halfBins :
    Toolkit.standard.Named ∧ (halfBins (.int (10 ^ 300))).kernel.isKey = true ∧
      (halfBins (.int (10 ^ 300))).check .standard (some 3) = .ok () := by
  refine ⟨Toolkit.named_standard, rfl,
    (check_outcomes Toolkit.named_standard rfl _).1.2 ⟨inRange_halfBins _, ?_⟩⟩
  exact (inRange_halfBins _).not_meetsBeyond_iff.2
    ⟨id, show ¬ _ ≤ _ by decide +kernel, id, id⟩

/-- **An integer of four hundred digits has none**, so parameters in range are not admitted, and
others that are out of range are not reported. Nor is a number of bins of 4301 digits. -/
theorem check_far_boundary :
    (halfBins (.int (10 ^ 400))).InRange .standard ∧
      (halfBins (.int (10 ^ 400))).check .standard (some 0) = .error (.fault .overflow) ∧
      (¬ { kind := .bin, binWidth := .int (-10 ^ 400) : StatConfig }.InRange .standard) ∧
      { kind := .bin, binWidth := .int (-10 ^ 400) : StatConfig }.check .standard (some 0) =
        .error (.fault .overflow) ∧
      { kind := .bin, bins := .int (-10 ^ 4300) : StatConfig }.check .standard (some 0) =
        .error (.fault .badValue) := by
  refine ⟨inRange_halfBins _, (check_eq_overflow_iff Toolkit.named_standard rfl).2 ?_, ?_,
    (check_eq_overflow_iff Toolkit.named_standard rfl).2 ?_,
    (check_eq_badValue_iff Toolkit.named_standard rfl).2 ⟨.bins (.int (-10 ^ 4300)), ?_, ?_⟩⟩
  · exact ⟨Or.inl rfl, Or.inr ⟨(inRange_halfBins 0).binWidth, Or.inl rfl,
      Or.inl (show _ ≤ _ by decide +kernel)⟩⟩
  -- the width is negative, which no demand admits, and beyond all doubles all the same
  · intro h
    rcases h.binWidth with h | h
    · exact nomatch h
    · exact absurd h (show ¬ _ < _ by decide +kernel)
  · exact ⟨Or.inl rfl, Or.inl (show _ ≤ _ by decide +kernel)⟩
  -- the number of bins is looked at before everything else, and is refused
  · refine ⟨id, Or.inl ⟨?_, rfl⟩⟩
    rintro (h | ⟨n, -, h⟩)
    · exact nomatch h
    · have hnegative : (-10 ^ 4300 : Int) < 0 := by decide +kernel
      have hsame : (-10 ^ 4300 : Int) = n := Value.int.inj h
      omega
  -- its 4301 digits stand in the report
  · have hlong : ∀ v : Value, Worded (.bins v) (some 0) → v.isWritable = true := fun _ h => h.1
    intro hworded
    exact absurd (Value.isWritable_int.1 (hlong _ hworded)) (by decide +kernel)

end StatConfig

end PlotGrammar
