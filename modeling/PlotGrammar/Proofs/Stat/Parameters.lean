import PlotGrammar.Proofs.Outcome
import PlotGrammar.Stat.Config

/-!
# What parameters are read from

The parameters of a statistic are read one after the other. Where all of them can be read, each has
been read by itself (`StatConfig.ReadAs`, `StatConfig.readAs_of_settings`): an optional one is left
out, or its reading has a result (`StatConfig.optional_eq_ok`).

Names of reductions and kernels are listed where another one is refused. `Toolkit.Named` says that
they can be, `StatConfig.ByName` that a statistic goes by such names.
-/

namespace PlotGrammar

/-- The names of a toolkit are strings, so that they can be listed where another one is refused. -/
structure Toolkit.Named (kit : Toolkit) : Prop where
  aggregators : ∀ e ∈ kit.aggregators, e.1.characters?.isSome = true
  kernels : ∀ e ∈ kit.kernels, e.1.characters?.isSome = true

theorem Toolkit.named_standard : standard.Named := by
  constructor <;> simp [standard, Value.characters?]

namespace StatConfig

/-! ### One parameter -/

section Optional

variable {α : Type} {v : Value} {read : Value → Except Failure (Option α)} {refusal : Failure}

/-- An optional parameter that is given is read, and refused if the reading gives nothing. -/
theorem optional_of_ne_null (h : v ≠ .null) :
    optional v read refusal =
      (read v >>= fun found => match found with
        | some a => pure (some a)
        | none => throw refusal) := by
  cases v with
  | null => exact absurd rfl h
  | _ => rfl

theorem optional_eq_ok_iff {a : Option α} :
    optional v read refusal = .ok a ↔
      v = .null ∧ a = none ∨ v ≠ .null ∧ a.isSome = true ∧ read v = .ok a := by
  -- an option that is left out is not read at all
  by_cases hv : v = .null
  · subst hv
    exact ⟨fun h => Or.inl ⟨rfl, (Except.ok.inj h).symm⟩,
      fun h => h.elim (fun h => h.2 ▸ rfl) fun h => absurd rfl h.1⟩
  · rw [optional_of_ne_null hv, bind_eq_ok]
    constructor
    · rintro ⟨found, hfound, h⟩
      cases found with
      | none => exact nomatch h
      | some b =>
        cases h
        exact Or.inr ⟨hv, rfl, hfound⟩
    · rintro (h | ⟨-, ha, h⟩)
      · exact absurd h.1 hv
      · obtain ⟨b, rfl⟩ := Option.isSome_iff_exists.1 ha
        exact ⟨some b, h, rfl⟩

theorem isSome_of_optional {a : Option α} (h : optional v read refusal = .ok a) :
    a.isSome = true ↔ v ≠ .null := by
  rcases optional_eq_ok_iff.1 h with ⟨rfl, rfl⟩ | ⟨hv, ha, -⟩
  · exact iff_of_false (fun h => (nomatch h)) fun h => h rfl
  · exact iff_of_true ha hv

end Optional

/-! ### Names -/

/-- The statistic names its reduction and its kernel. -/
structure ByName (stat : StatConfig) : Prop where
  aggregator : stat.aggregator.characters?.isSome = true
  kernel : stat.kernel.characters?.isSome = true

instance (stat : StatConfig) : Decidable stat.ByName :=
  decidable_of_iff (stat.aggregator.characters?.isSome = true ∧
      stat.kernel.characters?.isSome = true)
    ⟨fun ⟨haggregator, hkernel⟩ => ⟨haggregator, hkernel⟩, fun h => ⟨h.aggregator, h.kernel⟩⟩

/-- A name is a key. -/
theorem isKey_of_characters {v : Value} (h : v.characters?.isSome = true) : v.isKey = true := by
  cases v with
  | list | dict => exact nomatch h
  | _ => rfl

/-- Strings can be listed after a name that can be written out. -/
theorem known_of_named {α : Type} {given : Value} {entries : List (Value × α)}
    (hgiven : given.isWritable = true) (h : ∀ e ∈ entries, e.1.characters?.isSome = true) :
    known given entries = .ok (entries.filterMap fun e => e.1.characters?) := by
  -- the names are listed one by one, and each is one
  have hshown : Toolkit.shownNames entries = .ok (entries.filterMap fun e => e.1.characters?) := by
    unfold Toolkit.shownNames
    induction entries with
    | nil => rfl
    | cons e rest ih =>
      obtain ⟨he, hrest⟩ := List.forall_mem_cons.1 h
      obtain ⟨name, hname⟩ := Option.isSome_iff_exists.1 he
      rw [List.mapM_cons, ih hrest, List.filterMap_cons, hname]
      rfl
  unfold known
  rw [if_pos hgiven, hshown]
  rfl

/-! ### Parameters in range -/

/-- What the parameters in range were read from, and that the reduction of a summary and the kernel
of a density are known by their names. -/
structure ReadAs (kit : Toolkit) (layer : Option Int) (stat : StatConfig) (settings : Settings) :
    Prop where
  bins : optional stat.bins (fun v => .ok (positiveCount? v))
    (.layer (.bins stat.bins) layer none) = .ok settings.bins
  binWidth : optional stat.binWidth positive (.layer (.binWidth stat.binWidth) layer none) =
    .ok settings.binWidth
  one : (settings.bins.isSome && settings.binWidth.isSome) = false
  boundary : optional stat.boundary finite (.layer (.boundary stat.boundary) layer none) =
    .ok settings.boundary
  bandwidth : optional stat.bandwidth positive (.layer (.bandwidth stat.bandwidth) layer none) =
    .ok settings.bandwidth
  adjust : positive stat.adjust = .ok (some settings.adjust)
  points : optional stat.points
    (fun v => .ok ((positiveCount? v).filter fun n => decide (2 ≤ n)))
    (.layer (.points stat.points) layer none) = .ok settings.points
  aggregator : stat.kind = .summary → ∀ name, stat.aggregator.characters? = some name →
    (kit.aggregator? stat.aggregator).isSome = true
  kernel : stat.kind = .density → (kit.kernel? stat.kernel).isSome = true
  axis : optional stat.orientation (fun v => .ok (v.characters?.bind Axis.ofName?))
    (.layer (.orientation stat.orientation) layer none) = .ok settings.axis

/-- Parameters that can all be read are read one after the other. -/
theorem readAs_of_settings {kit : Toolkit} {layer : Option Int} {stat : StatConfig}
    {settings : Settings} (h : stat.settings kit layer = .ok settings) :
    ReadAs kit layer stat settings := by
  unfold StatConfig.settings at h
  -- option by option, each of which was read if there are settings
  obtain ⟨bins, hbins, h⟩ := bind_eq_ok.1 h
  obtain ⟨binWidth, hwidth, h⟩ := bind_eq_ok.1 h
  extract_lets -underBinder afterBins at h
  split at h
  · exact nomatch h
  next hone =>
  dsimp -zeta only [afterBins] at h
  obtain ⟨boundary, hboundary, h⟩ := bind_eq_ok.1 h
  obtain ⟨bandwidth, hbandwidth, h⟩ := bind_eq_ok.1 h
  obtain ⟨adjust?, hadjust, h⟩ := bind_eq_ok.1 h
  extract_lets -underBinder afterAdjust at h
  split at h
  · next n =>
    obtain ⟨adjust, hn, h⟩ := bind_eq_ok.1 h
    cases hn
    dsimp -zeta only [afterAdjust] at h
    obtain ⟨points, hpoints, h⟩ := bind_eq_ok.1 h
    extract_lets -underBinder afterSummary at h
    -- what is asked for the aggregator and the kernel depends on the kind, but all ways meet here
    have hlast : afterSummary () = .ok settings →
        (stat.kind = .summary → ∀ name, stat.aggregator.characters? = some name →
          (kit.aggregator? stat.aggregator).isSome = true) →
        ReadAs kit layer stat settings := by
      intro h haggregator
      dsimp -zeta only [afterSummary] at h
      extract_lets -underBinder afterDensity afterKey at h
      have hdensity : afterDensity () = .ok settings →
          (stat.kind = .density → (kit.kernel? stat.kernel).isSome = true) →
          ReadAs kit layer stat settings := by
        intro h hkernel
        obtain ⟨axis, haxis, h⟩ := bind_eq_ok.1 h
        cases h
        exact ⟨hbins, hwidth, Bool.eq_false_iff.2 hone, hboundary, hbandwidth, hadjust, hpoints,
          haggregator, hkernel, haxis⟩
      split at h
      · split at h
        · dsimp -zeta only [afterKey] at h
          split at h
          · next hknown => exact hdensity h fun _ => hknown
          · obtain ⟨_, -, h⟩ := bind_eq_ok.1 h
            exact nomatch h
        · exact nomatch h
      · next hkind => exact hdensity h fun hk => absurd hk hkind
    -- an aggregator is asked for by its name or given as a function, and only a name is looked up
    split at h
    · split at h
      · split at h
        · next hknown => exact hlast h fun _ _ _ => hknown
        · obtain ⟨_, -, h⟩ := bind_eq_ok.1 h
          exact nomatch h
      · next hnameless =>
        exact hlast h fun _ name hname => nomatch hnameless.symm.trans hname
    · next hkind => exact hlast h fun hk => absurd hk hkind
  · exact nomatch h

end StatConfig

end PlotGrammar
