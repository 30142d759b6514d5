import PlotGrammar.Proofs.Growth
import PlotGrammar.Proofs.Building
import PlotGrammar.Proofs.Stat.Numbering

/-!
# Layers under other numbers

A layer is prepared, and feeds the scales, under the number of its place in the plot. Nothing but
the numbers in its problems depends on it.

* `Build.verdict`: whatever the number of a layer is, its preparation gives the same result, the
  same problems under that number (`Problem.renumber`), or the same fault.
* `Build.feed_renumber`: layers under other numbers make the same scales, and have the same problems
  under the other numbers.
* `Build.prepareAll_filter_passes`: where the layers that do not pass are left out, the others are
  prepared as before. They never fed anything (`Build.feed_filter_passed`).
-/

namespace PlotGrammar

/-! ### Numbers of layers in problems -/

/-- A problem of a layer with the number of the layer changed. -/
def LayerProblem.renumber (f : Int → Int) (p : LayerProblem) : LayerProblem :=
  { p with layer := p.layer.map f }

namespace Problem

/-- The number of the layer that a problem names, if it names one. -/
def number? : Problem → Option Int
  | misuse _ => none
  | layer p => p.layer

/-- A problem with the number of its layer changed. -/
def renumber (f : Int → Int) : Problem → Problem
  | misuse rule => misuse rule
  | layer p => layer (p.renumber f)

theorem renumber_renumber (f g : Int → Int) (p : Problem) :
    (p.renumber g).renumber f = p.renumber (f ∘ g) := by
  cases p with
  | misuse rule => rfl
  | layer p => exact congrArg (fun l => layer ⟨p.cause, l, p.channel⟩) (Option.map_map f g p.layer)

/-- A problem that names a layer names the new number of it. -/
theorem number?_renumber (f : Int → Int) (p : Problem) :
    (p.renumber f).number? = p.number?.map f := by
  cases p <;> rfl

end Problem

/-- A failure with the number of its layer changed. -/
def Failure.renumber (f : Int → Int) : Failure → Failure
  | .problem p => .problem (p.renumber f)
  | e => e

namespace Build

variable {kit : Toolkit} {config : BuildConfig} {plot : Plot}

section Prepare

variable {defaults : Stat.Defaults} {data : Table} {root : Mapping}

/-! ### Preparing a layer under different numbers -/

theorem alike_transform (kit : Toolkit) (defaults : Stat.Defaults) (stat : StatConfig)
    {table : Table} {mapping : Mapping} (g : Geometry)
    (hpresent : ∀ c name, mapping.column? c = some name → table.contains name = true) :
    ∃ y : Except Blame Prepared, ∀ index : Nat,
      (transform kit defaults stat table mapping g index).outcome =
        y.mapError (Blame.failure (some index)) := by
  have hdrawn : ∀ result, Alike fun number =>
      (if (Stat.computedName? stat.kind).isSome then
        (Stat.orientation stat table mapping (.member (.geometry g)) number).map some
      else .ok none : Except Failure (Option Axis)) >>= fun along =>
        (.ok ⟨Stat.drawn stat.kind mapping result along, result⟩ : Except Failure Prepared) := by
    intro result
    refine Alike.bind (.ite ?_ (.ok none)) fun along _ => .ok _
    exact (Stat.alike_orientation g hpresent stat).bind fun a _ => .ok (some a)
  obtain ⟨y, hy⟩ := (Stat.alike_run hpresent g defaults kit stat).bind fun result _ => hdrawn result
  refine ⟨y, fun index => ?_⟩
  rw [outcome_transform]
  exact hy (some index)

theorem bindingProblems_renumber (layer : Layer) (index : Nat) :
    bindingProblems data root index layer =
      (bindingProblems data root 0 layer).map (Problem.renumber fun _ => index) := by
  unfold bindingProblems missingColumns
  rw [List.map_append, List.map_map]
  refine congrArg₂ (· ++ ·) rfl ?_
  unfold Geometry.check
  cases layer.geometry.missing (layer.resolved root) with
  | nil => rfl
  | cons first rest => rfl

theorem number?_of_mem_bindingProblems {layer : Layer} {index : Nat} {p : Problem}
    (h : p ∈ bindingProblems data root index layer) : p.number? = some (index : Int) := by
  rcases List.mem_append.1 h with h | h
  · obtain ⟨e, -, rfl⟩ := List.mem_map.1 h
    rfl
  · unfold Geometry.check at h
    cases hm : layer.geometry.missing (layer.resolved root) with
    | nil =>
      rw [hm] at h
      exact absurd h List.not_mem_nil
    | cons first rest =>
      rw [hm] at h
      obtain rfl := List.mem_singleton.1 h
      rfl

/-- What the preparation of a layer comes to, whatever its number is: it passes, it has problems
which name the number unless they are about repeated names, or a fault ends everything. -/
inductive Verdict (kit : Toolkit) (defaults : Stat.Defaults) (data : Table) (root : Mapping)
    (layer : Layer) : Prop
  | passes (p : Prepared)
      (h : ∀ index, (prepare kit defaults data root index layer).outcome = .ok (.ok p))
  | fails (ps : List Problem) (hne : ps ≠ [])
      (hnumber : ∀ p ∈ ps, p.number? = some 0 ∨ ∃ names, p = .misuse (.repeatedNames names))
      (h : ∀ index, (prepare kit defaults data root index layer).outcome =
        .ok (.error (ps.map (Problem.renumber fun _ => (index : Int)))))
  | breaks (f : Fault)
      (h : ∀ index, (prepare kit defaults data root index layer).outcome = .error (.fault f))

theorem verdict (kit : Toolkit) (defaults : Stat.Defaults) (data : Table) (root : Mapping)
    (layer : Layer) : Verdict kit defaults data root layer := by
  cases hfirst : bindingProblems data root 0 layer with
  | cons first rest =>
    refine .fails (first :: rest) (List.cons_ne_nil _ _) (fun p hp => ?_) fun index => ?_
    · rw [← hfirst] at hp
      exact Or.inl (number?_of_mem_bindingProblems hp)
    · rw [outcome_prepare, bindingProblems_renumber, hfirst, if_neg (by simp)]
  | nil =>
    -- nothing is wrong before the statistic runs, under any number
    have hnone : ∀ index, bindingProblems data root index layer = [] := by
      intro index
      rw [bindingProblems_renumber, hfirst]
      rfl
    -- nor does the number matter to the statistic, whose outcome is blamed on the layer afterwards
    obtain ⟨y, hy⟩ := alike_transform kit defaults layer.stat layer.geometry
      (bindingProblems_eq_nil.1 hfirst).1
    have hprepare : ∀ (index : Nat) (e : Failure),
        y.mapError (Blame.failure (some index)) = .error e →
        (prepare kit defaults data root index layer).outcome =
          match e with
          | .problem p => .ok (.error [p])
          | e => .error e := by
      intro index e he
      rw [outcome_prepare, if_pos (hnone index)]
      unfold Logged.problemOrResult
      rw [hy, he]
      cases e <;> rfl
    cases y with
    | ok p =>
      obtain ⟨hcolumns, hgeometry⟩ := bindingProblems_eq_nil.1 hfirst
      exact .passes p fun index => prepare_eq_ok.2 ⟨hcolumns, hgeometry, hy index⟩
    -- a cause that cannot be worded is a fault, and else it is the one problem of the layer
    | error b =>
      cases b with
      | layer cause channel =>
        cases hcause : cause.isWritable with
        | true =>
          have hlayer := fun index => Failure.layer_of_isWritable hcause index channel
          refine .fails [.layer ⟨cause, some 0, channel⟩] (List.cons_ne_nil _ _) (fun p hp => ?_)
            fun index => hprepare index _ (congrArg Except.error (hlayer _))
          obtain rfl := List.mem_singleton.1 hp
          exact Or.inl rfl
        | false =>
          have hfault : ∀ index, Failure.layer cause index channel = .fault .badValue :=
            fun _ => Failure.layer_eq_fault_iff.2 ⟨hcause, rfl⟩
          exact .breaks .badValue fun index => hprepare index _ (congrArg Except.error (hfault _))
      | repeatedNames names =>
        refine .fails [.misuse (.repeatedNames names)] (List.cons_ne_nil _ _) (fun p hp => ?_)
          fun index => hprepare index _ rfl
        obtain rfl := List.mem_singleton.1 hp
        exact Or.inr ⟨names, rfl⟩
      | fault f => exact .breaks f fun index => hprepare index _ rfl

end Prepare

end Build

/-! ### Feeding the scales under different numbers -/

namespace ScaleRegistry

variable (table : Table) (mapping : Mapping) (f : Int → Int) (i : Int)

/-- The number of a layer shows in the problem of a call, and nowhere else. -/
theorem accumulate_renumber (r : ScaleRegistry) (c : Channel) :
    (r.accumulate c table mapping (some (f i))).1 = (r.accumulate c table mapping (some i)).1 ∧
      (r.accumulate c table mapping (some (f i))).2.outcome =
        (r.accumulate c table mapping (some i)).2.outcome.mapError (Failure.renumber f) := by
  -- what is read from a column fails with a fault, which names no layer
  have hread : ∀ (s : ScaleState) (names : List String),
      (extendBy table s names).2 = (extendBy table s names).2.mapError (Failure.renumber f) := by
    intro s names
    rw [extendBy_eq]
    rcases readAll_outcome table s.kind names with hok | ⟨e, he⟩
    · rw [hok]
      rfl
    · rw [he]
      rfl
  unfold accumulate
  by_cases hfrozen : r.frozen.isSome = true
  · rw [if_pos hfrozen, if_pos hfrozen]
    exact ⟨rfl, rfl⟩
  rw [if_neg hfrozen, if_neg hfrozen]
  -- the branches look at the registry, the table and the mapping, which are the same
  cases mapping.column? c with
  | none => exact ⟨rfl, rfl⟩
  | some column =>
    dsimp only
    cases table.kind? column with
    | none => exact ⟨rfl, rfl⟩
    | some kind =>
      dsimp only
      cases r.states c.scaleChannel with
      | none => exact ⟨rfl, hread _ _⟩
      | some state =>
        dsimp only
        by_cases hkind : state.kind = kind
        · rw [if_pos hkind, if_pos hkind]
          exact ⟨rfl, hread _ _⟩
        · rw [if_neg hkind, if_neg hkind]
          exact ⟨rfl, rfl⟩

theorem accumulateAll_renumber (r : ScaleRegistry) (channels : List Channel) :
    (accumulateAll table mapping (some (f i)) r channels).1 =
        (accumulateAll table mapping (some i) r channels).1 ∧
      (accumulateAll table mapping (some (f i)) r channels).2.outcome =
        (accumulateAll table mapping (some i) r channels).2.outcome.map
          (List.map (LayerProblem.renumber f)) := by
  induction channels generalizing r with
  | nil => exact ⟨rfl, rfl⟩
  | cons c rest ih =>
    obtain ⟨hregistry, houtcome⟩ := accumulate_renumber table mapping f i r c
    obtain ⟨hrest, hothers⟩ := ih (r.accumulate c table mapping (some i)).1
    unfold accumulateAll
    dsimp only
    rw [hregistry]
    unfold Logged.discard
    -- renumbering commutes with putting the problems of one channel in front
    have hmap : ∀ (found : List LayerProblem) (x : Except Failure (List LayerProblem)),
        (x.map (List.map (LayerProblem.renumber f))).map
            (found.map (LayerProblem.renumber f) ++ ·) =
          (x.map (found ++ ·)).map (List.map (LayerProblem.renumber f)) := by
      intro found x
      cases x with
      | ok ps => exact congrArg Except.ok List.map_append.symm
      | error e => rfl
    -- the call ends alike under both numbers, and so do the calls after it
    cases ho : (r.accumulate c table mapping (some i)).2.outcome with
    | ok u =>
      rw [ho] at houtcome
      rw [houtcome]
      refine ⟨hrest, ?_⟩
      exact (congrArg (Except.map ([] ++ ·)) hothers).trans (hmap [] _)
    | error e =>
      rw [ho] at houtcome
      rw [houtcome]
      cases e with
      | problem p =>
        cases p with
        | layer p =>
          refine ⟨hrest, ?_⟩
          exact (congrArg (Except.map ([p.renumber f] ++ ·)) hothers).trans (hmap [p] _)
        | misuse rule => exact ⟨rfl, rfl⟩
      | build | scalesFrozen | fault => exact ⟨rfl, rfl⟩

variable {table mapping}

/-- The problems of a layer name its number. -/
theorem layer_of_accumulateAll {layer : Option Int} {r : ScaleRegistry} {channels : List Channel}
    {found : List LayerProblem}
    (h : (accumulateAll table mapping layer r channels).2.outcome = .ok found) {p : LayerProblem}
    (hp : p ∈ found) : p.layer = layer := by
  induction channels generalizing r found with
  | nil =>
    cases h
    exact absurd hp List.not_mem_nil
  | cons c rest ih =>
    have hcall := fed_accumulate r c table mapping layer
    unfold accumulateAll at h
    dsimp only at h
    split at h
    · unfold Logged.discard at h
      obtain ⟨u, -, h⟩ := bind_eq_ok.1 h
      cases h
      exact absurd hp List.not_mem_nil
    · next own hown =>
      obtain ⟨others, hothers, h⟩ := bind_eq_ok.1 h
      cases h
      -- a problem of this channel names the layer as its call does, a later one by induction
      rcases List.mem_append.1 hp with hp | hp
      · split at hown
        · cases hown
          exact absurd hp List.not_mem_nil
        · next q hq =>
          cases hown
          obtain rfl := List.mem_singleton.1 hp
          exact (hcall.problem_names hq).2
        · cases hown
      · exact ih hothers hp

end ScaleRegistry

namespace Build

variable {kit : Toolkit} {config : BuildConfig} {plot : Plot}

/-- Whether a layer was prepared. -/
def Item.passed (item : Item) : Bool :=
  item.outcome.toBool

theorem Item.passed_eq_true {item : Item} :
    item.passed = true ↔ ∃ p, item.outcome = .ok p := by
  unfold passed
  cases item.outcome with
  | ok p => exact ⟨fun _ => ⟨p, rfl⟩, fun _ => rfl⟩
  | error ps => exact ⟨fun h => (nomatch h), fun ⟨p, h⟩ => nomatch h⟩

/-- Layers with problems feed nothing. -/
theorem feed_filter_passed (r : ScaleRegistry) (items : List Item) :
    feed r (items.filter Item.passed) = feed r items := by
  -- an item that has not passed is skipped by the feeding, so dropping it makes no difference
  induction items generalizing r with
  | nil => rfl
  | cons item rest ih =>
    cases ho : item.outcome with
    | error ps =>
      have hfailed : item.passed = false := by
        unfold Item.passed
        rw [ho]
        rfl
      rw [List.filter_cons_of_neg (by rw [hfailed]; exact Bool.false_ne_true), ih]
      conv_rhs => unfold feed
      rw [ho]
    | ok p =>
      rw [List.filter_cons_of_pos (Item.passed_eq_true.2 ⟨p, ho⟩)]
      unfold feed
      rw [ho]
      dsimp only
      split
      · rfl
      · rw [ih]

/-- Two items are those of one layer that was prepared under two numbers. -/
def Item.Renumbered (f : Int → Int) (a b : Item) : Prop :=
  ∃ p, a.outcome = .ok p ∧ b.outcome = .ok p ∧ (a.index : Int) = f b.index

/-- Prepared layers under other numbers make the same scales, and their problems name the other
numbers. -/
theorem feed_renumber {f : Int → Int} {items items' : List Item}
    (h : List.Forall₂ (Item.Renumbered f) items items') (r : ScaleRegistry) :
    (feed r items).1 = (feed r items').1 ∧
      (feed r items).2.outcome =
        (feed r items').2.outcome.map (List.map (Problem.renumber f)) := by
  induction h generalizing r with
  | nil => exact ⟨rfl, rfl⟩
  | @cons a b as bs hab hrest ih =>
    obtain ⟨p, ha, hb, hindex⟩ := hab
    obtain ⟨hregistry, houtcome⟩ := ScaleRegistry.accumulateAll_renumber p.data p.mapping f
      b.index r (p.mapping.columns.map (·.1))
    obtain ⟨hothers, hproblems⟩ := ih (r.accumulateLayer p.data p.mapping (some b.index)).1
    unfold feed
    rw [ha, hb, hindex]
    unfold ScaleRegistry.accumulateLayer at hothers hproblems ⊢
    dsimp only
    -- both feed the same columns into the same registry, which knows nothing of numbers
    rw [hregistry]
    cases ho : (ScaleRegistry.accumulateAll p.data p.mapping (some b.index) r
        (p.mapping.columns.map (·.1))).2.outcome with
    | error e =>
      rw [ho] at houtcome
      rw [houtcome]
      exact ⟨rfl, rfl⟩
    | ok found =>
      rw [ho] at houtcome
      rw [houtcome]
      refine ⟨hothers, ?_⟩
      change Except.map _ (feed _ as).2.outcome = _
      rw [hproblems]
      -- the problems found here go in front of those of the other items
      cases (feed _ bs).2.outcome with
      | error e => rfl
      | ok ps =>
        refine congrArg Except.ok ?_
        rw [List.map_append, List.map_map, List.map_map]
        rfl

/-- The problems of feeding name the layers they come from, and these were prepared. -/
theorem number?_of_mem_feed {r : ScaleRegistry} {items : List Item} {found : List Problem}
    (h : (feed r items).2.outcome = .ok found) {p : Problem} (hp : p ∈ found) :
    ∃ item ∈ items, item.passed = true ∧ p.number? = some (item.index : Int) := by
  induction items generalizing r found with
  | nil =>
    cases h
    exact absurd hp List.not_mem_nil
  | cons item rest ih =>
    unfold feed at h
    -- only items that are ready are fed, and each puts its number on the problems of its columns
    split at h
    · obtain ⟨item', hitem, hnumber⟩ := ih h hp
      exact ⟨item', List.mem_cons_of_mem _ hitem, hnumber⟩
    · next prepared ho =>
      dsimp only at h
      split at h
      · cases h
      · next own hown =>
        obtain ⟨others, hothers, h⟩ := bind_eq_ok.1 h
        cases h
        rcases List.mem_append.1 hp with hp | hp
        · obtain ⟨q, hq, rfl⟩ := List.mem_map.1 hp
          exact ⟨item, List.mem_cons_self, Item.passed_eq_true.2 ⟨prepared, ho⟩,
            ScaleRegistry.layer_of_accumulateAll hown hq⟩
        · obtain ⟨item', hitem, hnumber⟩ := ih hothers hp
          exact ⟨item', List.mem_cons_of_mem _ hitem, hnumber⟩

/-- One problem names no later layer than another one. -/
def NotAfter (p q : Problem) : Prop :=
  ∀ i j, p.number? = some i → q.number? = some j → i ≤ j

/-- The problems of feeding are in the order of the layers. -/
theorem pairwise_of_feed {r : ScaleRegistry} {items : List Item} {found : List Problem}
    (h : (feed r items).2.outcome = .ok found)
    (hsorted : items.Pairwise fun a b => a.index < b.index) : found.Pairwise NotAfter := by
  induction items generalizing r found with
  | nil =>
    cases h
    exact List.Pairwise.nil
  | cons item rest ih =>
    obtain ⟨hfirst, hrest⟩ := List.pairwise_cons.1 hsorted
    unfold feed at h
    split at h
    · exact ih h hrest
    · dsimp only at h
      split at h
      · cases h
      -- this layer is fed, so its problems stand before those of the rest
      · next own hown =>
        obtain ⟨others, hothers, h⟩ := bind_eq_ok.1 h
        cases h
        have hnumber : ∀ p ∈ own.map Problem.layer, p.number? = some (item.index : Int) := by
          intro p hp
          obtain ⟨q, hq, rfl⟩ := List.mem_map.1 hp
          exact ScaleRegistry.layer_of_accumulateAll hown hq
        -- within the layer all numbers are equal, and those of the rest are greater
        refine List.pairwise_append.2 ⟨?_, ih hothers hrest, fun p hp q hq => ?_⟩
        · refine List.pairwise_of_forall_mem_list fun p hp q hq => ?_
          intro i j hi hj
          rw [hnumber p hp] at hi
          rw [hnumber q hq] at hj
          rw [← Option.some.inj hi, ← Option.some.inj hj]
        · intro i j hi hj
          obtain ⟨item', hitem, -, hlater⟩ := number?_of_mem_feed hothers hq
          rw [hnumber p hp] at hi
          rw [hlater] at hj
          rw [← Option.some.inj hi, ← Option.some.inj hj]
          exact Int.ofNat_le.2 (Nat.le_of_lt (hfirst item' hitem))

/-! ### Leaving layers out -/

section Passing

variable {defaults : Stat.Defaults} {data : Table} {root : Mapping}

/-- Whether a layer passes its preparation, by itself. -/
def passes (kit : Toolkit) (defaults : Stat.Defaults) (data : Table) (root : Mapping)
    (layer : Layer) : Bool :=
  match (prepare kit defaults data root 0 layer).outcome with
  | .ok (.ok _) => true
  | _ => false

/-- A layer passes or fails under every number alike. -/
theorem passes_of_outcome {layer : Layer} {index : Nat} {outcome : Except (List Problem) Prepared}
    (h : (prepare kit defaults data root index layer).outcome = .ok outcome) :
    passes kit defaults data root layer = outcome.toBool := by
  unfold passes
  rcases verdict kit defaults data root layer with
    ⟨p, hp⟩ | ⟨ps, -, -, hps⟩ | ⟨f, hf⟩
  · rw [hp 0]
    rw [hp index] at h
    cases h
    rfl
  · rw [hps 0]
    rw [hps index] at h
    cases h
    rfl
  · rw [hf index] at h
    exact nomatch h

theorem prepare_of_prepare {layer : Layer} {index : Nat} {p : Prepared}
    (h : (prepare kit defaults data root index layer).outcome = .ok (.ok p)) (index' : Nat) :
    (prepare kit defaults data root index' layer).outcome = .ok (.ok p) := by
  rcases verdict kit defaults data root layer with
    ⟨q, hq⟩ | ⟨ps, -, -, hps⟩ | ⟨f, hf⟩
  · rw [hq index] at h
    rw [hq index']
    exact h
  · rw [hps index] at h
    exact nomatch h
  · rw [hf index] at h
    exact nomatch h

theorem indices_of_prepareAll {index : Nat} {layers : List Layer} {items : List Item}
    (h : (prepareAll kit defaults data root index layers).outcome = .ok items) :
    items.map Item.index = List.range' index layers.length := by
  induction layers generalizing index items with
  | nil =>
    cases h
    rfl
  | cons layer rest ih =>
    unfold prepareAll at h
    obtain ⟨outcome, -, h⟩ := Logged.bind_eq_ok.1 h
    obtain ⟨others, hothers, h⟩ := Logged.bind_eq_ok.1 h
    cases h
    exact congrArg (index :: ·) (ih hothers)

/-- Leaving out the layers that do not pass leaves the others as they are, under new numbers. -/
theorem prepareAll_filter_passes {index : Nat} {layers : List Layer} {items : List Item}
    (h : (prepareAll kit defaults data root index layers).outcome = .ok items) (index' : Nat) :
    ∃ items', (prepareAll kit defaults data root index'
        (layers.filter (passes kit defaults data root))).outcome = .ok items' ∧
      List.Forall₂ (fun a b => ∃ p, a.outcome = .ok p ∧ b.outcome = .ok p)
        (items.filter Item.passed) items' ∧
      (items.filter Item.passed).map Item.index =
        ((layers.zipIdx index).filter fun e => passes kit defaults data root e.1).map (·.2) := by
  induction layers generalizing index index' items with
  | nil =>
    cases h
    exact ⟨[], rfl, .nil, rfl⟩
  | cons layer rest ih =>
    unfold prepareAll at h
    obtain ⟨outcome, houtcome, h⟩ := Logged.bind_eq_ok.1 h
    obtain ⟨others, hothers, h⟩ := Logged.bind_eq_ok.1 h
    cases h
    have hpasses := passes_of_outcome houtcome
    rw [List.zipIdx_cons]
    cases outcome with
    -- a layer with problems is left out of the second run, which goes on with the same number
    | error ps =>
      obtain ⟨items', hitems, hsame, hindices⟩ := ih hothers index'
      have hno : ¬ passes kit defaults data root layer = true := by
        rw [hpasses]
        exact Bool.false_ne_true
      rw [List.filter_cons_of_neg hno, List.filter_cons_of_neg (a := (layer, index)) hno,
        List.filter_cons_of_neg Bool.false_ne_true]
      exact ⟨items', hitems, hsame, hindices⟩
    | ok p =>
      obtain ⟨items', hitems, hsame, hindices⟩ := ih hothers (index' + 1)
      have hyes : passes kit defaults data root layer = true := hpasses
      rw [List.filter_cons_of_pos hyes, List.filter_cons_of_pos (a := (layer, index)) hyes,
        List.filter_cons_of_pos rfl]
      -- the layer is kept, so that the numbers of both runs go on
      refine ⟨⟨index', layer, .ok p⟩ :: items', ?_, .cons ⟨p, rfl, rfl⟩ hsame,
        congrArg (index :: ·) hindices⟩
      unfold prepareAll
      refine Logged.bind_eq_ok.2 ⟨.ok p, prepare_of_prepare houtcome index', ?_⟩
      exact Logged.bind_eq_ok.2 ⟨items', hitems, rfl⟩

end Passing

end Build

end PlotGrammar
