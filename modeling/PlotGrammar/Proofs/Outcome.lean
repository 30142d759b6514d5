import PlotGrammar.Logged

/-!
# Taking operations apart

An operation is a chain of steps of which any may fail. A result of the whole chain is a result of
every step, and a failure is that of the first step that fails.

* `bind_eq_ok` and `bind_eq_error` take one step off a chain, `Logged.bind_eq_ok` and
  `Logged.bind_eq_error` do so for operations that record events.
* `foldlM_induction` carries an invariant through a loop.
* `FailsOnly` says that an operation fails only in some way, and the lemmas after it go step by step
  through a chain.
* `Failure.Single` holds of the failures that concern one thing: a problem or a fault, but not the
  end of a build. `Settles` says that an operation fails only so.
* `Faults` says that an operation ends with a fault, `Contained` that none ends it. A chain ends
  with a fault when its first step does, or the rest does after it (`faults_bind`).
-/

namespace PlotGrammar

/-! ### Steps of a chain -/

section Except

variable {ε α β : Type}

/-- A chain has a result when its first step has one and the rest has one from there. -/
theorem bind_eq_ok {x : Except ε α} {f : α → Except ε β} {b : β} :
    (x >>= f) = .ok b ↔ ∃ a, x = .ok a ∧ f a = .ok b := by
  cases x with
  | ok a =>
    refine ⟨fun h => ⟨a, rfl, h⟩, ?_⟩
    rintro ⟨_, ha, h⟩
    cases ha
    exact h
  | error e =>
    refine ⟨fun h => (nomatch h), ?_⟩
    rintro ⟨_, ha, _⟩
    exact nomatch ha

/-- A chain fails when its first step fails, or the rest does after it. -/
theorem bind_eq_error {x : Except ε α} {f : α → Except ε β} {e : ε} :
    (x >>= f) = .error e ↔ x = .error e ∨ ∃ a, x = .ok a ∧ f a = .error e := by
  cases x with
  | ok a =>
    refine ⟨fun h => Or.inr ⟨a, rfl, h⟩, ?_⟩
    rintro (h | ⟨_, ha, h⟩)
    · exact nomatch h
    · cases ha
      exact h
  | error e' =>
    refine ⟨fun h => Or.inl ?_, ?_⟩
    · cases h
      rfl
    · rintro (h | ⟨_, ha, _⟩)
      · cases h
        rfl
      · exact nomatch ha

theorem mapError_eq_ok {ε' : Type} {f : ε → ε'} {x : Except ε α} {a : α} :
    x.mapError f = .ok a ↔ x = .ok a := by
  cases x with
  | ok b => exact ⟨fun h => by cases h; rfl, fun h => by cases h; rfl⟩
  | error e => exact ⟨fun h => (nomatch h), fun h => (nomatch h)⟩

/-- What holds before a loop, and passes from each step to the next, holds after it. -/
theorem foldlM_induction {f : β → α → Except ε β} {P : β → Prop} {xs : List α}
    (step : ∀ b a b', a ∈ xs → P b → f b a = .ok b' → P b') {b b' : β}
    (hb : P b) (h : xs.foldlM f b = .ok b') : P b' := by
  induction xs generalizing b with
  | nil =>
    cases h
    exact hb
  | cons a xs ih =>
    rw [List.foldlM_cons] at h
    obtain ⟨c, hc, hrest⟩ := bind_eq_ok.1 h
    exact ih (fun b a b' ha => step b a b' (List.mem_cons_of_mem _ ha))
      (step b a c List.mem_cons_self hb hc) hrest

/-- A loop whose steps leave things as they are does so. -/
theorem foldlM_eq_self {f : β → α → Except ε β} {xs : List α} {b : β}
    (h : ∀ a ∈ xs, f b a = .ok b) : xs.foldlM f b = .ok b := by
  induction xs with
  | nil => rfl
  | cons a xs ih =>
    rw [List.foldlM_cons, h a List.mem_cons_self]
    exact ih fun a ha => h a (List.mem_cons_of_mem _ ha)

/-- Loops whose steps have the same results have the same results, however they fail. -/
theorem foldlM_eq_ok_congr {f g : β → α → Except ε β} {xs : List α}
    (h : ∀ b, ∀ a ∈ xs, ∀ b', f b a = .ok b' ↔ g b a = .ok b') {b b' : β} :
    xs.foldlM f b = .ok b' ↔ xs.foldlM g b = .ok b' := by
  induction xs generalizing b with
  | nil => exact Iff.rfl
  | cons a xs ih =>
    rw [List.foldlM_cons, List.foldlM_cons, bind_eq_ok, bind_eq_ok]
    refine exists_congr fun c => and_congr (h b a List.mem_cons_self c) ?_
    exact ih fun b a ha => h b a (List.mem_cons_of_mem _ ha)

/-- What one step of a loop brings about, and later steps keep, holds after the loop. -/
theorem foldlM_reaches {f : β → α → Except ε β} {P : β → Prop} {xs : List α} {a : α} (ha : a ∈ xs)
    (gives : ∀ b b', f b a = .ok b' → P b')
    (keeps : ∀ b x b', x ∈ xs → P b → f b x = .ok b' → P b') {b b' : β}
    (h : xs.foldlM f b = .ok b') : P b' := by
  -- on the list: what one step brings about is kept by all later ones
  induction xs generalizing b with
  | nil => exact absurd ha List.not_mem_nil
  | cons x xs ih =>
    rw [List.foldlM_cons] at h
    obtain ⟨c, hc, hrest⟩ := bind_eq_ok.1 h
    have hkeeps : ∀ b x b', x ∈ xs → P b → f b x = .ok b' → P b' := fun b x b' hx =>
      keeps b x b' (List.mem_cons_of_mem _ hx)
    rcases List.mem_cons.1 ha with rfl | ha
    · -- this is the step that brings it about, the others keep it
      exact foldlM_induction hkeeps (gives b c hc) hrest
    · exact ih ha hkeeps hrest

/-- A loop has a result if every step has one, from states in which an invariant holds. -/
theorem exists_foldlM {f : β → α → Except ε β} {P : β → Prop} {xs : List α}
    (step : ∀ b, P b → ∀ a ∈ xs, ∃ b', f b a = .ok b' ∧ P b') {b : β} (hb : P b) :
    ∃ b', xs.foldlM f b = .ok b' ∧ P b' := by
  induction xs generalizing b with
  | nil => exact ⟨b, rfl, hb⟩
  | cons a xs ih =>
    obtain ⟨c, hc, hP⟩ := step b hb a List.mem_cons_self
    obtain ⟨b', hb', hP'⟩ := ih (fun b hb a ha => step b hb a (List.mem_cons_of_mem _ ha)) hP
    refine ⟨b', ?_, hP'⟩
    rw [List.foldlM_cons, hc]
    exact hb'

/-- A run through a list has a result if every step has one. -/
theorem exists_mapM {f : α → Except ε β} {xs : List α} (h : ∀ a ∈ xs, ∃ b, f a = .ok b) :
    ∃ ys, xs.mapM f = .ok ys := by
  induction xs with
  | nil => exact ⟨[], rfl⟩
  | cons a xs ih =>
    obtain ⟨b, hb⟩ := h a List.mem_cons_self
    obtain ⟨bs, hbs⟩ := ih fun a ha => h a (List.mem_cons_of_mem _ ha)
    refine ⟨b :: bs, ?_⟩
    rw [List.mapM_cons, hb, hbs]
    rfl

/-- A run through a list that counts its steps has a result if every step has one, and what holds
of the results of the steps holds of all that it gives. -/
theorem exists_mapIdxM {f : Nat → α → Except ε β} {P : β → Prop} {xs : List α}
    (h : ∀ i a, xs[i]? = some a → ∃ b, f i a = .ok b ∧ P b) :
    ∃ ys, xs.mapIdxM f = .ok ys ∧ ∀ b ∈ ys, P b := by
  -- the number of a step is what the loop has gathered so far
  suffices hgo : ∀ acc : Array β, (∀ b ∈ acc.toList, P b) →
      (∀ i a, xs[i]? = some a → ∃ b, f (acc.size + i) a = .ok b ∧ P b) →
      ∃ ys, List.mapIdxM.go f xs acc = .ok ys ∧ ∀ b ∈ ys, P b from
    hgo #[] (fun b hb => absurd hb List.not_mem_nil)
      fun i a hi => (Nat.zero_add i).symm ▸ h i a hi
  clear h
  induction xs with
  | nil => exact fun acc hacc _ => ⟨acc.toList, rfl, hacc⟩
  | cons a xs ih =>
    intro acc hacc hstep
    obtain ⟨b, hb, hP⟩ := hstep 0 a rfl
    rw [Nat.add_zero] at hb
    obtain ⟨ys, hys, hall⟩ := ih (acc.push b)
      (fun c hc => by
        rw [Array.toList_push, List.mem_append, List.mem_singleton] at hc
        rcases hc with hc | rfl
        · exact hacc c hc
        · exact hP)
      fun i c hc => by
        rw [Array.size_push, Nat.add_assoc, Nat.add_comm 1 i]
        exact hstep (i + 1) c hc
    refine ⟨ys, ?_, hall⟩
    unfold List.mapIdxM.go
    rw [hb]
    exact hys

/-- Every step of a run through a list has a result if the run has one. -/
theorem mapM_ok_of_mem {f : α → Except ε β} {xs : List α} {ys : List β} (h : xs.mapM f = .ok ys)
    {a : α} (ha : a ∈ xs) : ∃ b ∈ ys, f a = .ok b := by
  induction xs generalizing ys with
  | nil => exact absurd ha List.not_mem_nil
  | cons x xs ih =>
    rw [List.mapM_cons] at h
    obtain ⟨b, hb, h⟩ := bind_eq_ok.1 h
    obtain ⟨bs, hbs, h⟩ := bind_eq_ok.1 h
    cases h
    rcases List.mem_cons.1 ha with rfl | ha
    · exact ⟨b, List.mem_cons_self, hb⟩
    · obtain ⟨b', hmem, hb'⟩ := ih hbs ha
      exact ⟨b', List.mem_cons_of_mem _ hmem, hb'⟩

theorem length_of_mapM {f : α → Except ε β} {xs : List α} {ys : List β} (h : xs.mapM f = .ok ys) :
    ys.length = xs.length := by
  induction xs generalizing ys with
  | nil =>
    cases h
    rfl
  | cons x xs ih =>
    rw [List.mapM_cons] at h
    obtain ⟨b, -, h⟩ := bind_eq_ok.1 h
    obtain ⟨bs, hbs, h⟩ := bind_eq_ok.1 h
    cases h
    exact congrArg (· + 1) (ih hbs)

theorem isEmpty_of_mapM {f : α → Except ε β} {xs : List α} {ys : List β} (h : xs.mapM f = .ok ys) :
    ys.isEmpty = xs.isEmpty := by
  rw [Bool.eq_iff_iff, List.isEmpty_iff_length_eq_zero, List.isEmpty_iff_length_eq_zero,
    length_of_mapM h]

/-- Every result of a run through a list is that of one of its steps. -/
theorem exists_of_mem_mapM {f : α → Except ε β} {xs : List α} {ys : List β}
    (h : xs.mapM f = .ok ys) {b : β} (hb : b ∈ ys) : ∃ a ∈ xs, f a = .ok b := by
  induction xs generalizing ys with
  | nil =>
    cases h
    exact absurd hb List.not_mem_nil
  | cons x xs ih =>
    rw [List.mapM_cons] at h
    obtain ⟨first, hfirst, h⟩ := bind_eq_ok.1 h
    obtain ⟨rest, hrest, h⟩ := bind_eq_ok.1 h
    cases h
    rcases List.mem_cons.1 hb with rfl | hb
    · exact ⟨x, List.mem_cons_self, hfirst⟩
    · obtain ⟨a, ha, hfa⟩ := ih hrest hb
      exact ⟨a, List.mem_cons_of_mem _ ha, hfa⟩

/-- A run through a list fails where the first step without a result does, and as this one does. -/
theorem mapM_eq_error {f : α → Except ε β} {xs : List α} {e : ε} :
    xs.mapM f = .error e ↔
      ∃ before x after, xs = before ++ x :: after ∧ (∀ a ∈ before, ∃ b, f a = .ok b) ∧
        f x = .error e := by
  constructor
  · intro h
    -- induction on the list, since the loop goes on as long as its steps have results
    induction xs with
    | nil => exact nomatch h
    | cons x xs ih =>
      rw [List.mapM_cons] at h
      rcases bind_eq_error.1 h with h | ⟨b, hb, h⟩
      · exact ⟨[], x, xs, rfl, fun _ ha => absurd ha List.not_mem_nil, h⟩
      · rcases bind_eq_error.1 h with h | ⟨_, -, h⟩
        · obtain ⟨before, y, after, rfl, hbefore, hy⟩ := ih h
          exact ⟨x :: before, y, after, rfl, List.forall_mem_cons.2 ⟨⟨b, hb⟩, hbefore⟩, hy⟩
        · exact nomatch h
  · rintro ⟨before, x, after, rfl, hbefore, hx⟩
    -- the steps before the failing one are gone through one by one
    induction before with
    | nil =>
      rw [List.nil_append, List.mapM_cons]
      exact bind_eq_error.2 (Or.inl hx)
    | cons a before ih =>
      obtain ⟨⟨b, hb⟩, hbefore⟩ := List.forall_mem_cons.1 hbefore
      rw [List.cons_append, List.mapM_cons]
      exact bind_eq_error.2 (Or.inr ⟨b, hb, bind_eq_error.2 (Or.inl (ih hbefore))⟩)

/-- Two runs through a list with the same results have the same steps. -/
theorem eq_of_mapM_eq_ok {f g : α → Except ε β} {xs : List α} {ys : List β}
    (hf : xs.mapM f = .ok ys) (hg : xs.mapM g = .ok ys) : ∀ a ∈ xs, f a = g a := by
  induction xs generalizing ys with
  | nil => exact fun a ha => absurd ha List.not_mem_nil
  | cons x xs ih =>
    rw [List.mapM_cons] at hf hg
    obtain ⟨y, hy, hf⟩ := bind_eq_ok.1 hf
    obtain ⟨rest, hrest, hf⟩ := bind_eq_ok.1 hf
    cases hf
    obtain ⟨y', hy', hg⟩ := bind_eq_ok.1 hg
    obtain ⟨rest', hrest', hg⟩ := bind_eq_ok.1 hg
    cases hg
    intro a ha
    rcases List.mem_cons.1 ha with rfl | ha
    · rw [hy, hy']
    · exact ih hrest hrest' a ha

/-- A run through a list gives what fits the list, item by item, if every step gives what fits its
item. -/
theorem exists_mapM_map_iff {γ : Type} {f : α → Except ε β} {k : β → γ} {k' : α → γ}
    {xs : List α} :
    (∃ ys, xs.mapM f = .ok ys ∧ ys.map k = xs.map k') ↔
      ∀ a ∈ xs, ∃ b, f a = .ok b ∧ k b = k' a := by
  induction xs with
  | nil => exact ⟨fun _ a ha => absurd ha List.not_mem_nil, fun _ => ⟨[], rfl, rfl⟩⟩
  | cons a xs ih =>
    rw [List.forall_mem_cons, ← ih]
    -- the first item is read off, and the rest goes by induction
    constructor
    · rintro ⟨ys, hys, hmap⟩
      rw [List.mapM_cons] at hys
      obtain ⟨b, hb, hys⟩ := bind_eq_ok.1 hys
      obtain ⟨bs, hbs, hys⟩ := bind_eq_ok.1 hys
      cases hys
      obtain ⟨hfirst, hrest⟩ := List.cons.inj hmap
      exact ⟨⟨b, hb, hfirst⟩, bs, hbs, hrest⟩
    · rintro ⟨⟨b, hb, hfirst⟩, bs, hbs, hrest⟩
      refine ⟨b :: bs, ?_, List.cons_eq_cons.2 ⟨hfirst, hrest⟩⟩
      rw [List.mapM_cons, hb, hbs]
      rfl

end Except

namespace Logged

variable {α β : Type}

/-- Recording is a chain like any other: events are appended in the order of the steps. -/
instance : LawfulMonad Logged :=
  LawfulMonad.mk' Logged
    (by
      intro α x
      obtain ⟨outcome, events⟩ := x
      cases outcome with
      | ok a => exact congrArg (Logged.mk _) (List.append_nil events)
      | error e => rfl)
    (by
      intro α β a f
      exact congrArg (Logged.mk _) (List.nil_append (f a).events))
    (by
      intro α β γ x f g
      obtain ⟨outcome, events⟩ := x
      cases outcome with
      | error e => rfl
      | ok a =>
        simp only [Bind.bind]
        cases hfa : (f a).outcome with
        | error e => simp
        | ok b => simp)

@[simp] theorem outcome_lift (x : Except Failure α) : (liftM x : Logged α).outcome = x := rfl

theorem bind_eq_ok {x : Logged α} {f : α → Logged β} {b : β} :
    (x >>= f).outcome = .ok b ↔ ∃ a, x.outcome = .ok a ∧ (f a).outcome = .ok b := by
  rw [outcome_bind]
  exact PlotGrammar.bind_eq_ok

theorem bind_eq_error {x : Logged α} {f : α → Logged β} {e : Failure} :
    (x >>= f).outcome = .error e ↔
      x.outcome = .error e ∨ ∃ a, x.outcome = .ok a ∧ (f a).outcome = .error e := by
  rw [outcome_bind]
  exact PlotGrammar.bind_eq_error

/-- Recording goes before what is recorded about. -/
theorem outcome_record_bind (e : Event) (f : Unit → Logged β) :
    (record e >>= f).outcome = (f ()).outcome := by
  rw [outcome_bind, outcome_record]
  rfl

end Logged

/-! ### Failures of one sort -/

/-- Every failure that the operation can end with is of a sort. -/
def FailsOnly {α : Type} (P : Failure → Prop) (x : Except Failure α) : Prop :=
  ∀ e, x = .error e → P e

namespace FailsOnly

variable {α β : Type} {P : Failure → Prop}

theorem ok (a : α) : FailsOnly P (.ok a) :=
  fun _ h => nomatch h

theorem pure (a : α) : FailsOnly P (Pure.pure a : Except Failure α) :=
  ok a

theorem of_exists {x : Except Failure α} (h : ∃ a, x = .ok a) : FailsOnly P x := by
  obtain ⟨a, rfl⟩ := h
  exact ok a

theorem error {e : Failure} (h : P e) : FailsOnly P (.error e : Except Failure α) := by
  intro e' he
  cases he
  exact h

theorem throw {e : Failure} (h : P e) : FailsOnly P (MonadExcept.throw e : Except Failure α) :=
  error h

theorem throw_bind {e : Failure} (h : P e) (f : α → Except Failure β) :
    FailsOnly P (MonadExcept.throw e >>= f) :=
  error h

theorem ite {c : Prop} [Decidable c] {x y : Except Failure α} (hx : c → FailsOnly P x)
    (hy : ¬ c → FailsOnly P y) : FailsOnly P (if c then x else y) := by
  split
  · next h => exact hx h
  · next h => exact hy h

/-- A step that comes after another knows that this one had a result. -/
theorem bind {x : Except Failure α} {f : α → Except Failure β} (hx : FailsOnly P x)
    (hf : ∀ a, x = .ok a → FailsOnly P (f a)) : FailsOnly P (x >>= f) := by
  intro e he
  rcases bind_eq_error.1 he with h | ⟨a, ha, h⟩
  · exact hx e h
  · exact hf a ha e h

theorem mapError {ε : Type} {x : Except ε α} {f : ε → Failure} (h : ∀ e, x = .error e → P (f e)) :
    FailsOnly P (x.mapError f) := by
  cases x with
  | ok a => exact ok a
  | error e => exact error (h e rfl)

theorem mapM {f : α → Except Failure β} {xs : List α} (hf : ∀ a ∈ xs, FailsOnly P (f a)) :
    FailsOnly P (xs.mapM f) := by
  induction xs with
  | nil => exact pure []
  | cons a xs ih =>
    rw [List.mapM_cons]
    refine (hf a List.mem_cons_self).bind fun b _ => ?_
    exact (ih fun a ha => hf a (List.mem_cons_of_mem _ ha)).bind fun bs _ => pure _

theorem foldlM {f : β → α → Except Failure β} {xs : List α}
    (hf : ∀ b, ∀ a ∈ xs, FailsOnly P (f b a)) (b : β) : FailsOnly P (xs.foldlM f b) := by
  induction xs generalizing b with
  | nil => exact pure b
  | cons a xs ih =>
    rw [List.foldlM_cons]
    refine (hf b a List.mem_cons_self).bind fun b' _ => ?_
    exact ih (fun b a ha => hf b a (List.mem_cons_of_mem _ ha)) b'

theorem optionMapM {f : α → Except Failure β} {x : Option α}
    (hf : ∀ a, x = some a → FailsOnly P (f a)) : FailsOnly P (x.mapM f) := by
  cases x with
  | none => exact pure none
  | some a => exact (hf a rfl).bind fun b _ => pure (some b)

/-- A logged chain fails as its steps do. -/
theorem logged {x : Logged α} {f : α → Logged β} (hx : FailsOnly P x.outcome)
    (hf : ∀ a, x.outcome = .ok a → FailsOnly P (f a).outcome) : FailsOnly P (x >>= f).outcome := by
  rw [Logged.outcome_bind]
  exact hx.bind hf

theorem loggedFilterMapM {f : α → Logged (Option β)} {xs : List α}
    (hf : ∀ a ∈ xs, FailsOnly P (f a).outcome) : FailsOnly P (xs.filterMapM f).outcome := by
  induction xs with
  | nil => exact ok []
  | cons a xs ih =>
    rw [List.filterMapM_cons]
    refine logged (hf a List.mem_cons_self) fun b _ => ?_
    have hrest := ih fun a ha => hf a (List.mem_cons_of_mem _ ha)
    cases b with
    | none => exact hrest
    | some b => exact logged hrest fun bs _ => ok _

end FailsOnly

/-! ### Failures that concern one thing -/

/-- Whether a failure is one problem or one fault, as opposed to the end of a build or of the
collection of scales. -/
def Failure.Single : Failure → Prop
  | .problem _ | .fault _ => True
  | .build _ | .scalesFrozen => False

theorem Failure.single_fault (f : Fault) : (fault f).Single := trivial

theorem Failure.single_layer (cause : LayerCause) (index : Option Int) (channel : Option String) :
    (layer cause index channel).Single := by
  unfold layer
  split <;> exact trivial

theorem Failure.single_misuse (rule : Misuse) : (misuse rule).Single := by
  unfold misuse
  split <;> exact trivial

/-- Every failure that the operation can end with concerns one thing. -/
def Settles {α : Type} (x : Except Failure α) : Prop :=
  ∀ e, x = .error e → e.Single

namespace Settles

variable {α β : Type}

theorem ok (a : α) : Settles (.ok a) :=
  FailsOnly.ok a

theorem pure (a : α) : Settles (Pure.pure a : Except Failure α) :=
  ok a

theorem error {e : Failure} (h : e.Single) : Settles (.error e : Except Failure α) :=
  FailsOnly.error h

theorem fault (f : Fault) : Settles (.error (.fault f) : Except Failure α) :=
  error (Failure.single_fault f)

theorem layer (cause : LayerCause) (index : Option Int) (channel : Option String) :
    Settles (.error (.layer cause index channel) : Except Failure α) :=
  error (Failure.single_layer cause index channel)

theorem throw {e : Failure} (h : e.Single) : Settles (MonadExcept.throw e : Except Failure α) :=
  error h

/-- What comes after a failure does not matter. -/
theorem throw_bind {e : Failure} (h : e.Single) (f : α → Except Failure β) :
    Settles (MonadExcept.throw e >>= f) :=
  error h

theorem bind {x : Except Failure α} {f : α → Except Failure β} (hx : Settles x)
    (hf : ∀ a, Settles (f a)) : Settles (x >>= f) :=
  FailsOnly.bind hx fun a _ => hf a

theorem map {x : Except Failure α} (hx : Settles x) (f : α → β) : Settles (x.map f) := by
  cases x with
  | ok a => exact ok (f a)
  | error e => exact error (hx e rfl)

theorem mapM {f : α → Except Failure β} (hf : ∀ a, Settles (f a)) (xs : List α) :
    Settles (xs.mapM f) :=
  FailsOnly.mapM fun a _ => hf a

theorem foldlM {f : β → α → Except Failure β} (hf : ∀ b a, Settles (f b a)) (xs : List α) (b : β) :
    Settles (xs.foldlM f b) :=
  FailsOnly.foldlM (fun b a _ => hf b a) b

theorem optionMapM {f : α → Except Failure β} (hf : ∀ a, Settles (f a)) (x : Option α) :
    Settles (x.mapM f) :=
  FailsOnly.optionMapM fun a _ => hf a

/-- A logged chain settles when its steps do. -/
theorem logged {x : Logged α} {f : α → Logged β} (hx : Settles x.outcome)
    (hf : ∀ a, Settles (f a).outcome) : Settles (x >>= f).outcome :=
  FailsOnly.logged hx fun a _ => hf a

theorem loggedFilterMapM {f : α → Logged (Option β)} (hf : ∀ a, Settles (f a).outcome)
    (xs : List α) : Settles (xs.filterMapM f).outcome :=
  FailsOnly.loggedFilterMapM fun a _ => hf a

end Settles

/-! ### Faults -/

/-- Whether a failure is something to report, and no fault. -/
def Failure.Reported : Failure → Prop
  | .fault _ => False
  | .problem _ | .build _ | .scalesFrozen => True

/-- What goes wrong in a layer is reported if it has a wording. -/
theorem Failure.reported_layer {cause : LayerCause} (h : cause.isWritable = true)
    (index : Option Int) (channel : Option String) : (layer cause index channel).Reported := by
  rw [layer_of_isWritable h]
  exact trivial

theorem Failure.reported_misuse {r : Misuse} (h : r.isWritable = true) : (misuse r).Reported := by
  rw [misuse_of_isWritable h]
  exact trivial

theorem Failure.layer_eq_fault_iff {cause : LayerCause} {index : Option Int}
    {channel : Option String} {f : Fault} :
    layer cause index channel = fault f ↔ cause.isWritable = false ∧ f = .badValue := by
  unfold layer
  cases cause.isWritable with
  | true => exact ⟨fun h => (nomatch h), fun h => (nomatch h.1)⟩
  | false => exact ⟨fun h => by cases h; exact ⟨rfl, rfl⟩, fun h => h.2 ▸ rfl⟩

/-- Whether an operation ends with a fault. -/
def Faults {α : Type} (x : Except Failure α) : Prop :=
  ∃ f, x = .error (.fault f)

/-- No fault ends the operation. -/
abbrev Contained {α : Type} (x : Except Failure α) : Prop :=
  FailsOnly Failure.Reported x

section Faults

variable {α β : Type}

theorem Contained.not_faults {x : Except Failure α} (h : Contained x) : ¬ Faults x := by
  rintro ⟨f, hf⟩
  exact h _ hf

theorem Failure.Reported.not_faults {e : Failure} (h : e.Reported) :
    ¬ Faults (.error e : Except Failure α) := by
  rintro ⟨f, hf⟩
  cases hf
  exact h

theorem not_faults_ok (a : α) : ¬ Faults (.ok a : Except Failure α) :=
  fun ⟨_, h⟩ => nomatch h

theorem faults_fault (f : Fault) : Faults (.error (.fault f) : Except Failure α) :=
  ⟨f, rfl⟩

/-- A chain ends with a fault when its first step does, or the rest does after it. -/
theorem faults_bind {x : Except Failure α} {f : α → Except Failure β} :
    Faults (x >>= f) ↔ Faults x ∨ ∃ a, x = .ok a ∧ Faults (f a) := by
  unfold Faults
  constructor
  · rintro ⟨fault, h⟩
    rcases bind_eq_error.1 h with h | ⟨a, ha, h⟩
    · exact Or.inl ⟨fault, h⟩
    · exact Or.inr ⟨a, ha, fault, h⟩
  · rintro (⟨fault, h⟩ | ⟨a, ha, fault, h⟩)
    · exact ⟨fault, bind_eq_error.2 (Or.inl h)⟩
    · exact ⟨fault, bind_eq_error.2 (Or.inr ⟨a, ha, h⟩)⟩

/-- What fails with a fault only ends with one unless it has a result. -/
theorem faults_mapError {x : Except Fault α} :
    Faults (x.mapError .fault) ↔ ∀ a, x ≠ .ok a := by
  cases x with
  | ok a => exact ⟨fun h => absurd h (not_faults_ok a), fun h => absurd rfl (h a)⟩
  | error f => exact ⟨fun _ _ h => (nomatch h), fun _ => faults_fault f⟩

theorem Failure.not_reported_fault (f : Fault) : (fun e : Failure => ¬ e.Reported) (fault f) :=
  id

/-- What only faults end has a result unless one does. -/
theorem faults_or_exists {x : Except Failure α} (h : FailsOnly (fun e => ¬ e.Reported) x) :
    Faults x ∨ ∃ a, x = .ok a := by
  cases x with
  | ok a => exact Or.inr ⟨a, rfl⟩
  | error e =>
    cases e with
    | fault f => exact Or.inl (faults_fault f)
    | problem | build | scalesFrozen => exact absurd trivial (h _ rfl)

/-! ### Faults of recorded operations -/

theorem Logged.faults_bind {x : Logged α} {f : α → Logged β} :
    Faults (x >>= f).outcome ↔
      Faults x.outcome ∨ ∃ a, x.outcome = .ok a ∧ Faults (f a).outcome := by
  rw [outcome_bind]
  exact PlotGrammar.faults_bind

/-- After a step that no fault ends, a recorded chain ends with a fault when the rest does. -/
theorem Contained.faults_logged {x : Logged α} {f : α → Logged β} (hx : Contained x.outcome) :
    Faults (x >>= f).outcome ↔ ∃ a, x.outcome = .ok a ∧ Faults (f a).outcome := by
  rw [Logged.faults_bind, or_iff_right hx.not_faults]

section FilterMapM

variable {f : α → Logged (Option β)} {xs : List α}

/-- A run through a list whose steps only faults can end is ended by one when a step is. -/
theorem Logged.faults_filterMapM
    (h : ∀ a ∈ xs, Faults (f a).outcome ∨ ∃ b, (f a).outcome = .ok b) :
    Faults (xs.filterMapM f).outcome ↔ ∃ a ∈ xs, Faults (f a).outcome := by
  induction xs with
  | nil => exact ⟨fun h => absurd h (not_faults_ok _), fun ⟨_, h, _⟩ => absurd h List.not_mem_nil⟩
  | cons a xs ih =>
    have ih := ih fun a ha => h a (List.mem_cons_of_mem _ ha)
    rw [List.filterMapM_cons]
    constructor
    · intro hfaults
      -- the first step is a fault, or one of the steps after it
      rcases Logged.faults_bind.1 hfaults with hfirst | ⟨b, -, hrest⟩
      · exact ⟨a, List.mem_cons_self, hfirst⟩
      · have hrest : Faults (xs.filterMapM f).outcome := by
          cases b with
          | none => exact hrest
          | some b =>
            rcases Logged.faults_bind.1 hrest with hrest | ⟨bs, -, hdone⟩
            · exact hrest
            · exact absurd hdone (not_faults_ok _)
        obtain ⟨a', ha', hf⟩ := ih.1 hrest
        exact ⟨a', List.mem_cons_of_mem _ ha', hf⟩
    · rintro ⟨a', ha', hf⟩
      -- and back: every step is a fault or goes on, so that the fault is reached
      refine Logged.faults_bind.2 ?_
      rcases h a List.mem_cons_self with hfirst | ⟨b, hb⟩
      · exact Or.inl hfirst
      · -- the first step has a result, so it is a later one that is a fault
        have hrest : Faults (xs.filterMapM f).outcome := by
          rcases List.mem_cons.1 ha' with rfl | ha'
          · rw [hb] at hf
            exact absurd hf (not_faults_ok _)
          · exact ih.2 ⟨a', ha', hf⟩
        refine Or.inr ⟨b, hb, ?_⟩
        cases b with
        | none => exact hrest
        | some b => exact Logged.faults_bind.2 (Or.inl hrest)

/-- What a run through a list gives is what its steps give. -/
theorem Logged.exists_of_mem_filterMapM {bs : List β} (h : (xs.filterMapM f).outcome = .ok bs)
    {b : β} (hb : b ∈ bs) : ∃ a ∈ xs, (f a).outcome = .ok (some b) := by
  induction xs generalizing bs with
  | nil =>
    cases h
    exact absurd hb List.not_mem_nil
  | cons a xs ih =>
    rw [List.filterMapM_cons] at h
    obtain ⟨first, hfirst, h⟩ := Logged.bind_eq_ok.1 h
    -- a step without a value adds nothing to what has been gathered
    cases first with
    | none =>
      obtain ⟨a', ha', hf⟩ := ih h hb
      exact ⟨a', List.mem_cons_of_mem _ ha', hf⟩
    | some c =>
      obtain ⟨rest, hrest, h⟩ := Logged.bind_eq_ok.1 h
      cases h
      rcases List.mem_cons.1 hb with rfl | hb
      · exact ⟨a, List.mem_cons_self, hfirst⟩
      · obtain ⟨a', ha', hf⟩ := ih hrest hb
        exact ⟨a', List.mem_cons_of_mem _ ha', hf⟩

/-- A run through a list gives something if some step does. -/
theorem Logged.ne_nil_of_filterMapM {bs : List β} (h : (xs.filterMapM f).outcome = .ok bs)
    {a : α} (ha : a ∈ xs) {b : β} (hb : (f a).outcome = .ok (some b)) : bs ≠ [] := by
  induction xs generalizing bs with
  | nil => exact absurd ha List.not_mem_nil
  | cons x xs ih =>
    rw [List.filterMapM_cons] at h
    obtain ⟨first, hfirst, h⟩ := Logged.bind_eq_ok.1 h
    cases first with
    | none =>
      rcases List.mem_cons.1 ha with rfl | ha
      · exact nomatch hfirst.symm.trans hb
      · exact ih h ha
    | some c =>
      obtain ⟨rest, -, h⟩ := Logged.bind_eq_ok.1 h
      cases h
      exact List.cons_ne_nil c rest

end FilterMapM

end Faults

end PlotGrammar
