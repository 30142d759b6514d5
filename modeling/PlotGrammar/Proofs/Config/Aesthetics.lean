import PlotGrammar.Proofs.Config.Options
import PlotGrammar.Proofs.Mapping.Entries

/-!
# Aesthetics blocks

A block of aesthetics is a dictionary with an entry for each channel it says something of.
`Config.Spells` says what an entry has to look like, and which binding it stands for, and
`Config.Sound` what a block has to look like: its keys name different channels, and its entries
spell bindings.

`Mapping.ofConfig_accepts`: of the dictionaries with string keys, the sound ones are read. The
mapping holds what the entries state (`Config.States`), so that their order makes no difference. All
others are refused, unless the first entry that spells no binding is one whose refusal has no
wording (`Config.Unworded`, `Config.CutShort`): then a fault ends the reading.

Reading is done in two passes, one over the entries (`Config.binding_eq_ok`) and one over the names
(`Mapping.ofEntries_eq_ok`). `forall₂_iff_exists_between` makes one of them.
-/

namespace PlotGrammar

/-- A value names a channel: it is a string that spells the channel's own name or an alternative
one. -/
def Channel.NamedBy (name : Value) (c : Channel) : Prop :=
  ∃ s, name.characters? = some s ∧ (s = c.name ∨ (s, c.name) ∈ Channel.aliases)

theorem Channel.ofValue_eq_ok {name : Value} {c : Channel}
    (h : name.characters?.isSome = true) : ofValue name = .ok c ↔ NamedBy name c := by
  obtain ⟨s, hs⟩ := Option.isSome_iff_exists.1 h
  unfold NamedBy
  rw [ofValue_of_characters hs, hs]
  simp only [Option.some.injEq, exists_eq_left', ← parse?_eq_some]
  cases parse? s with
  | none => exact ⟨fun h => (nomatch h), fun h => (nomatch h)⟩
  | some d => exact ⟨fun h => by cases h; rfl, fun h => by cases h; rfl⟩

/-- The member of a vocabulary that a value is, if it is one. -/
def Value.member? : Value → Option Member
  | member m => some m
  | _ => none

theorem Value.given?_isSome {v : Value} : v.given?.isSome = true ↔ v ≠ .null := by
  cases v <;> simp [Value.given?]

theorem Binding.ofColumnName_eq_ok {v : Value} {b : Binding} :
    ofColumnName v = .ok b ↔
      ∃ s, v.characters? = some s ∧ Text.allBlank s = false ∧ b = .column s v.member? := by
  -- texts and members are read alike, by their characters
  have hnamed : ∀ s member, (if Text.allBlank s = true then .error (.misuse (.blankColumn v))
      else .ok (.column s member) : Except Failure Binding) = .ok b ↔
        Text.allBlank s = false ∧ b = .column s member := by
    intro s member
    cases Text.allBlank s with
    | false => exact ⟨fun h => by cases h; exact ⟨rfl, rfl⟩, fun h => h.2 ▸ rfl⟩
    | true =>
      constructor
      · intro h
        cases h
      · rintro ⟨h, -⟩
        cases h
  cases v with
  | text s => exact (hnamed s none).trans (by simp [Value.characters?, Value.member?])
  | member m => exact (hnamed m.name (some m)).trans (by simp [Value.characters?, Value.member?])
  | _ =>
    constructor
    · intro h
      cases h
    · rintro ⟨_, h, -⟩
      cases h

/-- The one rule that a column's name can break. -/
theorem Binding.eq_of_ofColumnName_eq_error {v : Value} {e : Failure}
    (h : ofColumnName v = .error e) : e = .misuse (.blankColumn v) := by
  revert e
  change FailsOnly (· = .misuse (.blankColumn v)) (ofColumnName v)
  unfold ofColumnName
  split
  · exact .ite (fun _ => .error rfl) fun _ => .ok _
  · exact .ite (fun _ => .error rfl) fun _ => .ok _
  · exact .error rfl

theorem Channel.NamedBy.unique {name : Value} {c d : Channel} (hc : NamedBy name c)
    (hd : NamedBy name d) : c = d := by
  obtain ⟨s, hs, hc⟩ := hc
  obtain ⟨s', hs', hd⟩ := hd
  cases hs.symm.trans hs'
  exact Option.some.inj ((parse?_eq_some.2 hc).symm.trans (parse?_eq_some.2 hd))

/-! ### Lists read item by item -/

section Lists

variable {α β γ : Type} {R : α → β → Prop}

theorem exists_left_of_forall₂ {xs : List α} {ys : List β} (h : List.Forall₂ R xs ys) {y : β}
    (hy : y ∈ ys) : ∃ x ∈ xs, R x y := by
  induction h with
  | nil => exact absurd hy List.not_mem_nil
  | cons hfirst _ ih =>
    rcases List.mem_cons.1 hy with rfl | hy
    · exact ⟨_, List.mem_cons_self, hfirst⟩
    · obtain ⟨x, hx, hxy⟩ := ih hy
      exact ⟨x, List.mem_cons_of_mem _ hx, hxy⟩

theorem exists_right_of_forall₂ {xs : List α} {ys : List β} (h : List.Forall₂ R xs ys) {x : α}
    (hx : x ∈ xs) : ∃ y ∈ ys, R x y :=
  exists_left_of_forall₂ (R := fun y x => R x y) h.flip hx

/-- A list is read in two passes as it is read in one. -/
theorem forall₂_iff_exists_between {S : β → γ → Prop} {T : α → γ → Prop} {xs : List α}
    {zs : List γ} (h : ∀ x ∈ xs, ∀ z, T x z ↔ ∃ y, R x y ∧ S y z) :
    List.Forall₂ T xs zs ↔ ∃ ys, List.Forall₂ R xs ys ∧ List.Forall₂ S ys zs := by
  -- induction on the list that is read, the reading being split at its first item
  induction xs generalizing zs with
  | nil =>
    constructor
    · intro hnil
      cases hnil
      exact ⟨[], .nil, .nil⟩
    · rintro ⟨ys, hys, hzs⟩
      cases hys
      cases hzs
      exact .nil
  | cons x xs ih =>
    obtain ⟨hx, hrest⟩ := List.forall_mem_cons.1 h
    constructor
    · intro hcons
      cases hcons with
      | cons hfirst hzs =>
        obtain ⟨y, hxy, hyz⟩ := (hx _).1 hfirst
        obtain ⟨ys, hys, hyzs⟩ := (ih hrest).1 hzs
        exact ⟨y :: ys, .cons hxy hys, .cons hyz hyzs⟩
    · rintro ⟨ys, hys, hzs⟩
      cases hys with
      | cons hxy hys =>
        cases hzs with
        | cons hyz hyzs => exact .cons ((hx _).2 ⟨_, hxy, hyz⟩) ((ih hrest).2 ⟨_, hys, hyzs⟩)

theorem mapM_eq_ok {ε : Type} {f : α → Except ε β} {xs : List α} {ys : List β} :
    xs.mapM f = .ok ys ↔ List.Forall₂ (fun x y => f x = .ok y) xs ys := by
  -- a run has a result if its first step has one and the run of the rest has one
  induction xs generalizing ys with
  | nil =>
    constructor
    · intro h
      cases h
      exact .nil
    · intro h
      cases h
      rfl
  | cons x xs ih =>
    rw [List.mapM_cons, bind_eq_ok]
    constructor
    · rintro ⟨y, hy, h⟩
      obtain ⟨ys, hys, h⟩ := bind_eq_ok.1 h
      cases h
      exact .cons hy (ih.1 hys)
    · intro h
      cases h with
      | cons hy hys => exact ⟨_, hy, bind_eq_ok.2 ⟨_, ih.2 hys, rfl⟩⟩

end Lists

namespace Config

/-- What the entry of a channel says. It is a dictionary without unknown keys in which one of three
is given and the other two are not: a `field`, which has to be a string that is not blank, a
`value`, or, where it is allowed, a removal. A field or value that is null is not given, nor is a
removal that does not count as true. -/
inductive Spells (mayRemove : Bool) : Value → Binding → Prop
  | column {own : List (Value × Value)} {s : String} (known : Known (own.map (·.1)) bindingKeys)
      (string : (Value.get own "field").characters? = some s) (notBlank : Text.allBlank s = false)
      (value : Value.get own "value" = .null)
      (removed : (Value.get own "removed").isTruthy = false) :
      Spells mayRemove (.dict own) (.column s (Value.get own "field").member?)
  | constant {own : List (Value × Value)} (known : Known (own.map (·.1)) bindingKeys)
      (field : Value.get own "field" = .null) (value : Value.get own "value" ≠ .null)
      (removed : (Value.get own "removed").isTruthy = false) :
      Spells mayRemove (.dict own) (.constant (Value.get own "value"))
  | removal {own : List (Value × Value)} (known : Known (own.map (·.1)) bindingKeys)
      (field : Value.get own "field" = .null) (value : Value.get own "value" = .null)
      (removed : (Value.get own "removed").isTruthy = true) (allowed : mayRemove = true) :
      Spells mayRemove (.dict own) .removed

/-- What an entry says is refused, and the refusal would have to write out an integer that is too
long. The entry is no dictionary, or the only one of the three that it gives is a field. -/
inductive Unworded : Value → Prop
  | entry {v : Value} (shape : ∀ own, v ≠ .dict own) (unwritable : v.isWritable = false) :
      Unworded v
  | field {own : List (Value × Value)} (known : Known (own.map (·.1)) bindingKeys)
      (value : Value.get own "value" = .null)
      (removed : (Value.get own "removed").isTruthy = false)
      (unwritable : (Value.get own "field").isWritable = false) : Unworded (.dict own)

section Binding

variable {own : List (Value × Value)} {channel v : Value} {mayRemove : Bool} {b : Binding}

theorem chosenKeys_eq (own : List (Value × Value)) :
    chosenKeys own =
      (if (Value.get own "field").given?.isSome then ["field"] else []) ++
        (if (Value.get own "value").given?.isSome then ["value"] else []) ++
        (if (Value.get own "removed").isTruthy then ["removed"] else []) := by
  unfold chosenKeys
  rw [List.filter_cons, List.filter_cons, List.filter_nil]
  cases (Value.get own "field").given?.isSome <;>
    cases (Value.get own "value").given?.isSome <;> rfl

/-- One key alone is chosen. -/
theorem chosenKeys_eq_singleton {key : String} (h : key ∈ bindingKeys) :
    chosenKeys own = [key] ↔
      (Value.get own "field" ≠ .null ↔ key = "field") ∧
        (Value.get own "value" ≠ .null ↔ key = "value") ∧
        ((Value.get own "removed").isTruthy = true ↔ key = "removed") := by
  rw [chosenKeys_eq, ← Value.given?_isSome, ← Value.given?_isSome]
  simp only [bindingKeys, List.mem_cons, List.not_mem_nil, or_false] at h
  rcases h with rfl | rfl | rfl <;> cases (Value.get own "field").given?.isSome <;>
    cases (Value.get own "value").given?.isSome <;>
    cases (Value.get own "removed").isTruthy <;> simp

/-- An entry is read as a binding exactly if it spells the binding. -/
theorem binding_eq_ok : binding channel v mayRemove = .ok b ↔ Spells mayRemove v b := by
  cases v with
  | dict own =>
    unfold binding
    rw [bind_eq_ok]
    constructor
    · rintro ⟨⟨⟩, hknown, h⟩
      have known := refuseUnknown_eq_ok.1 hknown
      -- what an entry says depends on which one of the three keys is chosen in it
      split at h
      · next hchosen =>
        obtain ⟨-, value, removed⟩ := (chosenKeys_eq_singleton (by decide)).1 hchosen
        simp only [String.reduceEq, iff_false, not_not, Bool.not_eq_true] at value removed
        obtain ⟨s, string, notBlank, rfl⟩ := Binding.ofColumnName_eq_ok.1 h
        exact .column known string notBlank value removed
      · next hchosen =>
        obtain ⟨field, value, removed⟩ := (chosenKeys_eq_singleton (by decide)).1 hchosen
        simp only [String.reduceEq, iff_false, not_not, Bool.not_eq_true] at field removed
        cases h
        exact .constant known field (value.2 rfl) removed
      · next hchosen =>
        obtain ⟨field, value, removed⟩ := (chosenKeys_eq_singleton (by decide)).1 hchosen
        simp only [String.reduceEq, iff_false, iff_true, not_not] at field value removed
        split at h
        · next allowed =>
          cases h
          exact .removal known field value removed allowed
        · exact nomatch h
      · exact nomatch h
    -- and back: in each case exactly one key is chosen, so the same branch is taken
    · intro h
      cases h with
      | column known string notBlank value removed =>
        have field : Value.get own "field" ≠ .null := fun h => by rw [h] at string; cases string
        have hchosen : chosenKeys own = ["field"] :=
          (chosenKeys_eq_singleton (by decide)).2 (by simp [field, value, removed])
        refine ⟨(), refuseUnknown_eq_ok.2 known, ?_⟩
        rw [hchosen]
        exact Binding.ofColumnName_eq_ok.2 ⟨_, string, notBlank, rfl⟩
      | constant known field value removed =>
        have hchosen : chosenKeys own = ["value"] :=
          (chosenKeys_eq_singleton (by decide)).2 (by simp [field, value, removed])
        refine ⟨(), refuseUnknown_eq_ok.2 known, ?_⟩
        rw [hchosen]
        rfl
      | removal known field value removed allowed =>
        have hchosen : chosenKeys own = ["removed"] :=
          (chosenKeys_eq_singleton (by decide)).2 (by simp [field, value, removed])
        refine ⟨(), refuseUnknown_eq_ok.2 known, ?_⟩
        rw [hchosen]
        exact if_pos allowed
  | _ =>
    refine ⟨fun h => (nomatch h), fun h => ?_⟩
    cases h

/-- The refusal of an unworded entry is not worded: a fault takes its place. -/
theorem binding_of_unworded (h : Unworded v) :
    binding channel v mayRemove = .error (.fault .badValue) := by
  cases h with
  | entry shape unwritable =>
    have hrule : (Misuse.bindingShape channel v).isWritable = false := by
      simp [Misuse.isWritable, Misuse.shown, unwritable]
    cases v with
    | null => exact nomatch unwritable
    | dict own => exact absurd rfl (shape own)
    | _ => exact congrArg Except.error (Failure.misuse_of_not_isWritable hrule)
  | @field own known value removed unwritable =>
    have field : Value.get own "field" ≠ .null := fun h => by rw [h] at unwritable; cases unwritable
    have hchosen : chosenKeys own = ["field"] :=
      (chosenKeys_eq_singleton (by decide)).2 (by simp [field, value, removed])
    refine bind_eq_error.2 (Or.inr ⟨(), refuseUnknown_eq_ok.2 known, ?_⟩)
    rw [hchosen]
    cases hname : Binding.ofColumnName (Value.get own "field") with
    | ok b =>
      -- the names of columns are texts, which can be written out
      obtain ⟨s, string, -⟩ := Binding.ofColumnName_eq_ok.1 hname
      have hwritable := Value.isWritable_of_characters (Option.isSome_iff_exists.2 ⟨s, string⟩)
      exact nomatch hwritable.symm.trans unwritable
    | error e =>
      have hrule : (Misuse.blankColumn (Value.get own "field")).isWritable = false := by
        simp [Misuse.isWritable, Misuse.shown, unwritable]
      rw [Binding.eq_of_ofColumnName_eq_error hname, Failure.misuse_of_not_isWritable hrule]
      rfl

/-- Every other entry with string keys that is no binding of a channel is refused. -/
theorem binding_refuses (hchannel : channel.characters?.isSome = true)
    (h : v.isStringKeyed = true) (hworded : ¬ Unworded v) :
    FailsOnly Failure.Refusal (binding channel v mayRemove) := by
  have hwritable : channel.isWritable = true := Value.isWritable_of_characters hchannel
  -- a refusal that shows nothing but the channel has a wording
  have hwords : ∀ rule : Misuse, rule.shown = [channel] → (Failure.misuse rule).Refusal :=
    fun rule hshown => Failure.refusal_misuse (by simp [Misuse.isWritable, hshown, hwritable])
  cases v with
  | null => exact .error (hwords _ rfl)
  | dict own =>
    have hnames : ∀ n ∈ own.map (·.1), n.characters?.isSome = true :=
      List.forall_mem_map.2 (Value.isStringKeyed_dict.1 h)
    refine (refuseUnknown_refuses hnames fun listed hlisted => ?_).bind fun _ hknown => ?_
    · simpa [Misuse.isWritable, Misuse.shown, hwritable] using hlisted
    split
    · next hchosen =>
      -- only the name of a column is shown, and the entry would be unworded if that is too long
      obtain ⟨-, value, removed⟩ := (chosenKeys_eq_singleton (by decide)).1 hchosen
      simp only [String.reduceEq, iff_false, not_not, Bool.not_eq_true] at value removed
      intro e he
      rw [Binding.eq_of_ofColumnName_eq_error he]
      refine Failure.refusal_misuse ?_
      by_contra hunwritable
      exact hworded (.field (refuseUnknown_eq_ok.1 hknown) value removed
        (by simpa [Misuse.isWritable, Misuse.shown] using hunwritable))
    · exact .pure _
    · exact .ite (fun _ => .pure _) fun _ => .throw (hwords _ rfl)
    · exact .throw (hwords _ rfl)
  | _ =>
    refine .error (Failure.refusal_misuse ?_)
    by_contra hunwritable
    exact hworded (.entry nofun
      (by simpa [Misuse.isWritable, Misuse.shown, hwritable] using hunwritable))

end Binding

/-! ### Blocks -/

/-- An entry of a block says that a channel has a binding. -/
def States (mayRemove : Bool) (entry : Value × Value) (bound : Channel × Binding) : Prop :=
  bound.1.NamedBy entry.1 ∧ Spells mayRemove entry.2 bound.2

/-- Every entry of a block names a channel and spells a binding, and no two name the same
channel. -/
structure Sound (mayRemove : Bool) (own : List (Value × Value)) : Prop where
  named : ∀ e ∈ own, ∃ c, Channel.NamedBy e.1 c
  spelled : ∀ e ∈ own, ∃ b, Spells mayRemove e.2 b
  apart : own.Pairwise fun e f => ∀ c, Channel.NamedBy e.1 c → ¬ Channel.NamedBy f.1 c

/-- The first entry of a block that spells no binding is one whose refusal has no wording. -/
def CutShort (mayRemove : Bool) (own : List (Value × Value)) : Prop :=
  ∃ before entry after, own = before ++ entry :: after ∧
    (∀ e ∈ before, ∃ b, Spells mayRemove e.2 b) ∧ Unworded entry.2

theorem States.unique {mayRemove : Bool} {entry : Value × Value} {x y : Channel × Binding}
    (hx : States mayRemove entry x) (hy : States mayRemove entry y) : x = y := by
  refine Prod.ext (Channel.NamedBy.unique hx.1 hy.1) ?_
  have hspelled : ∀ b, Spells mayRemove entry.2 b → binding .null entry.2 mayRemove = .ok b :=
    fun b hb => binding_eq_ok.2 hb
  exact Except.ok.inj ((hspelled _ hx.2).symm.trans (hspelled _ hy.2))

theorem Sound.perm {mayRemove : Bool} {own own' : List (Value × Value)} (h : Sound mayRemove own)
    (hperm : own'.Perm own) : Sound mayRemove own' where
  named e he := h.named e (hperm.mem_iff.1 he)
  spelled e he := h.spelled e (hperm.mem_iff.1 he)
  apart := hperm.symm.pairwise h.apart fun hef c hf he => hef c he hf

section Blocks

variable {mayRemove : Bool} {own : List (Value × Value)} {bound : List (Channel × Binding)}

/-- What the entries of a block state, where no two state something of one channel. -/
theorem sound_iff :
    Sound mayRemove own ↔
      ∃ bound, List.Forall₂ (States mayRemove) own bound ∧ (bound.map (·.1)).Nodup := by
  induction own with
  | nil => exact ⟨fun _ => ⟨[], .nil, .nil⟩, fun _ => ⟨by simp, by simp, .nil⟩⟩
  | cons e rest ih =>
    constructor
    · rintro ⟨named, spelled, apart⟩
      obtain ⟨⟨c, hc⟩, named⟩ := List.forall_mem_cons.1 named
      obtain ⟨⟨b, hb⟩, spelled⟩ := List.forall_mem_cons.1 spelled
      obtain ⟨hfirst, apart⟩ := List.pairwise_cons.1 apart
      obtain ⟨bound, hstates, hnodup⟩ := ih.1 ⟨named, spelled, apart⟩
      refine ⟨(c, b) :: bound, .cons ⟨hc, hb⟩ hstates, List.nodup_cons.2 ⟨?_, hnodup⟩⟩
      -- a later entry for the same channel would name it as well
      intro hmem
      obtain ⟨x, hx, rfl⟩ := List.mem_map.1 hmem
      obtain ⟨f, hf, hstate⟩ := exists_left_of_forall₂ hstates hx
      exact hfirst f hf x.1 hc hstate.1
    · rintro ⟨bound, hstates, hnodup⟩
      cases hstates with
      | cons hstate hstates =>
        obtain ⟨hfirst, hnodup⟩ := List.nodup_cons.1 hnodup
        obtain ⟨named, spelled, apart⟩ := ih.2 ⟨_, hstates, hnodup⟩
        refine ⟨List.forall_mem_cons.2 ⟨⟨_, hstate.1⟩, named⟩,
          List.forall_mem_cons.2 ⟨⟨_, hstate.2⟩, spelled⟩, List.pairwise_cons.2 ⟨?_, apart⟩⟩
        intro f hf c hc hcf
        obtain ⟨x, hx, hstate'⟩ := exists_right_of_forall₂ hstates hf
        have hsame := (Channel.NamedBy.unique hstate.1 hc).trans
          (Channel.NamedBy.unique hcf hstate'.1)
        exact hfirst (List.mem_map.2 ⟨x, hx, hsame.symm⟩)

end Blocks

end Config

namespace Mapping

section Block

variable {mayRemove : Bool} {own : List (Value × Value)} {m : Mapping}

theorem ofConfig_dict (own : List (Value × Value)) (mayRemove : Bool) :
    ofConfig (.dict own) mayRemove =
      (own.mapM fun e => do pure (e.1, Offer.binding (← Config.binding e.1 e.2 mayRemove))) >>=
        ofEntries := by
  cases own <;> rfl

/-- A block with string keys makes the mapping that its entries state. -/
theorem ofConfig_eq_ok (h : (Value.dict own).isStringKeyed = true) :
    ofConfig (.dict own) mayRemove = .ok m ↔
      ∃ bound, List.Forall₂ (Config.States mayRemove) own bound ∧ (bound.map (·.1)).Nodup ∧
        ∀ c b, m.binding c = some b ↔ (c, b) ∈ bound := by
  have hname := Value.isStringKeyed_dict.1 h
  -- an entry states what its two passes read
  have hread : ∀ e ∈ own, ∀ x, Config.States mayRemove e x ↔ ∃ y,
      (do pure (e.1, Offer.binding (← Config.binding e.1 e.2 mayRemove))) = Except.ok y ∧
        Reads y x := by
    intro e he x
    constructor
    · rintro ⟨hnamed, hspells⟩
      exact ⟨(e.1, .binding x.2), bind_eq_ok.2 ⟨x.2, Config.binding_eq_ok.2 hspells, rfl⟩,
        (Channel.ofValue_eq_ok (hname e he)).2 hnamed, rfl⟩
    · rintro ⟨y, hy, hnamed, hoffer⟩
      obtain ⟨b, hb, hy⟩ := bind_eq_ok.1 hy
      cases hy
      cases hoffer
      exact ⟨(Channel.ofValue_eq_ok (hname e he)).1 hnamed, Config.binding_eq_ok.1 hb⟩
  rw [ofConfig_dict, bind_eq_ok]
  simp only [mapM_eq_ok, ofEntries_eq_ok]
  constructor
  · rintro ⟨ys, hys, bound, hreads, hnodup, hm⟩
    exact ⟨bound, (forall₂_iff_exists_between hread).2 ⟨ys, hys, hreads⟩, hnodup, hm⟩
  · rintro ⟨bound, hstates, hnodup, hm⟩
    obtain ⟨ys, hys, hreads⟩ := (forall₂_iff_exists_between hread).1 hstates
    exact ⟨ys, hys, bound, hreads, hnodup, hm⟩

/-- The entries of a block are read in turn, and the first one that spells no binding ends it. -/
theorem readEntries_eq_error {e : Failure} :
    (own.mapM fun e => do pure (e.1, Offer.binding (← Config.binding e.1 e.2 mayRemove))) =
        .error e ↔
      ∃ before entry after, own = before ++ entry :: after ∧
        (∀ e ∈ before, ∃ b, Config.Spells mayRemove e.2 b) ∧
        Config.binding entry.1 entry.2 mayRemove = .error e := by
  rw [mapM_eq_error]
  refine exists₃_congr fun before entry after => and_congr_right fun _ => and_congr ?_ ?_
  · refine forall₂_congr fun e _ => ?_
    simp only [bind_eq_ok, Config.binding_eq_ok]
    exact ⟨fun ⟨_, b, hb, _⟩ => ⟨b, hb⟩, fun ⟨b, hb⟩ => ⟨_, b, hb, rfl⟩⟩
  · rw [bind_eq_error]
    exact or_iff_left fun ⟨_, _, h⟩ => nomatch h

/-- A block with string keys, inside as well, fails only by being refused, unless it is cut
short. -/
theorem ofConfig_refuses (h : (Value.dict own).isStringKeyed = true)
    (hinner : ∀ e ∈ own, e.2.isStringKeyed = true) (hcut : ¬ Config.CutShort mayRemove own) :
    FailsOnly Failure.Refusal (ofConfig (.dict own) mayRemove) := by
  rw [ofConfig_dict]
  refine FailsOnly.bind (fun e he => ?_) fun entries hentries => .foldlM (fun m e he => ?_) _
  -- the first entry without a binding is worded, or the block would be cut short there
  · obtain ⟨before, entry, after, rfl, hbefore, he⟩ := readEntries_eq_error.1 he
    have hentry : entry ∈ before ++ entry :: after :=
      List.mem_append_right _ List.mem_cons_self
    exact Config.binding_refuses (Value.isStringKeyed_dict.1 h entry hentry) (hinner entry hentry)
      (fun hunworded => hcut ⟨before, entry, after, rfl, hbefore, hunworded⟩) e he
  · -- the names that are added are the keys of the block
    obtain ⟨e', he', hread⟩ := exists_left_of_forall₂ (mapM_eq_ok.1 hentries) he
    obtain ⟨b, -, hread⟩ := bind_eq_ok.1 hread
    cases hread
    have hname := Value.isStringKeyed_dict.1 h e' he'
    obtain ⟨s, hs⟩ := Option.isSome_iff_exists.1 hname
    refine FailsOnly.bind ?_ fun c _ =>
      .ite (fun _ => .error (Failure.refusal_misuse rfl)) fun _ => .ok _
    rw [Channel.ofValue_of_characters hs]
    split
    · exact .ok _
    · refine .error (Failure.refusal_misuse ?_)
      simp [Misuse.isWritable, Misuse.shown, Value.isWritable_of_characters hname]

/-- The fault ends the reading of the blocks that are cut short, and of no others. -/
theorem ofConfig_eq_fault_iff (h : (Value.dict own).isStringKeyed = true)
    (hinner : ∀ e ∈ own, e.2.isStringKeyed = true) :
    ofConfig (.dict own) mayRemove = .error (.fault .badValue) ↔
      Config.CutShort mayRemove own := by
  constructor
  · intro hfault
    by_contra hcut
    obtain ⟨rule, hrule⟩ := ofConfig_refuses h hinner hcut _ hfault
    exact nomatch hrule
  · rintro ⟨before, entry, after, hown, hbefore, hunworded⟩
    rw [ofConfig_dict]
    exact bind_eq_error.2 (Or.inl (readEntries_eq_error.2
      ⟨before, entry, after, hown, hbefore, Config.binding_of_unworded hunworded⟩))

theorem exists_ofConfig (h : (Value.dict own).isStringKeyed = true) :
    (∃ m, ofConfig (.dict own) mayRemove = .ok m) ↔ Config.Sound mayRemove own := by
  rw [Config.sound_iff]
  constructor
  · rintro ⟨m, hm⟩
    obtain ⟨bound, hstates, hnodup, -⟩ := (ofConfig_eq_ok h).1 hm
    exact ⟨bound, hstates, hnodup⟩
  · rintro ⟨bound, hstates, hnodup⟩
    obtain ⟨m, hm⟩ := exists_holding hnodup
    exact ⟨m, (ofConfig_eq_ok h).2 ⟨bound, hstates, hnodup, hm⟩⟩

/-- The mapping of a block holds what the entries of the block state, and nothing else. -/
theorem binding_of_ofConfig (h : (Value.dict own).isStringKeyed = true)
    (hm : ofConfig (.dict own) mayRemove = .ok m) {c : Channel} {b : Binding} :
    m.binding c = some b ↔ ∃ e ∈ own, Config.States mayRemove e (c, b) := by
  obtain ⟨bound, hstates, -, hbinding⟩ := (ofConfig_eq_ok h).1 hm
  rw [hbinding]
  constructor
  · exact exists_left_of_forall₂ hstates
  · rintro ⟨e, he, hstate⟩
    obtain ⟨x, hx, hstate'⟩ := exists_right_of_forall₂ hstates he
    exact hstate.unique hstate' ▸ hx

/-- The order of the entries of a block makes no difference. -/
theorem ofConfig_perm {own' : List (Value × Value)} (h : (Value.dict own).isStringKeyed = true)
    (hperm : own'.Perm own) (hm : ofConfig (.dict own) mayRemove = .ok m) :
    ofConfig (.dict own') mayRemove = .ok m := by
  have h' : (Value.dict own').isStringKeyed = true :=
    Value.isStringKeyed_dict.2 fun e he => Value.isStringKeyed_dict.1 h e (hperm.mem_iff.1 he)
  obtain ⟨m', hm'⟩ := (exists_ofConfig h').2 (((exists_ofConfig h).1 ⟨m, hm⟩).perm hperm)
  -- membership of an entry is all that the bindings depend on
  refine hm'.trans (congrArg Except.ok (ext_of_mem fun c b => ?_))
  rw [binding_of_ofConfig h' hm', binding_of_ofConfig h hm]
  simp only [hperm.mem_iff]

/-- **A block of aesthetics with string keys is read exactly if it is sound.** Its mapping holds
what the entries state, whatever their order. A block that is not sound is refused, except that a
fault ends the reading of one that is cut short. -/
theorem ofConfig_accepts (own : List (Value × Value)) (mayRemove : Bool)
    (h : (Value.dict own).isStringKeyed = true) (hinner : ∀ e ∈ own, e.2.isStringKeyed = true) :
    ((∃ m, ofConfig (.dict own) mayRemove = .ok m) ↔ Config.Sound mayRemove own) ∧
      (∀ m, ofConfig (.dict own) mayRemove = .ok m →
        (∀ c b, m.binding c = some b ↔ ∃ e ∈ own, Config.States mayRemove e (c, b)) ∧
          ∀ own', own'.Perm own → ofConfig (.dict own') mayRemove = .ok m) ∧
      (ofConfig (.dict own) mayRemove = .error (.fault .badValue) ↔
        Config.CutShort mayRemove own) ∧
      (¬ Config.Sound mayRemove own → ¬ Config.CutShort mayRemove own →
        ∃ rule, ofConfig (.dict own) mayRemove = .error (.problem (.misuse rule))) := by
  refine ⟨exists_ofConfig h, fun m hm => ⟨fun c b => binding_of_ofConfig h hm,
    fun own' hperm => ofConfig_perm h hperm hm⟩, ofConfig_eq_fault_iff h hinner,
    fun hunsound hcut => ?_⟩
  cases hresult : ofConfig (.dict own) mayRemove with
  | ok m => exact absurd ((exists_ofConfig h).1 ⟨m, hresult⟩) hunsound
  | error e =>
    obtain ⟨rule, rfl⟩ := ofConfig_refuses h hinner hcut e hresult
    exact ⟨rule, rfl⟩

end Block

/-- A block for a layer: a dash that is off, a column with a null beside it, and a removal. -/
def dashedBlock : List (Value × Value) :=
  [(.text "lty", .dict [(.text "value", .bool false)]),
    (.text "x", .dict [(.text "field", .text "u"), (.text "value", .null)]),
    (.text "fill", .dict [(.text "removed", .int 1)])]

/-- The block is read where removals are allowed, and refused where they are not. -/
theorem ofConfig_accepts_dashedBlock :
    (Value.dict dashedBlock).isStringKeyed = true ∧
      (∀ e ∈ dashedBlock, e.2.isStringKeyed = true) ∧
      Config.Sound true dashedBlock ∧ ¬ Config.Sound false dashedBlock := by
  have hkeyed : (Value.dict dashedBlock).isStringKeyed = true := by decide
  have hinner : ∀ e ∈ dashedBlock, e.2.isStringKeyed = true := by decide
  refine ⟨hkeyed, hinner, (ofConfig_accepts dashedBlock true hkeyed hinner).1.1 ⟨_, rfl⟩, ?_⟩
  intro hsound
  obtain ⟨m, hm⟩ := (ofConfig_accepts dashedBlock false hkeyed hinner).1.2 hsound
  exact nomatch hm

/-- A block that binds `x` to what stands for its entry. -/
def loneEntry (v : Value) : List (Value × Value) :=
  [(.text "x", v)]

/-- A refusal that would have to write out an integer of 4301 digits is not reported: the integer
stands in the place of the entry, or in that of the column's name. -/
theorem ofConfig_long_integer :
    (¬ Config.Sound false (loneEntry (.int (10 ^ 4300)))) ∧
      ofConfig (.dict (loneEntry (.int (10 ^ 4300)))) false = .error (.fault .badValue) ∧
      (¬ Config.Sound false (loneEntry (.dict [(.text "field", .int (10 ^ 4300))]))) ∧
      ofConfig (.dict (loneEntry (.dict [(.text "field", .int (10 ^ 4300))]))) false =
        .error (.fault .badValue) := by
  -- 4301 digits are one too many
  have hlong : (Value.int (10 ^ 4300)).isWritable = false :=
    Bool.eq_false_iff.2 fun h => absurd (Value.isWritable_int.1 h) (by decide +kernel)
  have hcut : ∀ v, Config.Unworded v → Config.CutShort false (loneEntry v) := fun v hv =>
    ⟨[], _, [], rfl, fun _ h => absurd h List.not_mem_nil, hv⟩
  -- the entry is the first one, so the reading ends with it
  have hfault : ∀ v, v.isStringKeyed = true → Config.Unworded v →
      ofConfig (.dict (loneEntry v)) false = .error (.fault .badValue) := fun v hkeyed hv =>
    (ofConfig_eq_fault_iff rfl (List.forall_mem_singleton.2 hkeyed)).2 (hcut v hv)
  have hunsound : ∀ v, v.isStringKeyed = true → Config.Unworded v →
      ¬ Config.Sound false (loneEntry v) := fun v hkeyed hv hsound => by
    obtain ⟨m, hm⟩ := (exists_ofConfig rfl).2 hsound
    exact nomatch hm.symm.trans (hfault v hkeyed hv)
  have hentry : Config.Unworded (.int (10 ^ 4300)) := .entry nofun hlong
  have hfield : Config.Unworded (.dict [(.text "field", .int (10 ^ 4300))]) :=
    .field (show Config.Known [.text "field"] _ by decide) rfl rfl hlong
  exact ⟨hunsound _ rfl hentry, hfault _ rfl hentry, hunsound _ rfl hfield, hfault _ rfl hfield⟩

end Mapping

end PlotGrammar
