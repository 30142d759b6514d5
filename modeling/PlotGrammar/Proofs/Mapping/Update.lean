import PlotGrammar.Proofs.Mapping.Override

/-!
# Updates from entries

A mapping is updated with entries as it is made of them, with one difference: an entry may stand in
the place of an earlier one for the same channel before the entries are looked at as a whole. So an
update takes all entries that make a mapping, and some that make none.

* `Mapping.update_eq_ok`: an update asks for names of channels and, for every channel, that the last
  entry offers a binding (`Mapping.Admitted`).
* `Mapping.exists_ofEntries_iff`: a mapping asks besides that no two names stand for one channel
  (`Mapping.NamesApart`).
* `Mapping.update_agrees` compares the two. Where entries make a mapping, the update binds what the
  mapping binds, whatever the order of the entries.
-/

namespace PlotGrammar

/-- The binding that is offered, if it is one. -/
def Offer.binding? : Offer → Option Binding
  | binding b => some b
  | other _ => none

namespace Mapping

/-- The offers of entries, each under the channel that its name stands for. -/
def named (entries : List (Value × Offer)) : List (Channel × Offer) :=
  entries.filterMap fun e => (Channel.ofValue e.1).toOption.map fun c => (c, e.2)

/-- What is offered last for a channel. -/
def lastOffer? (offers : List (Channel × Offer)) (c : Channel) : Option Offer :=
  offers.foldr (fun e later => later.or (if e.1 = c then some e.2 else none)) none

/-- The binding that entries offer last for a channel. -/
def lastBinding? (entries : List (Value × Offer)) (c : Channel) : Option Binding :=
  (lastOffer? (named entries) c).bind Offer.binding?

/-- All names stand for channels, and what is offered last for a channel is a binding. -/
structure Admitted (entries : List (Value × Offer)) : Prop where
  channels : ∀ e ∈ entries, ∃ c, Channel.ofValue e.1 = .ok c
  bindings : ∀ c o, lastOffer? (named entries) c = some o → ∃ b, o = .binding b

/-- No two names stand for one channel. -/
def NamesApart (entries : List (Value × Offer)) : Prop :=
  ((named entries).map (·.1)).Nodup

/-! ### The last offer -/

section LastOffer

variable {offers : List (Channel × Offer)} {c : Channel} {o : Offer}

theorem lastOffer?_cons (first : Channel × Offer) (rest : List (Channel × Offer)) (c : Channel) :
    lastOffer? (first :: rest) c =
      (lastOffer? rest c).or (if first.1 = c then some first.2 else none) := rfl

theorem lastOffer?_eq_none : lastOffer? offers c = none ↔ c ∉ offers.map (·.1) := by
  induction offers with
  | nil => exact ⟨fun _ => List.not_mem_nil, fun _ => rfl⟩
  | cons first rest ih =>
    rw [lastOffer?_cons, Option.or_eq_none_iff, ih, List.map_cons, List.mem_cons, not_or, and_comm,
      eq_comm (a := c)]
    refine and_congr_left fun _ => ?_
    split
    · next h => exact ⟨fun hnone => (nomatch hnone), fun hne => absurd h hne⟩
    · next h => exact ⟨fun _ => h, fun _ => rfl⟩

/-- If no channel is offered anything twice, every offer is the last one. -/
theorem lastOffer?_eq_some (h : (offers.map (·.1)).Nodup) :
    lastOffer? offers c = some o ↔ (c, o) ∈ offers := by
  -- from the front: with the channels apart, the last offer is the only one
  induction offers with
  | nil => exact ⟨fun h => (nomatch h), fun h => absurd h List.not_mem_nil⟩
  | cons first rest ih =>
    obtain ⟨d, o'⟩ := first
    obtain ⟨hd, hrest⟩ := List.nodup_cons.1 h
    rw [lastOffer?_cons, List.mem_cons, ← ih hrest, Prod.mk.injEq]
    by_cases hdc : d = c
    · subst hdc
      rw [if_pos rfl, lastOffer?_eq_none.2 hd, Option.none_or, Option.some.injEq]
      simpa using eq_comm
    · rw [if_neg hdc, Option.or_none]
      exact ⟨Or.inr, fun h => h.resolve_left fun h => hdc h.1.symm⟩

theorem lastOffer?_perm {offers' : List (Channel × Offer)} (h : (offers.map (·.1)).Nodup)
    (hperm : offers'.Perm offers) (c : Channel) : lastOffer? offers' c = lastOffer? offers c := by
  have h' : (offers'.map (·.1)).Nodup := (hperm.map _).nodup_iff.2 h
  ext o
  rw [lastOffer?_eq_some h', lastOffer?_eq_some h, hperm.mem_iff]

/-- Of what is put in the place of channels one after the other, what is offered last stays. -/
theorem mem_foldl_place_iff {entries : List (Channel × Offer)} :
    (c, o) ∈ offers.foldl (fun es e => place es e.1 e.2) entries ↔
      lastOffer? offers c = some o ∨ lastOffer? offers c = none ∧ (c, o) ∈ entries := by
  induction offers generalizing entries with
  | nil => simp [lastOffer?]
  | cons first rest ih =>
    rw [List.foldl_cons, ih, mem_place, lastOffer?_cons]
    -- a later offer decides, and without one it is this offer or what was there
    cases hlast : lastOffer? rest c with
    | some o' => simp
    | none =>
      by_cases hc : first.1 = c
      · rw [if_pos hc.symm, if_pos hc]
        simpa using eq_comm
      · rw [if_neg fun h => hc h.symm, if_neg hc]
        simp

end LastOffer

/-! ### Entries under their channels -/

section Named

variable {entries : List (Value × Offer)}

theorem named_cons_ok {e : Value × Offer} {c : Channel} (h : Channel.ofValue e.1 = .ok c)
    (rest : List (Value × Offer)) : named (e :: rest) = (c, e.2) :: named rest := by
  exact List.filterMap_cons_some (by rw [h]; rfl)

theorem channels_of_reads {bound : List (Channel × Binding)}
    (h : List.Forall₂ Reads entries bound) : ∀ e ∈ entries, ∃ c, Channel.ofValue e.1 = .ok c := by
  induction h with
  | nil => exact fun e he => absurd he List.not_mem_nil
  | @cons e x _ _ hread _ ih => exact List.forall_mem_cons.2 ⟨⟨x.1, hread.name⟩, ih⟩

/-- The entries of a mapping stand under their channels. -/
theorem named_of_reads {bound : List (Channel × Binding)} (h : List.Forall₂ Reads entries bound) :
    named entries = bound.map fun x => (x.1, .binding x.2) := by
  induction h with
  | nil => rfl
  | cons hread _ ih => rw [named_cons_ok hread.name, hread.offer, ih, List.map_cons]

/-- Entries are read if their names stand for channels and they offer bindings. -/
theorem exists_reads (hchannels : ∀ e ∈ entries, ∃ c, Channel.ofValue e.1 = .ok c)
    (hbindings : ∀ x ∈ named entries, ∃ b, x.2 = .binding b) :
    ∃ bound, List.Forall₂ Reads entries bound := by
  induction entries with
  | nil => exact ⟨[], .nil⟩
  | cons e rest ih =>
    obtain ⟨⟨c, hc⟩, hchannels⟩ := List.forall_mem_cons.1 hchannels
    rw [named_cons_ok hc] at hbindings
    obtain ⟨⟨b, hb⟩, hbindings⟩ := List.forall_mem_cons.1 hbindings
    obtain ⟨bound, hbound⟩ := ih hchannels hbindings
    exact ⟨(c, b) :: bound, .cons ⟨hc, hb⟩ hbound⟩

/-- Entries are put in the place of others under the channels that their names stand for. -/
theorem foldlM_place_eq_ok {own merged : List (Channel × Offer)} :
    entries.foldlM (fun es e => do pure (place es (← Channel.ofValue e.1) e.2)) own =
        (.ok merged : Except Failure _) ↔
      (∀ e ∈ entries, ∃ c, Channel.ofValue e.1 = .ok c) ∧
        merged = (named entries).foldl (fun es e => place es e.1 e.2) own := by
  -- induction on the entries, with what has been placed so far carried along
  induction entries generalizing own with
  | nil => simp [named, pure, Except.pure, eq_comm]
  | cons e rest ih =>
    rw [List.foldlM_cons, bind_eq_ok, List.forall_mem_cons]
    constructor
    · rintro ⟨placed, hplaced, hrest⟩
      obtain ⟨c, hc, hplaced⟩ := bind_eq_ok.1 hplaced
      cases hplaced
      obtain ⟨hchannels, rfl⟩ := ih.1 hrest
      refine ⟨⟨⟨c, hc⟩, hchannels⟩, ?_⟩
      rw [named_cons_ok hc]
      rfl
    · rintro ⟨⟨⟨c, hc⟩, hchannels⟩, rfl⟩
      refine ⟨place own c e.2, bind_eq_ok.2 ⟨c, hc, rfl⟩, ih.2 ⟨hchannels, ?_⟩⟩
      rw [named_cons_ok hc]
      rfl

/-- Entries under different channels make a mapping exactly if all of them offer bindings. -/
theorem ofEntries_channels_eq_ok {offers : List (Channel × Offer)} {m : Mapping}
    (hnodup : (offers.map (·.1)).Nodup) :
    ofEntries (offers.map fun e => (.member (.channel e.1), e.2)) = .ok m ↔
      (∀ e ∈ offers, ∃ b, e.2 = .binding b) ∧
        ∀ c b, m.binding c = some b ↔ (c, .binding b) ∈ offers := by
  refine ⟨fun h => ?_, fun h => ofEntries_of_channels hnodup h.1 h.2⟩
  obtain ⟨bound, hreads, -, hbinding⟩ := ofEntries_eq_ok.1 h
  -- a channel names itself, so that nothing but the offers is read
  have hnamed : named (offers.map fun e => (Value.member (.channel e.1), e.2)) = offers := by
    unfold named
    rw [List.filterMap_map]
    exact List.filterMap_some
  have hoffers := hnamed.symm.trans (named_of_reads hreads)
  subst hoffers
  refine ⟨fun e he => ?_, fun c b => (hbinding c b).trans ?_⟩
  · obtain ⟨x, -, rfl⟩ := List.mem_map.1 he
    exact ⟨x.2, rfl⟩
  · constructor
    · exact fun hmem => List.mem_map.2 ⟨_, hmem, rfl⟩
    · intro hmem
      obtain ⟨x, hx, heq⟩ := List.mem_map.1 hmem
      cases heq
      exact hx

end Named

/-! ### Updates and mappings -/

section Update

variable {m m' n : Mapping} {entries : List (Value × Offer)}

theorem lastBinding?_eq_some {c : Channel} {b : Binding} :
    lastBinding? entries c = some b ↔ lastOffer? (named entries) c = some (.binding b) := by
  unfold lastBinding?
  rw [Option.bind_eq_some_iff]
  constructor
  · rintro ⟨o, ho, hb⟩
    cases o with
    | binding b' =>
      cases hb
      exact ho
    | other v => exact nomatch hb
  · exact fun h => ⟨_, h, rfl⟩

/-- Where entries are admitted, what is not offered is left as it was. -/
theorem Admitted.or_eq_some (h : Admitted entries) {c : Channel} {b : Binding}
    {kept : Option Binding} : (lastBinding? entries c).or kept = some b ↔
      lastOffer? (named entries) c = some (.binding b) ∨
        lastOffer? (named entries) c = none ∧ kept = some b := by
  cases hlast : lastOffer? (named entries) c with
  | none => simp [lastBinding?, hlast]
  | some o =>
    obtain ⟨b', rfl⟩ := h.bindings c o hlast
    rw [lastBinding?_eq_some.2 hlast]
    simp

/-- **An update takes what is offered last for every channel**, which has to be a binding, and keeps
the other channels. -/
theorem update_eq_ok :
    m.update entries = .ok m' ↔
      Admitted entries ∧ ∀ c, m'.binding c = (lastBinding? entries c).or (m.binding c) := by
  have hnodup :
      (((named entries).foldl (fun es e => place es e.1 e.2) m.offered).map (·.1)).Nodup :=
    nodup_foldl_place m.nodup_offered
  -- reading the entries comes first, then binding what has been placed
  have hupdate : m.update entries = .ok m' ↔
      ∃ merged, entries.foldlM (fun es e => do pure (place es (← Channel.ofValue e.1) e.2))
        m.offered = Except.ok merged ∧
        ofEntries (merged.map fun e => (.member (.channel e.1), e.2)) = .ok m' := bind_eq_ok
  simp only [hupdate, foldlM_place_eq_ok, and_assoc, exists_and_left, exists_eq_left,
    ofEntries_channels_eq_ok hnodup]
  -- what is left at a channel is its last offer, or its old binding if there is none
  have hmem : ∀ c o, (c, o) ∈ (named entries).foldl (fun es e => place es e.1 e.2) m.offered ↔
      lastOffer? (named entries) c = some o ∨
        lastOffer? (named entries) c = none ∧ ∃ b, m.binding c = some b ∧ o = .binding b := by
    intro c o
    rw [mem_foldl_place_iff, mem_offered]
  constructor
  · rintro ⟨hchannels, hall, hbinding⟩
    have hadmitted : Admitted entries :=
      ⟨hchannels, fun c o ho => hall (c, o) ((hmem c o).2 (Or.inl ho))⟩
    refine ⟨hadmitted, fun c => Option.ext fun b => ?_⟩
    rw [hbinding, hmem, hadmitted.or_eq_some]
    simp
  · rintro ⟨hadmitted, hbinding⟩
    refine ⟨hadmitted.channels, ?_, fun c b => ?_⟩
    · rintro ⟨c, o⟩ he
      rcases (hmem c o).1 he with h | ⟨-, b, -, rfl⟩
      · exact hadmitted.bindings c o h
      · exact ⟨b, rfl⟩
    · rw [hbinding, hmem, hadmitted.or_eq_some]
      simp

/-- What makes a mapping is offered for different channels, and is held by the mapping. -/
theorem binding_of_ofEntries (h : ofEntries entries = .ok n) :
    Admitted entries ∧ NamesApart entries ∧ ∀ c, n.binding c = lastBinding? entries c := by
  obtain ⟨bound, hreads, hnodup, hbinding⟩ := ofEntries_eq_ok.1 h
  have hnamed := named_of_reads hreads
  have hapart : NamesApart entries := by
    unfold NamesApart
    rw [hnamed, List.map_map]
    exact hnodup
  -- what is bound is what the entries name
  have hmem : ∀ c o, (c, o) ∈ named entries ↔ ∃ b, (c, b) ∈ bound ∧ o = .binding b := by
    intro c o
    rw [hnamed, List.mem_map]
    constructor
    · rintro ⟨⟨d, b⟩, hx, heq⟩
      cases heq
      exact ⟨b, hx, rfl⟩
    · rintro ⟨b, hx, rfl⟩
      exact ⟨(c, b), hx, rfl⟩
  refine ⟨⟨channels_of_reads hreads, fun c o ho => ?_⟩, hapart,
    fun c => Option.ext fun b => ?_⟩
  · obtain ⟨b, -, rfl⟩ := (hmem c o).1 ((lastOffer?_eq_some hapart).1 ho)
    exact ⟨b, rfl⟩
  · rw [hbinding, lastBinding?_eq_some, lastOffer?_eq_some hapart, hmem]
    simp

/-- Entries make a mapping if an update takes them and no two names stand for one channel. -/
theorem exists_ofEntries_iff :
    (∃ n, ofEntries entries = .ok n) ↔ Admitted entries ∧ NamesApart entries := by
  constructor
  · rintro ⟨n, hn⟩
    obtain ⟨hadmitted, hapart, -⟩ := binding_of_ofEntries hn
    exact ⟨hadmitted, hapart⟩
  · rintro ⟨hadmitted, hapart⟩
    -- every channel is offered once, so the last offers are all the offers
    obtain ⟨bound, hreads⟩ := exists_reads hadmitted.channels fun x hx =>
      hadmitted.bindings x.1 x.2 ((lastOffer?_eq_some hapart).2 hx)
    have hnodup : (bound.map (·.1)).Nodup := by
      unfold NamesApart at hapart
      rw [named_of_reads hreads, List.map_map] at hapart
      exact hapart
    obtain ⟨n, hn⟩ := exists_holding hnodup
    exact ⟨n, ofEntries_eq_ok.2 ⟨bound, hreads, hnodup, hn⟩⟩

/-- Where no two names stand for one channel, the order of the entries makes no difference. -/
theorem Admitted.perm {entries' : List (Value × Offer)} (h : Admitted entries)
    (hapart : NamesApart entries) (hperm : entries'.Perm entries) :
    Admitted entries' ∧ ∀ c, lastBinding? entries' c = lastBinding? entries c := by
  have hnamed : (named entries').Perm (named entries) := hperm.filterMap _
  have hlast := lastOffer?_perm hapart hnamed
  refine ⟨⟨fun e he => h.channels e (hperm.mem_iff.1 he), fun c o ho => ?_⟩, fun c => ?_⟩
  · rw [hlast c] at ho
    exact h.bindings c o ho
  · unfold lastBinding?
    rw [hlast c]

end Update

/-- **An update takes the entries that make a mapping, and those that would make one if each channel
only had its last entry.** It binds what is offered last and keeps the other channels. Entries that
make a mapping update another one with what this mapping binds, in whatever order they stand. -/
theorem update_agrees (m : Mapping) (entries : List (Value × Offer)) :
    ((∃ m', m.update entries = .ok m') ↔ Admitted entries) ∧
      ((∃ n, ofEntries entries = .ok n) ↔ Admitted entries ∧ NamesApart entries) ∧
      (∀ m', m.update entries = .ok m' →
        ∀ c, m'.binding c = (lastBinding? entries c).or (m.binding c)) ∧
      ∀ n, ofEntries entries = .ok n → ∀ entries', entries'.Perm entries →
        m.update entries' = .ok ⟨fun c => (n.binding c).or (m.binding c)⟩ := by
  refine ⟨⟨?_, fun h => ⟨⟨fun c => (lastBinding? entries c).or (m.binding c)⟩,
    update_eq_ok.2 ⟨h, fun c => rfl⟩⟩⟩, exists_ofEntries_iff,
    fun m' hm' => (update_eq_ok.1 hm').2, fun n hn entries' hperm => ?_⟩
  · rintro ⟨m', hm'⟩
    exact (update_eq_ok.1 hm').1
  · -- with the channels apart every order of the entries has the same last bindings
    obtain ⟨hadmitted, hapart, hbinding⟩ := binding_of_ofEntries hn
    obtain ⟨hadmitted', hlast⟩ := hadmitted.perm hapart hperm
    exact update_eq_ok.2 ⟨hadmitted', fun c => by rw [hlast, ← hbinding]⟩

/-- A colour under its other spelling, and a size. -/
def recolored : List (Value × Offer) :=
  [(.text "colour", .binding (.column "g")), (.text "size", .binding (.constant (.int 2)))]

/-- They make a mapping, and update another one in either order. -/
theorem update_agrees_recolored :
    (∃ n, ofEntries recolored = .ok n) ∧ ∀ n, ofEntries recolored = .ok n →
      ∀ entries ∈ [recolored, recolored.reverse],
        coloredPoints.update entries =
          .ok ⟨fun c => (n.binding c).or (coloredPoints.binding c)⟩ := by
  refine ⟨⟨_, rfl⟩, fun n hn entries hentries => ?_⟩
  have hperm : entries.Perm recolored := by
    simp only [List.mem_cons, List.not_mem_nil, or_false] at hentries
    rcases hentries with rfl | rfl
    · exact List.Perm.refl _
    · exact recolored.reverse_perm
  exact (update_agrees coloredPoints recolored).2.2.2 n hn entries hperm

/-- One channel under both of its spellings. -/
def spelledTwice : List (Value × Offer) :=
  [(.text "color", .binding (.column "g")), (.text "colour", .binding (.constant (.int 1)))]

/-- An update takes both, and binds whichever comes last; they make no mapping. -/
theorem update_spelledTwice :
    (∃ m', coloredPoints.update spelledTwice = .ok m' ∧
      m'.binding .color = some (.constant (.int 1))) ∧
    (∃ m', coloredPoints.update spelledTwice.reverse = .ok m' ∧
      m'.binding .color = some (.column "g")) ∧
    ofEntries spelledTwice = .error (.misuse (.channelRepeated .color)) :=
  ⟨⟨_, rfl, rfl⟩, ⟨_, rfl, rfl⟩, rfl⟩

end Mapping

end PlotGrammar
