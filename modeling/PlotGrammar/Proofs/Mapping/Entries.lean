import PlotGrammar.Proofs.Outcome
import Mathlib.Data.List.Forall2
import Mathlib.Data.Set.List

/-!
# Mappings from entries

A mapping is made of entries, one after the other: each names a channel and holds what is offered
for it. `Mapping.ofEntries_eq_ok` says when there is a mapping, and which one. All offers have to be
bindings, and no two names may stand for one channel; then the mapping holds the bindings, and no
others.

* `Channel.parse?_eq_some`: which texts name a channel.
* `Mapping.mem_entries`: a mapping lists its bindings as entries, in the order of the channels.
* `Mapping.update_offers`: updating a mapping with the entries of another never fails, and the other
  mapping wins.
-/

namespace PlotGrammar

/-! ### Names of channels -/

namespace Channel

theorem nodup_all : all.Nodup := by
  decide

theorem ofName?_eq_some {s : String} {c : Channel} : ofName? s = some c ↔ s = c.name := by
  constructor
  · intro h
    have hname := List.find?_some (p := fun d : Channel => d.name == s) h
    exact (eq_of_beq hname).symm
  · rintro rfl
    exact ofName?_name c

/-- A text names a channel by the channel's own name or by an alternative spelling of it. -/
theorem parse?_eq_some {s : String} {c : Channel} :
    parse? s = some c ↔ s = c.name ∨ (s, c.name) ∈ aliases := by
  by_cases hs : s ∈ aliases.map (·.1)
  · obtain ⟨spelling, hspelling, rfl⟩ := List.mem_map.1 hs
    simp only [aliases, List.mem_cons, List.not_mem_nil, or_false] at hspelling
    rcases hspelling with rfl | rfl | rfl <;> cases c <;> decide
  · have hnone : aliases.lookup s = none := by
      rw [List.lookup_eq_none_iff]
      exact fun e he => bne_iff_ne.2 fun h => hs (List.mem_map.2 ⟨e, he, h.symm⟩)
    rw [parse?, hnone, Option.getD_none, ofName?_eq_some]
    exact (or_iff_left fun h => hs (List.mem_map.2 ⟨_, h, rfl⟩)).symm

theorem parse?_name (c : Channel) : parse? c.name = some c :=
  parse?_eq_some.2 (Or.inl rfl)

/-- A string is read as a channel by its characters. -/
theorem ofValue_of_characters {name : Value} {s : String} (h : name.characters? = some s) :
    ofValue name =
      match parse? s with
      | some c => .ok c
      | none => .error (.misuse (.unknownChannel name)) := by
  -- only texts and members of the vocabulary are spelled, and a channel is spelled like itself
  cases name with
  | text t =>
    cases h
    rfl
  | member m =>
    cases h
    cases m with
    | channel d =>
      rw [Member.name, parse?_name]
      rfl
    | geometry g => rfl
    | stat k => rfl
  | _ => cases h

end Channel

namespace Mapping

/-! ### Entries of a mapping -/

section Entries

variable {m : Mapping} {c : Channel} {b : Binding}

theorem mem_entries : (c, b) ∈ m.entries ↔ m.binding c = some b := by
  unfold entries
  rw [List.mem_filterMap]
  constructor
  · rintro ⟨d, -, hd⟩
    obtain ⟨b', hb', heq⟩ := Option.map_eq_some_iff.1 hd
    cases heq
    exact hb'
  · exact fun h => ⟨c, Channel.mem_all c, by rw [h]; rfl⟩

theorem contains_eq_false : m.contains c = false ↔ m.binding c = none :=
  Option.isSome_eq_false_iff.trans Option.isNone_iff_eq_none

/-- The entries stand in the order of the channels. -/
theorem entries_map_fst_sublist (m : Mapping) : (m.entries.map (·.1)).Sublist Channel.all := by
  unfold entries
  induction Channel.all with
  | nil => exact .slnil
  | cons c rest ih =>
    cases h : m.binding c with
    | none =>
      rw [List.filterMap_cons_none (by rw [h]; rfl)]
      exact ih.cons c
    | some b =>
      rw [List.filterMap_cons_some (by rw [h]; rfl)]
      exact ih.cons_cons c

theorem nodup_entries (m : Mapping) : (m.entries.map (·.1)).Nodup :=
  Channel.nodup_all.sublist m.entries_map_fst_sublist

/-- A mapping without entries binds nothing. -/
theorem isEmpty_iff : m.isEmpty = true ↔ ∀ c, m.binding c = none := by
  unfold isEmpty
  rw [List.isEmpty_iff, List.eq_nil_iff_forall_not_mem]
  constructor
  · intro h c
    exact Option.eq_none_iff_forall_ne_some.2 fun b hb => h (c, b) (mem_entries.2 hb)
  · rintro h ⟨c, b⟩ he
    rw [mem_entries, h c] at he
    exact nomatch he

/-- Mappings are the same if they hold the same bindings. -/
theorem ext_of_mem {n : Mapping} (h : ∀ c b, m.binding c = some b ↔ n.binding c = some b) :
    m = n := by
  ext c b
  exact h c b

end Entries

/-! ### Entries of a description -/

/-- An entry names a channel and offers a binding for it. -/
structure Reads (entry : Value × Offer) (bound : Channel × Binding) : Prop where
  name : Channel.ofValue entry.1 = .ok bound.1
  offer : entry.2 = .binding bound.2

theorem add_eq_ok {m m' : Mapping} {entry : Value × Offer} :
    m.add entry = .ok m' ↔
      ∃ bound, Reads entry bound ∧ m.binding bound.1 = none ∧ m' = m.set bound.1 bound.2 := by
  obtain ⟨name, offer⟩ := entry
  unfold add
  rw [bind_eq_ok]
  constructor
  -- a binding is added if its name is a channel and the channel is not bound yet
  · rintro ⟨c, hc, h⟩
    cases offer with
    | other v => exact nomatch h
    | binding b =>
      dsimp only at h
      split at h
      · exact nomatch h
      · next hnew =>
        cases h
        exact ⟨(c, b), ⟨hc, rfl⟩, contains_eq_false.1 (Bool.eq_false_iff.2 hnew), rfl⟩
  · rintro ⟨⟨c, b⟩, ⟨hc, rfl⟩, hnew, rfl⟩
    exact ⟨c, hc, if_neg (Bool.eq_false_iff.1 (contains_eq_false.2 hnew))⟩

/-- A channel that is not bound yet is bound, and nothing else changes. -/
theorem set_binding_eq_some {m : Mapping} {c d : Channel} {b b' : Binding}
    (h : m.binding c = none) :
    (m.set c b).binding d = some b' ↔ (d, b') = (c, b) ∨ m.binding d = some b' := by
  rw [set_binding, Prod.mk.injEq]
  -- what is bound to `c` was nothing before, so the two sources never compete
  by_cases hd : d = c
  · rw [if_pos hd, hd, h, Option.some.injEq]
    constructor
    · rintro rfl
      exact Or.inl ⟨rfl, rfl⟩
    · rintro (⟨-, rfl⟩ | h)
      · rfl
      · exact nomatch h
  · rw [if_neg hd]
    exact ⟨Or.inr, fun h => h.resolve_left fun h => hd h.1⟩

/-- There is a mapping that holds some bindings of different channels, and no others. -/
theorem exists_holding {bound : List (Channel × Binding)} (h : (bound.map (·.1)).Nodup) :
    ∃ m : Mapping, ∀ c b, m.binding c = some b ↔ (c, b) ∈ bound := by
  induction bound with
  | nil => exact ⟨empty, fun c b => by simp⟩
  | cons first rest ih =>
    obtain ⟨c, b⟩ := first
    obtain ⟨hc, hrest⟩ := List.nodup_cons.1 h
    obtain ⟨m, hm⟩ := ih hrest
    have hnew : m.binding c = none := Option.eq_none_iff_forall_ne_some.2 fun b' hb' =>
      hc (List.mem_map.2 ⟨(c, b'), (hm c b').1 hb', rfl⟩)
    refine ⟨m.set c b, fun d b' => ?_⟩
    rw [set_binding_eq_some hnew, hm, List.mem_cons]

/-- Entries are added to a mapping if they name different channels that are not bound yet, and offer
bindings. -/
theorem foldlM_add_eq_ok {entries : List (Value × Offer)} {m m' : Mapping} :
    entries.foldlM add m = .ok m' ↔
      ∃ bound, List.Forall₂ Reads entries bound ∧ (bound.map (·.1)).Nodup ∧
        (∀ e ∈ bound, m.binding e.1 = none) ∧
        ∀ c b, m'.binding c = some b ↔ (c, b) ∈ bound ∨ m.binding c = some b := by
  induction entries generalizing m with
  | nil =>
    constructor
    · intro h
      cases h
      exact ⟨[], .nil, .nil, fun _ h => absurd h List.not_mem_nil, fun c b => by simp⟩
    · rintro ⟨bound, hreads, -, -, h⟩
      cases hreads
      exact congrArg Except.ok (ext_of_mem fun c b => by simpa using (h c b).symm)
  | cons entry rest ih =>
    rw [List.foldlM_cons, bind_eq_ok]
    constructor
    · rintro ⟨m₁, hadd, hrest⟩
      obtain ⟨⟨c, b⟩, hread, hnew, rfl⟩ := add_eq_ok.1 hadd
      obtain ⟨bound, hreads, hnodup, hfree, h⟩ := ih.1 hrest
      -- what is still free after the first entry was free before, and is another channel
      have hfree' : ∀ e ∈ bound, e.1 ≠ c ∧ m.binding e.1 = none := by
        intro e he
        have hfree := hfree e he
        rw [set_binding] at hfree
        split at hfree
        · exact nomatch hfree
        · next hne => exact ⟨hne, hfree⟩
      refine ⟨(c, b) :: bound, .cons hread hreads, ?_, ?_, ?_⟩
      · refine List.nodup_cons.2 ⟨fun hc => ?_, hnodup⟩
        obtain ⟨e, he, heq⟩ := List.mem_map.1 hc
        exact (hfree' e he).1 heq
      · exact List.forall_mem_cons.2 ⟨hnew, fun e he => (hfree' e he).2⟩
      · intro d b'
        rw [h, set_binding_eq_some hnew, List.mem_cons, or_assoc, or_left_comm]
    -- and back: the first one is added, and leaves the channels of the others free
    · rintro ⟨bound, hreads, hnodup, hfree, h⟩
      cases hreads with
      | cons hread hreads =>
        next first bound =>
        obtain ⟨c, b⟩ := first
        obtain ⟨hnew, hfree⟩ := List.forall_mem_cons.1 hfree
        obtain ⟨hc, hnodup⟩ := List.nodup_cons.1 hnodup
        refine ⟨m.set c b, add_eq_ok.2 ⟨(c, b), hread, hnew, rfl⟩,
          ih.2 ⟨bound, hreads, hnodup, fun e he => ?_, fun d b' => ?_⟩⟩
        · rw [set_binding, if_neg fun heq => hc (List.mem_map.2 ⟨e, he, heq⟩)]
          exact hfree e he
        · rw [h, set_binding_eq_some hnew, List.mem_cons, or_assoc, or_left_comm]

/-- **Entries make a mapping if they name different channels and offer bindings, and the mapping
holds these bindings.** -/
theorem ofEntries_eq_ok {entries : List (Value × Offer)} {m : Mapping} :
    ofEntries entries = .ok m ↔
      ∃ bound, List.Forall₂ Reads entries bound ∧ (bound.map (·.1)).Nodup ∧
        ∀ c b, m.binding c = some b ↔ (c, b) ∈ bound := by
  unfold ofEntries
  rw [foldlM_add_eq_ok]
  simp only [empty_binding, reduceCtorEq, or_false, implies_true, true_and]

/-! ### Updates -/

section Place

variable {entries : List (Channel × Offer)} {c d : Channel} {o o' : Offer}

/-- What is put in the place of a channel stands there, and nothing else changes. -/
theorem mem_place :
    (d, o') ∈ place entries c o ↔ if d = c then o' = o else (d, o') ∈ entries := by
  unfold place
  split
  -- an entry of the channel is replaced where it stands
  · next hany =>
    obtain ⟨e, he, hec⟩ := List.any_eq_true.1 hany
    rw [List.mem_map]
    constructor
    · rintro ⟨e', he', heq⟩
      split at heq
      · cases heq
        exact (if_pos rfl).symm ▸ rfl
      · next hne =>
        subst heq
        rw [if_neg hne]
        exact he'
    · intro h
      split at h
      · next hd => exact ⟨e, he, by rw [if_pos (of_decide_eq_true hec), hd, h]⟩
      · next hd => exact ⟨(d, o'), h, if_neg hd⟩
  -- without one the new entry is added at the end
  · next hany =>
    rw [List.mem_append, List.mem_singleton, Prod.mk.injEq]
    by_cases hd : d = c
    · rw [if_pos hd]
      refine ⟨fun h => ?_, fun h => Or.inr ⟨hd, h⟩⟩
      rcases h with h | h
      · exact absurd (List.any_eq_true.2 ⟨_, h, decide_eq_true hd⟩) hany
      · exact h.2
    · rw [if_neg hd]
      exact ⟨fun h => h.resolve_right fun h => hd h.1, Or.inl⟩

theorem nodup_place (h : (entries.map (·.1)).Nodup) :
    ((place entries c o).map (·.1)).Nodup := by
  unfold place
  split
  · rw [List.map_map]
    -- replacing keeps the channels as they are
    have hkeys : ((fun e : Channel × Offer => e.1) ∘ fun e => if e.1 = c then (c, o) else e) =
        (·.1) := by
      funext e
      rw [Function.comp_apply]
      split
      · next hc => exact hc.symm
      · rfl
    rwa [hkeys]
  · next hany =>
    rw [List.map_append]
    refine List.nodup_append.2 ⟨h, List.pairwise_singleton _ _, ?_⟩
    rintro d hd d' hd' rfl
    obtain ⟨e, he, rfl⟩ := List.mem_map.1 hd
    rw [List.map_singleton, List.mem_singleton] at hd'
    exact hany (List.any_eq_true.2 ⟨e, he, decide_eq_true hd'⟩)

end Place

/-- Of what is put in the place of different channels one after the other, all is there in the end,
beside what stood under other channels before. -/
theorem mem_foldl_place {offered entries : List (Channel × Offer)}
    (h : (offered.map (·.1)).Nodup) {d : Channel} {o : Offer} :
    (d, o) ∈ offered.foldl (fun es e => place es e.1 e.2) entries ↔
      (d, o) ∈ offered ∨ (d ∉ offered.map (·.1) ∧ (d, o) ∈ entries) := by
  induction offered generalizing entries with
  | nil => simp
  | cons first rest ih =>
    obtain ⟨c, o'⟩ := first
    obtain ⟨hc, hrest⟩ := List.nodup_cons.1 h
    rw [List.foldl_cons, ih hrest, mem_place, List.mem_cons, List.map_cons, List.mem_cons,
      Prod.mk.injEq]
    -- the channel at hand is not offered again, so its place is final
    by_cases hd : d = c
    · subst hd
      rw [if_pos rfl]
      have hnew : (d, o) ∉ rest := fun hmem => hc (List.mem_map.2 ⟨_, hmem, rfl⟩)
      simp only [hnew, hc, true_and, false_or, or_false, not_true_eq_false, not_false_eq_true,
        false_and]
    · rw [if_neg hd]
      simp only [hd, false_and, false_or]

theorem nodup_foldl_place {offered entries : List (Channel × Offer)}
    (h : (entries.map (·.1)).Nodup) :
    ((offered.foldl (fun es e => place es e.1 e.2) entries).map (·.1)).Nodup := by
  induction offered generalizing entries with
  | nil => exact h
  | cons first rest ih => exact ih (nodup_place h)

/-- Entries under channels make a mapping if the channels differ and all that is offered are
bindings. -/
theorem ofEntries_of_channels {entries : List (Channel × Offer)} {m : Mapping}
    (hnodup : (entries.map (·.1)).Nodup) (hbinding : ∀ e ∈ entries, ∃ b, e.2 = .binding b)
    (h : ∀ c b, m.binding c = some b ↔ (c, .binding b) ∈ entries) :
    ofEntries (entries.map fun e => (.member (.channel e.1), e.2)) = .ok m := by
  -- all offers are bindings, so the entries are those of a list of bindings
  obtain ⟨bound, rfl⟩ : ∃ bound : List (Channel × Binding),
      bound.map (fun e => (e.1, Offer.binding e.2)) = entries := by
    rw [← Set.mem_range, Set.range_list_map]
    rintro ⟨c, o⟩ he
    obtain ⟨b, rfl⟩ := hbinding _ he
    exact ⟨(c, b), rfl⟩
  refine ofEntries_eq_ok.2 ⟨bound, ?_, ?_, fun c b => (h c b).trans ?_⟩
  · rw [List.map_map, List.forall₂_map_left_iff]
    exact List.forall₂_same.2 fun e _ => ⟨rfl, rfl⟩
  · rwa [List.map_map] at hnodup
  · rw [List.mem_map]
    constructor
    · rintro ⟨⟨c', b'⟩, he, heq⟩
      cases heq
      exact he
    · exact fun he => ⟨_, he, rfl⟩

/-- Entries under channels are put in the place of others one after the other. -/
theorem foldlM_place (offered : List (Channel × Offer)) (entries : List (Channel × Offer)) :
    (offered.map fun e => (Value.member (.channel e.1), e.2)).foldlM
        (fun es e => do pure (place es (← Channel.ofValue e.1) e.2)) entries =
      Except.ok (offered.foldl (fun es e => place es e.1 e.2) entries) := by
  induction offered generalizing entries with
  | nil => rfl
  | cons first rest ih => exact ih (place entries first.1 first.2)

/-- The bindings of a mapping, each offered for its channel. -/
def offered (m : Mapping) : List (Channel × Offer) :=
  m.entries.map fun e => (e.1, .binding e.2)

/-- The entries of a mapping as they are handed over, each under its channel. -/
def offers (m : Mapping) : List (Value × Offer) :=
  m.offered.map fun e => (.member (.channel e.1), e.2)

theorem mem_offered {m : Mapping} {c : Channel} {o : Offer} :
    (c, o) ∈ m.offered ↔ ∃ b, m.binding c = some b ∧ o = .binding b := by
  unfold offered
  rw [List.mem_map]
  constructor
  · rintro ⟨⟨c, b⟩, he, heq⟩
    cases heq
    exact ⟨b, mem_entries.1 he, rfl⟩
  · rintro ⟨b, hb, rfl⟩
    exact ⟨(c, b), mem_entries.2 hb, rfl⟩

theorem mem_offered_map_fst {m : Mapping} {c : Channel} :
    c ∈ m.offered.map (·.1) ↔ (m.binding c).isSome = true := by
  rw [List.mem_map, Option.isSome_iff_exists]
  constructor
  · rintro ⟨⟨c, o⟩, he, rfl⟩
    obtain ⟨b, hb, -⟩ := mem_offered.1 he
    exact ⟨b, hb⟩
  · rintro ⟨b, hb⟩
    exact ⟨(c, .binding b), mem_offered.2 ⟨b, hb, rfl⟩, rfl⟩

theorem nodup_offered (m : Mapping) : (m.offered.map (·.1)).Nodup := by
  unfold offered
  rw [List.map_map]
  exact m.nodup_entries

/-- **A mapping is updated with the entries of another: what the other binds wins.** -/
theorem update_offers (m n : Mapping) :
    m.update n.offers = .ok ⟨fun c => (n.binding c).or (m.binding c)⟩ := by
  -- merging places the offers of `n` over those of `m`, channel by channel
  have hmerged := foldlM_place n.offered m.offered
  refine bind_eq_ok.2 ⟨_, hmerged, ofEntries_of_channels (nodup_foldl_place m.nodup_offered) ?_ ?_⟩
  · rintro ⟨c, o⟩ he
    rcases (mem_foldl_place n.nodup_offered).1 he with h | ⟨-, h⟩ <;>
    · obtain ⟨b, -, rfl⟩ := mem_offered.1 h
      exact ⟨b, rfl⟩
  · intro c b
    change (n.binding c).or (m.binding c) = some b ↔ _
    rw [mem_foldl_place n.nodup_offered, mem_offered, mem_offered, mem_offered_map_fst]
    cases n.binding c with
    | none => simp
    | some b' => simpa using eq_comm

end Mapping

end PlotGrammar
