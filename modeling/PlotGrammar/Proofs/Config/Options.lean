import PlotGrammar.Config
import PlotGrammar.Proofs.Table.Declared

/-!
# Names that are known

The keys of a section are compared with the names that are known there.
`Config.refuseUnknown_eq_ok`: they pass if all of them are known. Otherwise the unknown ones are
listed in order, and names that are texts always have an order and can be written out; so a section
with string keys is refused, and no fault ends the reading (`Config.refuseUnknown_refuses`).
-/

namespace PlotGrammar

/-- Whether a failure reports a broken rule of the description. -/
def Failure.Refusal (e : Failure) : Prop :=
  ∃ rule, e = .problem (.misuse rule)

theorem Failure.refusal_misuse {rule : Misuse} (h : rule.isWritable = true) :
    (misuse rule).Refusal :=
  ⟨rule, misuse_of_isWritable h⟩

theorem Failure.misuse_of_not_isWritable {rule : Misuse} (h : rule.isWritable = false) :
    misuse rule = fault .badValue :=
  if_neg (ne_true_of_eq_false h)

/-- Whether the keys of a value, if it is a dictionary, are strings. -/
def Value.isStringKeyed : Value → Bool
  | dict entries => entries.all fun e => e.1.characters?.isSome
  | _ => true

theorem Value.isStringKeyed_dict {entries : List (Value × Value)} :
    (dict entries).isStringKeyed = true ↔ ∀ e ∈ entries, e.1.characters?.isSome = true :=
  List.all_eq_true

namespace Config

/-- Names of which all are among the known ones. -/
def Known (names : List Value) (known : List String) : Prop :=
  ∀ n ∈ names, ∃ s ∈ known, n.characters? = some s

instance (names : List Value) (known : List String) : Decidable (Known names known) :=
  inferInstanceAs (Decidable (∀ n ∈ names, ∃ s ∈ known, n.characters? = some s))

theorem mem_foldl_distinct {names seen : List Value} {n : Value}
    (h : n ∈ names.foldl (fun seen n => if seen.any n.same then seen else seen ++ [n]) seen) :
    n ∈ seen ∨ n ∈ names := by
  -- what is kept was kept before, or is the name at hand
  induction names generalizing seen with
  | nil => exact Or.inl h
  | cons m rest ih =>
    rw [List.foldl_cons] at h
    rcases ih h with hseen | hrest
    · split at hseen
      · exact Or.inl hseen
      · rcases List.mem_append.1 hseen with hseen | hm
        · exact Or.inl hseen
        · exact Or.inr (List.mem_singleton.1 hm ▸ List.mem_cons_self)
    · exact Or.inr (List.mem_cons_of_mem _ hrest)

theorem mem_of_mem_distinct {names : List Value} {n : Value} (h : n ∈ distinct names) :
    n ∈ names :=
  (mem_foldl_distinct h).resolve_left List.not_mem_nil

theorem foldl_distinct_ne_nil {names seen : List Value} (h : seen ≠ []) :
    names.foldl (fun seen n => if seen.any n.same then seen else seen ++ [n]) seen ≠ [] := by
  induction names generalizing seen with
  | nil => exact h
  | cons n rest ih =>
    rw [List.foldl_cons]
    refine ih ?_
    split
    · exact h
    · exact List.append_ne_nil_of_right_ne_nil _ (List.cons_ne_nil _ _)

theorem distinct_eq_nil {names : List Value} : distinct names = [] ↔ names = [] := by
  constructor
  · intro h
    cases names with
    | nil => rfl
    | cons n rest =>
      exact absurd h (@foldl_distinct_ne_nil rest [n] (List.cons_ne_nil n []))
  · rintro rfl
    rfl

/-- Texts can always be put in order. -/
theorem exists_sortNames {names : List Value} (h : ∀ n ∈ names, n.characters?.isSome = true) :
    ∃ sorted, sortNames names = .ok sorted ∧ ∀ n ∈ sorted, n ∈ names := by
  unfold sortNames
  split
  · exact ⟨names, rfl, fun _ hn => hn⟩
  · rw [if_pos (List.filterMap_length_eq_length.2 fun n hn => by rw [Option.isSome_map, h n hn])]
    refine ⟨_, rfl, fun n hn => ?_⟩
    -- the pairs that are sorted hold the names that they were made from
    obtain ⟨pair, hpair, rfl⟩ := List.mem_map.1 hn
    obtain ⟨m, hm, hread⟩ := List.mem_filterMap.1 (List.mem_mergeSort.1 hpair)
    obtain ⟨s, -, rfl⟩ := Option.map_eq_some_iff.1 hread
    exact hm

section Refuse

variable {names : List Value} {known : List String} {refusal : List Value → Misuse}

/-- The names that are refused. -/
def unknown (names : List Value) (known : List String) : List Value :=
  names.filter fun n => !((n.characters?.map known.contains).getD false)

theorem unknown_eq_nil : unknown names known = [] ↔ Known names known := by
  unfold unknown Known
  rw [List.filter_eq_nil_iff]
  refine forall₂_congr fun n _ => ?_
  cases n.characters? <;> simp

theorem refuseUnknown_eq :
    refuseUnknown names known refusal =
      if (distinct (unknown names known)).isEmpty = true then .ok ()
      else (sortNames (distinct (unknown names known))).mapError .fault >>= fun sorted =>
        throw (.misuse (refusal sorted)) :=
  rfl

theorem refuseUnknown_eq_ok : refuseUnknown names known refusal = .ok () ↔ Known names known := by
  rw [← unknown_eq_nil, ← distinct_eq_nil, ← List.isEmpty_iff, refuseUnknown_eq]
  split
  · next h => exact ⟨fun _ => h, fun _ => rfl⟩
  · next h =>
    refine ⟨fun hok => ?_, fun h' => absurd h' h⟩
    obtain ⟨_, -, hthrow⟩ := bind_eq_ok.1 hok
    exact nomatch hthrow

/-- Names that are texts are refused, and nothing else goes wrong with them. -/
theorem refuseUnknown_refuses (h : ∀ n ∈ names, n.characters?.isSome = true)
    (hwritable : ∀ listed : List Value, (∀ n ∈ listed, n.isWritable = true) →
      (refusal listed).isWritable = true) :
    FailsOnly Failure.Refusal (refuseUnknown names known refusal) := by
  rw [refuseUnknown_eq]
  refine .ite (fun _ => .ok _) fun _ => ?_
  -- only names that are texts get as far as being sorted
  have htexts : ∀ n ∈ distinct (unknown names known), n.characters?.isSome = true :=
    fun n hn => h n (List.mem_of_mem_filter (mem_of_mem_distinct hn))
  obtain ⟨sorted, hsorted, hmem⟩ := exists_sortNames htexts
  rw [hsorted]
  exact .throw (Failure.refusal_misuse (hwritable sorted fun n hn =>
    Value.isWritable_of_characters (htexts n (hmem n hn))))

end Refuse

end Config

end PlotGrammar
