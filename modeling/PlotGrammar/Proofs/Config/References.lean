import PlotGrammar.Config
import PlotGrammar.Proofs.Outcome

/-!
# Configurations without references

A reference begins with `$` and an opening brace. A text in which these two never stand together is
one literal (`Reference.split?_of_plain`), and a configuration of such texts only is what it
resolves to (`Value.resolveReferences_eq_self`). Keys are not looked at: a reference in a key is
none.
-/

namespace PlotGrammar

namespace Reference

/-- No reference begins in a text. -/
def IsPlain (text : String) : Prop :=
  ¬ ['$', '{'] <:+: text.toList

instance (text : String) : Decidable (IsPlain text) :=
  inferInstanceAs (Decidable (¬ ['$', '{'] <:+: text.toList))

/-- Characters in which no reference begins are kept, in front of nothing else. -/
theorem splitFrom_of_unmarked {cs : List Char} (h : ¬ ['$', '{'] <:+: cs) (before : List Char) :
    splitFrom before none cs = some (literal (cs.reverse ++ before)) := by
  induction cs generalizing before with
  | nil => rfl
  | cons c rest ih =>
    have hrest : ¬ ['$', '{'] <:+: rest := fun hin =>
      h (hin.trans (List.suffix_cons c rest).isInfix)
    have hstep : splitFrom before none (c :: rest) = splitFrom (c :: before) none rest := by
      rw [splitFrom]
      rintro rest' rfl rfl
      exact h ⟨[], rest', rfl⟩
    rw [hstep, ih hrest, List.reverse_cons, List.append_assoc, List.singleton_append]

theorem split?_of_plain {text : String} (h : IsPlain text) :
    split? text = some (literal text.toList.reverse) := by
  unfold split?
  rw [splitFrom_of_unmarked h, List.append_nil]

/-- A plain text stands for itself. -/
theorem settleText_of_plain {text : String} (h : IsPlain text)
    (follow : Path → Except Fault Place) (location : List Nat) :
    settleText follow location text = .ok ⟨location, .text text⟩ := by
  unfold settleText
  rw [split?_of_plain h]
  -- a text without references is one literal, unless it is empty and has none
  by_cases hempty : text.toList.reverse.isEmpty = true
  · have htext : text = "" := by
      rw [List.isEmpty_iff, List.reverse_eq_nil_iff] at hempty
      exact String.toList_eq_nil_iff.1 hempty
    subst htext
    rfl
  · have hliteral : literal text.toList.reverse = [.literal text] := by
      unfold literal
      rw [if_neg hempty, List.reverse_reverse, String.ofList_toList]
    rw [hliteral]
    change Except.ok (Place.mk location (.text (text ++ ""))) = _
    rw [String.append_empty]

end Reference

namespace Value

open Reference (IsPlain)

mutual

/-- Whether no reference begins in the texts of a value. -/
def isPlain : Value → Bool
  | text s => decide (IsPlain s)
  | list items => arePlainItems items
  | dict entries => arePlainEntries entries
  | _ => true

/-- Whether no reference begins in the texts of the items of a list. -/
def arePlainItems : List Value → Bool
  | [] => true
  | v :: vs => isPlain v && arePlainItems vs

/-- Whether no reference begins in the texts of the values of a dictionary. -/
def arePlainEntries : List (Value × Value) → Bool
  | [] => true
  | (_, v) :: es => isPlain v && arePlainEntries es

end

theorem isPlain_list {items : List Value} :
    (list items).isPlain = true ↔ ∀ v ∈ items, v.isPlain = true := by
  change arePlainItems items = true ↔ _
  induction items with
  | nil => exact ⟨fun _ v hv => absurd hv List.not_mem_nil, fun _ => rfl⟩
  | cons v vs ih => rw [arePlainItems, Bool.and_eq_true, ih, List.forall_mem_cons]

theorem isPlain_dict {entries : List (Value × Value)} :
    (dict entries).isPlain = true ↔ ∀ e ∈ entries, e.2.isPlain = true := by
  change arePlainEntries entries = true ↔ _
  induction entries with
  | nil => exact ⟨fun _ e he => absurd he List.not_mem_nil, fun _ => rfl⟩
  | cons e es ih => rw [arePlainEntries, Bool.and_eq_true, ih, List.forall_mem_cons]

section Expand

/-- Plain texts are followed to themselves. -/
def KeepsPlain (refer : List Nat → String → Except Fault Value) : Prop :=
  ∀ location s, IsPlain s → refer location s = .ok (.text s)

variable {refer : List Nat → String → Except Fault Value}

mutual

/-- A value of plain texts is expanded to itself. -/
theorem expand_of_isPlain (h : KeepsPlain refer) (location : List Nat) :
    ∀ v : Value, v.isPlain = true → v.expand refer location = .ok v
  | .text s, hv => h location s (of_decide_eq_true hv)
  | .list items, hv => by
    rw [expand, expandItems_of_arePlain h location 0 items hv]
    rfl
  | .dict entries, hv => by
    rw [expand, expandEntries_of_arePlain h location 0 entries hv]
    rfl
  | .null, _ | .bool _, _ | .int _, _ | .float _, _ | .time _, _ | .member _, _
  | .function _, _ => rfl

theorem expandItems_of_arePlain (h : KeepsPlain refer) (location : List Nat) :
    ∀ (i : Nat) (items : List Value), arePlainItems items = true →
      expandItems refer location i items = .ok items
  | _, [], _ => rfl
  | i, v :: vs, hv => by
    rw [arePlainItems, Bool.and_eq_true] at hv
    rw [expandItems, expand_of_isPlain h _ v hv.1,
      expandItems_of_arePlain h location (i + 1) vs hv.2]
    rfl

theorem expandEntries_of_arePlain (h : KeepsPlain refer) (location : List Nat) :
    ∀ (i : Nat) (entries : List (Value × Value)), arePlainEntries entries = true →
      expandEntries refer location i entries = .ok entries
  | _, [], _ => rfl
  | i, (k, v) :: es, hv => by
    rw [arePlainEntries, Bool.and_eq_true] at hv
    rw [expandEntries, expand_of_isPlain h _ v hv.1,
      expandEntries_of_arePlain h location (i + 1) es hv.2]
    rfl

end

end Expand

theorem keepsPlain_refer (root : Value) (n : Nat) : KeepsPlain (refer root (n + 1)) := by
  intro location s hs
  have hsettle : Reference.settle root (root.places + 1) ⟨location, .text s⟩ =
      .ok ⟨location, .text s⟩ :=
    Reference.settleText_of_plain hs _ _
  rw [refer, hsettle]
  rfl

/-- **A value without references is resolved to itself.** -/
theorem resolveReferences_eq_self {v : Value} (h : v.isPlain = true) :
    v.resolveReferences = .ok v :=
  expand_of_isPlain (keepsPlain_refer v v.places) [] v h

end Value

/-- A configuration without references has its own entries, if it can hold them. -/
theorem Config.entries_of_isPlain {own : List (Value × Value)}
    (h : (Value.dict own).isPlain = true) :
    Config.entries (.dict own) = ((Value.dict own).vet.mapError .fault).map fun _ => own := by
  change ((Value.dict own).vet.mapError Failure.fault >>= fun _ =>
    (Value.dict own).resolveReferences.mapError Failure.fault >>= _) = _
  rw [Value.resolveReferences_eq_self h]
  cases (Value.dict own).vet <;> rfl

end PlotGrammar
