import PlotGrammar.Proofs.Bindings
import PlotGrammar.Proofs.Mapping.Entries

/-!
# Overrides one over another

Overrides can be laid over a mapping one after the other, or be made one first. For each channel the
last override that mentions it decides, and a removal that decides leaves the channel absent
(`Mapping.decided`).

`Mapping.binding_resolve` says so of one override. An override without entries takes no part in the
merge, and that it makes no difference rests on the root: a root mapping removes nothing. Two
overrides are `Mapping.resolve_update`.
-/

namespace PlotGrammar

namespace Mapping

/-- What a channel is bound to where one binding decides over another: the binding itself, unless it
is a removal, and what it is laid over if there is none. -/
def decided (upper lower : Option Binding) : Option Binding :=
  (upper.or lower).filter fun b => !b.isRemoved

theorem decided_ne_removed (upper lower : Option Binding) :
    decided upper lower ≠ some .removed := by
  intro h
  exact absurd (Option.filter_eq_some_iff.1 h).2 (by decide)

/-- A binding that is no removal stays as it is. -/
theorem filter_of_ne_removed {b : Option Binding} (h : b ≠ some .removed) :
    (b.filter fun b => !b.isRemoved) = b := by
  cases b with
  | none => rfl
  | some b =>
    cases b with
    | removed => exact absurd rfl h
    | column name member => rfl
    | constant v => rfl

theorem decided_none {b : Option Binding} (h : b ≠ some .removed) : decided none b = b :=
  filter_of_ne_removed h

/-- What is decided twice is decided by the last one that says anything. -/
theorem decided_decided (last first b : Option Binding) :
    decided last (decided first b) = decided (last.or first) b := by
  cases last with
  | some c => rfl
  | none =>
    rw [decided_none (decided_ne_removed first b)]
    rfl

section Resolve

variable {root : Mapping} (h : root.Keeps)

include h

/-- An override decides for every channel, also one without entries. -/
theorem binding_resolve (override : Mapping) (c : Channel) :
    (root.resolve override).binding c = decided (override.binding c) (root.binding c) := by
  cases hempty : override.isEmpty with
  | false => exact resolve_binding hempty c
  | true =>
    -- the root is taken as it is, and would lose nothing in a merge
    rw [resolve_of_isEmpty hempty, isEmpty_iff.1 hempty c, decided_none (h c)]

/-- **Overrides laid over a mapping one after the other are one override, the first updated with the
second.** Nothing is removed in the result, its channels are in order, and a channel holds what the
second override says of it, else the first, else the root; a removal leaves it absent. -/
theorem resolve_update (a b : Mapping) :
    ∃ both, a.update b.offers = .ok both ∧
      (root.resolve a).resolve b = root.resolve both ∧
      (root.resolve both).Keeps ∧
      ((root.resolve both).entries.map (·.1)).Sublist Channel.all ∧
      ∀ c, (root.resolve both).binding c =
        ((b.binding c).or ((a.binding c).or (root.binding c))).filter fun b => !b.isRemoved := by
  refine ⟨_, update_offers a b, ?_, h.resolve _, entries_map_fst_sublist _, fun c => ?_⟩
  · refine Mapping.ext (funext fun c => ?_)
    rw [binding_resolve (h.resolve a), binding_resolve h, binding_resolve h,
      decided_decided]
  · rw [binding_resolve h, decided, Option.or_assoc]

end Resolve

/-- Two columns and a colour. -/
def coloredPoints : Mapping :=
  ((empty.set .x (.column "u")).set .y (.column "v")).set .color (.constant (.text "red"))

/-- An override that removes a column and the colour, and sets a size. -/
def sizedOverride : Mapping :=
  ((empty.set .x .removed).set .color .removed).set .size (.constant (.int 2))

/-- An override that binds the colour again and removes the size. -/
def groupedOverride : Mapping :=
  (empty.set .color (.column "g")).set .size .removed

theorem keeps_coloredPoints : coloredPoints.Keeps := by
  intro c
  cases c <;> simp [coloredPoints, Mapping.set]

/-- The colour that one override removes is bound by the next, and the size the other way round. -/
theorem resolve_update_coloredPoints :
    coloredPoints.Keeps ∧ ∃ both, sizedOverride.update groupedOverride.offers = .ok both ∧
      (coloredPoints.resolve sizedOverride).resolve groupedOverride = coloredPoints.resolve both ∧
      (coloredPoints.resolve both).Keeps ∧
      ((coloredPoints.resolve both).entries.map (·.1)).Sublist Channel.all ∧
      ∀ c, (coloredPoints.resolve both).binding c =
        ((groupedOverride.binding c).or ((sizedOverride.binding c).or
          (coloredPoints.binding c))).filter fun b => !b.isRemoved :=
  ⟨keeps_coloredPoints, resolve_update keeps_coloredPoints sizedOverride groupedOverride⟩

end Mapping

end PlotGrammar
