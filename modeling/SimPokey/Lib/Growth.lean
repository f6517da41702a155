import Mathlib

/-!
# How a log grows

`Grows S T l l'`: the log `l'` is `l` with more entries after it, among them everything in `S`, and
nothing outside `S` and `T`.  `S` is what a step is sure to log, `T` what it may log besides.

* Steps compose (`Grows.trans`).
* If `l` has every entry of `T`, what holds of all entries of `l'` is what holds of those of `l`
  and of `S` (`Grows.forall_iff`).
-/

namespace Growth

variable {α : Type} {S S' T T' : Set α} {l l' l'' : List α}

def Grows (S T : Set α) (l l' : List α) : Prop :=
  ∃ new, l' = l ++ new ∧ (∀ a ∈ S, a ∈ new) ∧ ∀ a ∈ new, a ∈ S ∨ a ∈ T

theorem Grows.refl (T : Set α) (l : List α) : Grows ∅ T l l :=
  ⟨[], (List.append_nil l).symm, fun _ h => h.elim, fun _ h => (List.not_mem_nil h).elim⟩

/-- Exactly the entries `new`. -/
theorem Grows.of_append {new : List α} (h : l' = l ++ new) (T : Set α) :
    Grows {a | a ∈ new} T l l' := ⟨new, h, fun _ ha => ha, fun _ ha => Or.inl ha⟩

/-- Some entries of `T` and no others. -/
theorem Grows.of_within {new : List α} (h : l' = l ++ new) (hT : ∀ a ∈ new, a ∈ T) :
    Grows ∅ T l l' := ⟨new, h, fun _ ha => ha.elim, fun a ha => Or.inr (hT a ha)⟩

theorem Grows.trans (h : Grows S T l l') (h' : Grows S' T l' l'') : Grows (S ∪ S') T l l'' := by
  obtain ⟨new, rfl, hin, hall⟩ := h
  obtain ⟨new', rfl, hin', hall'⟩ := h'
  refine ⟨new ++ new', List.append_assoc .., fun a ha => ?_, fun a ha => ?_⟩
  · rcases ha with ha | ha
    · exact List.mem_append_left _ (hin a ha)
    · exact List.mem_append_right _ (hin' a ha)
  · rcases List.mem_append.1 ha with ha | ha
    · exact (hall a ha).imp_left Or.inl
    · exact (hall' a ha).imp_left Or.inr

/-- What is surely logged may be split off what may be logged. -/
theorem Grows.mono (h : Grows S T l l') (hS : S' ⊆ S) (hT : S ∪ T ⊆ S' ∪ T') :
    Grows S' T' l l' := by
  obtain ⟨new, hnew, hin, hall⟩ := h
  exact ⟨new, hnew, fun a ha => hin a (hS ha), fun a ha => hT (hall a ha)⟩

theorem Grows.forall_iff (h : Grows S T l l') (hT : ∀ a ∈ T, a ∈ l) (P : α → Prop) :
    (∀ a ∈ l', P a) ↔ (∀ a ∈ l, P a) ∧ ∀ a ∈ S, P a := by
  obtain ⟨new, rfl, hin, hall⟩ := h
  constructor
  · intro hP
    exact ⟨fun a ha => hP a (List.mem_append_left _ ha),
      fun a ha => hP a (List.mem_append_right _ (hin a ha))⟩
  · rintro ⟨hl, hS⟩ a ha
    rcases List.mem_append.1 ha with ha | ha
    · exact hl a ha
    · rcases hall a ha with ha | ha
      · exact hS a ha
      · exact hl a (hT a ha)

end Growth
