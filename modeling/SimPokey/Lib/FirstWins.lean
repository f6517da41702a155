import Mathlib

/-!
# First entry wins

A list of entries with keys is reduced to the entries whose key no earlier entry has.

* `firstWins key earlier l` says this declaratively: an entry stays exactly when its key is
  neither in `earlier` nor the key of *any* earlier entry of `l`, whether that one stayed or not;
* `offer key kept a` is the step of a table that is searched and extended in place: `a` is added
  unless an entry of the table has its key;
* `foldl_offer` identifies the two.
-/

namespace FirstWins

variable {α β κ : Type} [DecidableEq κ] {key : α → κ}

/-- The entries whose key is neither in `earlier` nor the key of an earlier entry, in order. -/
def firstWins (key : α → κ) (earlier : List κ) : List α → List α
  | [] => []
  | a :: l =>
      if key a ∈ earlier then firstWins key (earlier ++ [key a]) l
      else a :: firstWins key (earlier ++ [key a]) l

/-- Add `a` to the table unless its key is there already. -/
def offer (key : α → κ) (kept : List α) (a : α) : List α :=
  if key a ∈ kept.map key then kept else kept ++ [a]

@[simp] theorem firstWins_nil (earlier : List κ) : firstWins key earlier [] = [] := rfl

/-- Only which keys came earlier matters. -/
theorem firstWins_congr {e e' : List κ} (h : ∀ k, k ∈ e ↔ k ∈ e') (l : List α) :
    firstWins key e l = firstWins key e' l := by
  induction l generalizing e e' with
  | nil => rfl
  | cons a l ih =>
    have hnext : firstWins key (e ++ [key a]) l = firstWins key (e' ++ [key a]) l :=
      ih fun k => by simp only [List.mem_append, h k]
    simp only [firstWins, h (key a), hnext]

/-- The keys that stay are the keys of the list that did not come earlier. -/
theorem mem_map_firstWins {e : List κ} {l : List α} {k : κ} :
    k ∈ (firstWins key e l).map key ↔ k ∈ l.map key ∧ k ∉ e := by
  induction l generalizing e with
  | nil => simp
  | cons a l ih =>
    by_cases ha : key a ∈ e
    · simp only [firstWins, if_pos ha, ih, List.mem_append, List.map_cons, List.mem_cons,
        List.not_mem_nil, or_false]
      constructor
      · rintro ⟨hl, he⟩
        exact ⟨Or.inr hl, fun h => he (Or.inl h)⟩
      · rintro ⟨rfl | hl, he⟩
        · exact absurd ha he
        · exact ⟨hl, fun h => he (h.elim id fun hk => hk ▸ ha)⟩
    · simp only [firstWins, if_neg ha, List.map_cons, List.mem_cons, ih, List.mem_append,
        List.not_mem_nil, or_false]
      constructor
      · rintro (rfl | ⟨hl, he⟩)
        · exact ⟨Or.inl rfl, ha⟩
        · exact ⟨Or.inr hl, fun h => he (Or.inl h)⟩
      · rintro ⟨rfl | hl, he⟩
        · exact Or.inl rfl
        · by_cases hk : k = key a
          · exact Or.inl hk
          · exact Or.inr ⟨hl, fun h => h.elim he hk⟩

/-- No two entries that stay share a key. -/
theorem nodup_map_firstWins (e : List κ) (l : List α) : ((firstWins key e l).map key).Nodup := by
  induction l generalizing e with
  | nil => simp
  | cons a l ih =>
    by_cases ha : key a ∈ e
    · simpa only [firstWins, if_pos ha] using ih _
    · simp only [firstWins, if_neg ha, List.map_cons, List.nodup_cons]
      refine ⟨fun h => ?_, ih _⟩
      exact (mem_map_firstWins.1 h).2 (by simp)

theorem mem_of_mem_firstWins {e : List κ} {l : List α} {a : α} (h : a ∈ firstWins key e l) :
    a ∈ l := by
  induction l generalizing e with
  | nil => simp at h
  | cons b l ih =>
    simp only [firstWins] at h
    split_ifs at h with hb
    · exact List.mem_cons_of_mem _ (ih h)
    · rcases List.mem_cons.1 h with rfl | h
      · exact List.mem_cons_self
      · exact List.mem_cons_of_mem _ (ih h)

/-- Nothing stays exactly when every key came earlier. -/
theorem firstWins_eq_nil_iff {e : List κ} {l : List α} :
    firstWins key e l = [] ↔ ∀ a ∈ l, key a ∈ e := by
  constructor
  · intro h a ha
    by_contra hnew
    have hstays : key a ∈ (firstWins key e l).map key :=
      mem_map_firstWins.2 ⟨List.mem_map_of_mem ha, hnew⟩
    rw [h] at hstays
    cases hstays
  · intro h
    apply List.eq_nil_iff_forall_not_mem.2
    intro a ha
    have hnew : key a ∉ e := (mem_map_firstWins.1 (List.mem_map_of_mem ha)).2
    exact hnew (h a (mem_of_mem_firstWins ha))

/-- Entries can be mapped before or after, as long as the map keeps the keys. -/
theorem map_firstWins (key' : β → κ) (f : α → β) (hf : ∀ a, key' (f a) = key a) (e : List κ)
    (l : List α) : (firstWins key e l).map f = firstWins key' e (l.map f) := by
  induction l generalizing e with
  | nil => rfl
  | cons a l ih =>
    simp only [firstWins, List.map_cons, hf]
    split_ifs
    · exact ih _
    · rw [List.map_cons, ih]

/-! ### The table searched in place -/

theorem offer_of_mem {kept : List α} {a : α} (h : key a ∈ kept.map key) :
    offer key kept a = kept := if_pos h

theorem offer_of_not_mem {kept : List α} {a : α} (h : key a ∉ kept.map key) :
    offer key kept a = kept ++ [a] := if_neg h

/-- **Searching the table so far is the same as looking at every earlier entry.** -/
theorem foldl_offer (kept l : List α) :
    l.foldl (offer key) kept = kept ++ firstWins key (kept.map key) l := by
  induction l generalizing kept with
  | nil => simp
  | cons a l ih =>
    rw [List.foldl_cons, ih]
    by_cases ha : key a ∈ kept.map key
    · rw [offer_of_mem ha, firstWins, if_pos ha]
      congr 1
      refine firstWins_congr (fun k => ?_) l
      simp only [List.mem_append, List.mem_singleton]
      exact ⟨Or.inl, fun h => h.elim id fun hk => hk ▸ ha⟩
    · rw [offer_of_not_mem ha, firstWins, if_neg ha, List.map_append, List.append_assoc]
      rfl

end FirstWins
