import Mathlib

/-!
# A pass that searches the table it overwrites

A table of `n` slots holds keys.  In turn `i` a key `key i` is asked for; if some slot holds it and
the turn succeeds (`ok i`), it is written into slot `i`, over whatever that slot held.

A key that no slot holds any more can never be asked for again successfully (`not_hit_succ`), so a
pass over a table of distinct keys keeps all of them exactly when every key that is written is
written into its own slot (`pass_keeps_iff`).
-/

namespace SlotPass

variable {κ : Type} {n : ℕ} {key : ℕ → κ} {ok : ℕ → Prop} {t : ℕ → κ}

/-- Some slot holds the key. -/
def Hit (n : ℕ) (t : ℕ → κ) (k : κ) : Prop := ∃ j < n, t j = k

open Classical in
/-- The table after `i` turns. -/
noncomputable def pass (n : ℕ) (key : ℕ → κ) (ok : ℕ → Prop) (t : ℕ → κ) : ℕ → ℕ → κ
  | 0 => t
  | i + 1 =>
      if Hit n (pass n key ok t i) (key i) ∧ ok i then
        Function.update (pass n key ok t i) i (key i)
      else pass n key ok t i

/-- Turn `i` writes its key. -/
def Placed (n : ℕ) (key : ℕ → κ) (ok : ℕ → Prop) (t : ℕ → κ) (i : ℕ) : Prop :=
  Hit n (pass n key ok t i) (key i) ∧ ok i

@[simp] theorem pass_zero : pass n key ok t 0 = t := rfl

theorem pass_succ_of_placed {i : ℕ} (h : Placed n key ok t i) :
    pass n key ok t (i + 1) = Function.update (pass n key ok t i) i (key i) := by
  rw [pass]
  exact if_pos h

theorem pass_succ_of_not_placed {i : ℕ} (h : ¬ Placed n key ok t i) :
    pass n key ok t (i + 1) = pass n key ok t i := by
  rw [pass]
  exact if_neg h

/-- A key that no slot holds is never written again. -/
theorem not_hit_succ {i : ℕ} {k : κ} (h : ¬ Hit n (pass n key ok t i) k) :
    ¬ Hit n (pass n key ok t (i + 1)) k := by
  by_cases hp : Placed n key ok t i
  · rw [pass_succ_of_placed hp]
    rintro ⟨j, hj, hk⟩
    by_cases hji : j = i
    · subst hji
      rw [Function.update_self] at hk
      exact h (hk ▸ hp.1)
    · rw [Function.update_of_ne hji] at hk
      exact h ⟨j, hj, hk⟩
  · rwa [pass_succ_of_not_placed hp]

theorem not_hit_of_le {i j : ℕ} {k : κ} (hij : i ≤ j) (h : ¬ Hit n (pass n key ok t i) k) :
    ¬ Hit n (pass n key ok t j) k := by
  induction j, hij using Nat.le_induction with
  | base => exact h
  | succ j _ ih => exact not_hit_succ ih

/-- As long as keys are written into their own slots, the table does not change. -/
theorem pass_eq_of_home {m : ℕ} (h : ∀ i < m, Hit n t (key i) → ok i → key i = t i) :
    ∀ i ≤ m, pass n key ok t i = t := by
  intro i
  induction i with
  | zero => intro _; rfl
  | succ i ih =>
    intro hi
    have hi' : pass n key ok t i = t := ih (by omega)
    by_cases hp : Placed n key ok t i
    · rw [pass_succ_of_placed hp, hi']
      have hhome : key i = t i := h i (by omega) (hi' ▸ hp.1) hp.2
      rw [hhome, Function.update_eq_self]
    · rw [pass_succ_of_not_placed hp, hi']

/-- **The keys survive exactly when every key that is written goes to its own slot.** -/
theorem pass_keeps_iff (key : ℕ → κ) (ok : ℕ → Prop)
    (hinj : ∀ i < n, ∀ j < n, t i = t j → i = j) :
    (∀ k < n, ∃! j, j < n ∧ pass n key ok t n j = t k) ↔
      ∀ i < n, Hit n t (key i) → ok i → key i = t i := by
  constructor
  · intro hkeep
    by_contra hbad
    simp only [not_forall] at hbad
    have hex : ∃ i, i < n ∧ Hit n t (key i) ∧ ok i ∧ key i ≠ t i := by
      obtain ⟨i, hi, hhit, hok, hne⟩ := hbad
      exact ⟨i, hi, hhit, hok, hne⟩
    -- the first key written into another slot; until then the table is the original one
    classical
    obtain ⟨hi, hhit, hok, hne⟩ := Nat.find_spec hex
    set i := Nat.find hex
    have hsame : pass n key ok t i = t := pass_eq_of_home (m := i) (fun j hj hh ho => by
      by_contra hjne
      exact Nat.find_min hex hj ⟨by omega, hh, ho, hjne⟩) i le_rfl
    have hplaced : Placed n key ok t i := ⟨by rw [hsame]; exact hhit, hok⟩
    have hlost : ¬ Hit n (pass n key ok t (i + 1)) (t i) := by
      rw [pass_succ_of_placed hplaced, hsame]
      rintro ⟨j, hj, hk⟩
      by_cases hji : j = i
      · rw [hji, Function.update_self] at hk
        exact hne hk
      · rw [Function.update_of_ne hji] at hk
        exact hji (hinj j hj i hi hk)
    obtain ⟨j, ⟨hj, hk⟩, -⟩ := hkeep i hi
    exact not_hit_of_le (by omega) hlost ⟨j, hj, hk⟩
  · intro hhome k hk
    rw [pass_eq_of_home hhome n le_rfl]
    exact ⟨k, ⟨hk, rfl⟩, fun j ⟨hj, hjk⟩ => hinj j hj k hk hjk⟩

end SlotPass
