import SimPokey.Lib.FaultState

/-!
# Computations in small steps

A machine is at a position and moves by `next`, which may change the state or stop at a fault.
`whole k` is what is still to be computed at the position `k`; a machine does it step by step when
every step leaves the rest of it (`Unfolds`).

* `steps`, the first `n` steps;
* `steps_whole`: completing the computation after any number of steps is the whole computation;
* `steps_finished`: where a measure falls with every step, enough steps do all of it;
* `steps_invariant`, what every step keeps.
-/

namespace Stepwise

open FaultState

variable {ε σ κ : Type}

/-- The first `n` steps from the position `k`. -/
def steps (next : κ → Run ε σ κ) : ℕ → κ → Run ε σ κ
  | 0, k => pure k
  | n + 1, k => do
      let k ← steps next n k
      next k

/-- Every step leaves the rest of the computation. -/
def Unfolds (next : κ → Run ε σ κ) (whole : κ → Run ε σ Unit) : Prop :=
  ∀ k, (do let k ← next k; whole k) = whole k

variable {next : κ → Run ε σ κ} {whole : κ → Run ε σ Unit}

@[simp] theorem steps_zero (k : κ) : steps next 0 k = pure k := rfl

theorem steps_succ (n : ℕ) (k : κ) : steps next (n + 1) k = steps next n k >>= next := rfl

theorem steps_succ_of_ok {n : ℕ} {k k' : κ} {s s' : σ}
    (h : (steps next n k).run s = .ok k' s') :
    (steps next (n + 1) k).run s = (next k').run s' := bind_of_ok h

/-- What every step keeps holds after any number of them. -/
theorem steps_invariant (I : κ → σ → Prop)
    (hstep : ∀ k s k' s', I k s → (next k).run s = .ok k' s' → I k' s') {n : ℕ} {k k' : κ}
    {s s' : σ} (h0 : I k s) (h : (steps next n k).run s = .ok k' s') : I k' s' := by
  induction n generalizing k' s' with
  | zero =>
    cases h
    exact h0
  | succ n ih =>
    obtain ⟨k₁, s₁, h₁, h₂⟩ := bind_ok_iff.1 h
    exact hstep k₁ s₁ k' s' (ih h₁) h₂

/-- Completing the computation after `n` steps. -/
theorem steps_whole (h : Unfolds next whole) (n : ℕ) (k : κ) :
    (do let k ← steps next n k; whole k) = whole k := by
  induction n with
  | zero => exact pure_bind k whole
  | succ n ih =>
    rw [steps_succ, bind_assoc]
    calc steps next n k >>= (fun k => next k >>= whole)
        = steps next n k >>= whole := by rw [show (fun k => next k >>= whole) = whole from funext h]
      _ = whole k := ih

/-- `n` steps from where the measure is at most `n` leave nothing to be done. -/
theorem steps_finished (I : κ → σ → Prop) (μ : κ → ℕ)
    (hstep : ∀ k s k' s', I k s → (next k).run s = .ok k' s' → I k' s' ∧ μ k' ≤ μ k - 1) {n : ℕ}
    {k k' : κ} {s s' : σ} (h0 : I k s) (h : (steps next n k).run s = .ok k' s') :
    μ k' ≤ μ k - n := by
  induction n generalizing k' s' with
  | zero =>
    cases h
    exact le_rfl
  | succ n ih =>
    obtain ⟨k₁, s₁, h₁, h₂⟩ := bind_ok_iff.1 h
    have hI := steps_invariant I (fun k s k' s' hI hnext => (hstep k s k' s' hI hnext).1) h0 h₁
    have hle := ih h₁
    have hnext := (hstep k₁ s₁ k' s' hI h₂).2
    omega

end Stepwise
