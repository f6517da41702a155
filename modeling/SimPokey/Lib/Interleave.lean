import Mathlib

/-!
# Agents that share nothing

Every agent has a state of its own; in one step it moves to its next state and puts something out.
A schedule says which agent moves when.

* `alone next c s`: `c` steps of one agent that starts in `s`;
* `run next schedule s`: all agents, under a schedule; its log says who put out what;
* `run_own`, `run_output`: for each agent, that is what it would have done alone.
-/

namespace Interleave

variable {ι σ β : Type} [DecidableEq ι] (next : σ → σ × List β)

/-- The state after `c` steps of one agent, and what it put out. -/
def alone (s : σ) : ℕ → σ × List β
  | 0 => (s, [])
  | c + 1 => ((next (alone s c).1).1, (alone s c).2 ++ (next (alone s c).1).2)

theorem alone_succ (s : σ) (c : ℕ) : alone next s (c + 1) =
    ((next (alone next s c).1).1, (alone next s c).2 ++ (next (alone next s c).1).2) := rfl

/-- The agent `k` moves. -/
def move (r : (ι → σ) × List (ι × β)) (k : ι) : (ι → σ) × List (ι × β) :=
  (Function.update r.1 k (next (r.1 k)).1, r.2 ++ (next (r.1 k)).2.map fun b => (k, b))

/-- The agents move in the order of the schedule. -/
def run (schedule : List ι) (s : ι → σ) : (ι → σ) × List (ι × β) :=
  schedule.foldl (move next) (s, [])

theorem run_concat (schedule : List ι) (k : ι) (s : ι → σ) :
    run next (schedule ++ [k]) s = move next (run next schedule s) k :=
  List.foldl_concat (move next) (s, []) k schedule

/-- What the agent `k` put out. -/
def outputOf (k : ι) (log : List (ι × β)) : List β := (log.filter fun e => e.1 = k).map Prod.snd

theorem outputOf_append (k : ι) (log log' : List (ι × β)) :
    outputOf k (log ++ log') = outputOf k log ++ outputOf k log' := by
  rw [outputOf, List.filter_append, List.map_append]
  rfl

theorem outputOf_own (k : ι) (l : List β) : outputOf k (l.map fun b => (k, b)) = l := by
  induction l with
  | nil => rfl
  | cons b l ih =>
    rw [List.map_cons, outputOf, List.filter_cons_of_pos (by simp), List.map_cons]
    exact congrArg (b :: ·) ih

theorem outputOf_other {k k' : ι} (h : k' ≠ k) (l : List β) :
    outputOf k (l.map fun b => (k', b)) = [] := by
  rw [outputOf, List.map_eq_nil_iff, List.filter_eq_nil_iff]
  intro e he
  obtain ⟨b, -, rfl⟩ := List.mem_map.1 he
  simpa using h

/-- **Each agent is where its own steps have taken it.** -/
theorem run_own (schedule : List ι) (s : ι → σ) (k : ι) :
    (run next schedule s).1 k = (alone next (s k) (schedule.count k)).1 := by
  induction schedule using List.reverseRecOn with
  | nil => rfl
  | append_singleton schedule k' ih =>
    rw [run_concat, List.count_append]
    by_cases hk : k' = k
    · subst hk
      rw [List.count_singleton_self, alone_succ, ← ih]
      exact Function.update_self ..
    · rw [List.count_singleton, if_neg (by simpa using hk), Nat.add_zero, ← ih]
      exact Function.update_of_ne (Ne.symm hk) ..

/-- **Each agent has put out what its own steps put out**, in their order. -/
theorem run_output (schedule : List ι) (s : ι → σ) (k : ι) :
    outputOf k (run next schedule s).2 = (alone next (s k) (schedule.count k)).2 := by
  induction schedule using List.reverseRecOn with
  | nil => rfl
  | append_singleton schedule k' ih =>
    rw [run_concat, List.count_append, move, outputOf_append, ih]
    by_cases hk : k' = k
    · subst hk
      rw [List.count_singleton_self, alone_succ, outputOf_own, run_own]
    · rw [List.count_singleton, if_neg (by simpa using hk), Nat.add_zero, outputOf_other hk,
        List.append_nil]

/-- Whoever put something out was scheduled. -/
theorem fst_mem_of_mem_run {schedule : List ι} {s : ι → σ} {e : ι × β}
    (h : e ∈ (run next schedule s).2) : e.1 ∈ schedule := by
  induction schedule using List.reverseRecOn with
  | nil => cases h
  | append_singleton schedule k ih =>
    rw [run_concat] at h
    rcases List.mem_append.1 h with h | h
    · exact List.mem_append_left _ (ih h)
    · obtain ⟨b, -, rfl⟩ := List.mem_map.1 h
      exact List.mem_append_right _ (List.mem_singleton_self k)

end Interleave
