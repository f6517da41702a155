import Mathlib

/-!
# The changes of a sequence

A value `v` is followed by the samples `l`.

* `changes v l` are the places where the sequence `v, l` changes, each with the old and the new
  value; they chain (`isChain_changes`).
* `track` is the memory of an observer that looks at one sample after the other and keeps the
  value and the value before it changed last; `foldl_track` says what it holds in the end.
-/

namespace Changes

variable {α : Type} [DecidableEq α]

/-- The last value of the sequence `v, l`. -/
def last (v : α) (l : List α) : α := l.getLast?.getD v

/-- The places where `v, l` changes, each with the old and the new value. -/
def changes (v : α) (l : List α) : List (α × α) :=
  ((v :: l).zip l).filter fun c => c.1 ≠ c.2

/-- The value before the last change, or `u` if nothing changed. -/
def before (u v : α) (l : List α) : α := ((changes v l).getLast?.map Prod.fst).getD u

omit [DecidableEq α] in
@[simp] theorem last_nil (v : α) : last v [] = v := rfl

omit [DecidableEq α] in
@[simp] theorem last_cons (v s : α) (l : List α) : last v (s :: l) = last s l := by
  simp [last, List.getLast?_cons]

omit [DecidableEq α] in
@[simp] theorem last_concat (v s : α) (l : List α) : last v (l ++ [s]) = s := by simp [last]

@[simp] theorem changes_nil (v : α) : changes v [] = [] := rfl

theorem changes_cons (v s : α) (l : List α) :
    changes v (s :: l) = (if v = s then [] else [(v, s)]) ++ changes s l := by
  by_cases h : v = s
  · simp [changes, h]
  · simp [changes, h]

/-- A change goes from one element of the sequence to a different one. -/
theorem of_mem_changes {v : α} {l : List α} {c : α × α} (h : c ∈ changes v l) :
    c.1 ∈ v :: l ∧ c.2 ∈ l ∧ c.1 ≠ c.2 := by
  obtain ⟨hmem, hne⟩ := List.mem_filter.1 h
  obtain ⟨hold, hnew⟩ := List.of_mem_zip (a := c.1) (b := c.2) hmem
  exact ⟨hold, hnew, of_decide_eq_true hne⟩

/-- One more sample changes the last value, or it does not. -/
theorem changes_concat (v s : α) (l : List α) :
    changes v (l ++ [s]) = changes v l ++ if last v l = s then [] else [(last v l, s)] := by
  induction l generalizing v with
  | nil => by_cases h : v = s <;> simp [changes_cons, h]
  | cons t l ih =>
    rw [List.cons_append, changes_cons, ih, changes_cons, last_cons, List.append_assoc]

/-- The last change ends at the last value. -/
theorem snd_of_getLast?_changes {v : α} {l : List α} {c : α × α}
    (h : c ∈ (changes v l).getLast?) : c.2 = last v l := by
  induction l using List.reverseRecOn with
  | nil => simp at h
  | append_singleton l s ih =>
    rw [changes_concat] at h
    rw [last_concat]
    by_cases hs : last v l = s
    · rw [if_pos hs, List.append_nil] at h
      exact (ih h).trans hs
    · rw [if_neg hs, List.getLast?_concat, Option.mem_some_iff] at h
      rw [← h]

/-- Each change starts where the one before it ended. -/
theorem isChain_changes (v : α) (l : List α) :
    List.IsChain (fun c c' : α × α => c.2 = c'.1) (changes v l) := by
  induction l using List.reverseRecOn with
  | nil => exact List.isChain_nil
  | append_singleton l s ih =>
    rw [changes_concat]
    by_cases hs : last v l = s
    · rwa [if_pos hs, List.append_nil]
    · rw [if_neg hs, List.isChain_append]
      refine ⟨ih, List.isChain_singleton _, fun c hc c' hc' => ?_⟩
      rw [List.head?_cons, Option.mem_some_iff] at hc'
      rw [← hc', snd_of_getLast?_changes hc]

/-! ### An observer -/

/-- The value and the one before it, after one more sample. -/
def track (o : α × α) (s : α) : α × α := if o.1 = s then o else (s, o.1)

/-- **What the observer holds**: the last value, and the value before the last change. -/
theorem foldl_track (v u : α) (l : List α) :
    l.foldl track (v, u) = (last v l, before u v l) := by
  induction l using List.reverseRecOn with
  | nil => rfl
  | append_singleton l s ih =>
    rw [List.foldl_append, ih]
    by_cases hs : last v l = s
    · simp [track, before, changes_concat, hs]
    · simp [track, before, changes_concat, hs]

end Changes
