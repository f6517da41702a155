import Mathlib

/-!
# Passes that rewrite cells

A pass over a list rewrites, for each element, the cell of the element's key (`write`), or
replaces one value as a whole.

* A cell that is no element's is what it was (`foldl_write_of_not_mem`).
* With distinct keys the cell of an element is rewritten once (`foldl_write_of_mem`).
* Of the replacements only the last is left (`foldl_replace`).
-/

namespace Writes

variable {α β κ : Type} [DecidableEq κ] {key : α → κ} {val : α → β → β}

/-- Rewrite the cell of `a` from what it holds. -/
def write (key : α → κ) (val : α → β → β) (F : κ → β) (a : α) : κ → β :=
  Function.update F (key a) (val a (F (key a)))

theorem write_self (F : κ → β) (a : α) : write key val F a (key a) = val a (F (key a)) :=
  Function.update_self ..

theorem write_of_ne {k : κ} {a : α} (h : k ≠ key a) (F : κ → β) : write key val F a k = F k :=
  Function.update_of_ne h ..

/-- An element that has nothing to write leaves all cells as they are. -/
theorem write_of_same {F : κ → β} {a : α} (h : val a (F (key a)) = F (key a)) :
    write key val F a = F := by
  rw [write, h, Function.update_eq_self]

theorem foldl_write_of_not_mem {l : List α} {k : κ} (h : k ∉ l.map key) (F : κ → β) :
    l.foldl (write key val) F k = F k := by
  induction l generalizing F with
  | nil => rfl
  | cons a l ih =>
    rw [List.map_cons, List.mem_cons, not_or] at h
    rw [List.foldl_cons, ih h.2, write_of_ne h.1]

theorem foldl_write_of_mem {l : List α} (hnodup : (l.map key).Nodup) {a : α} (ha : a ∈ l)
    (F : κ → β) : l.foldl (write key val) F (key a) = val a (F (key a)) := by
  induction l generalizing F with
  | nil => cases ha
  | cons b l ih =>
    rw [List.map_cons, List.nodup_cons] at hnodup
    rw [List.foldl_cons]
    rcases List.mem_cons.1 ha with rfl | ha
    · rw [foldl_write_of_not_mem hnodup.1, write_self]
    · have hne : key a ≠ key b := fun h => hnodup.1 (h ▸ List.mem_map_of_mem ha)
      rw [ih hnodup.2 ha, write_of_ne hne]

omit [DecidableEq κ] in
/-- A value that some elements replace ends as the last of them has it. -/
theorem foldl_replace (f : α → Option β) (l : List α) (b : β) :
    l.foldl (fun b a => (f a).getD b) b = (l.filterMap f).getLast?.getD b := by
  induction l using List.reverseRecOn with
  | nil => rfl
  | append_singleton l a ih =>
    rw [List.foldl_append, List.filterMap_append]
    cases hf : f a with
    | none => simpa [hf] using ih
    | some b' => simp [hf]

end Writes
