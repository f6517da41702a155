import Mathlib

/-!
# Terminated strings in a buffer

A buffer is a function from positions to cells; the string in it ends at the first cell that holds
the terminator `z`.

* `Reads z a l`: reading the buffer `a` gives `l`;
* `AgreeTo z n a b`: comparing the first `n` cells, up to a common terminator, finds no difference;
* `copy n b a`: the first `n` cells of `b` copied over those of `a`, terminator or not.

`reads_take_iff` says when a buffer that agrees with a string over `n` cells reads as the string
cut to `n`: the comparison never looks at the cell `n`, which may hold no terminator.
-/

namespace CString

variable {α : Type} {z : α}

/-- Reading `a` up to the terminator gives `l`. -/
structure Reads (z : α) (a : ℕ → α) (l : List α) : Prop where
  char : ∀ i c, l[i]? = some c → a i = c
  term : a l.length = z
  clean : z ∉ l

/-- The first `n` cells of `a` are those of `b`, as far as the string in `b` goes. -/
def AgreeTo (z : α) (n : ℕ) (a b : ℕ → α) : Prop := ∀ i < n, (∀ j < i, b j ≠ z) → a i = b i

/-- The first `n` cells of `b`, and the cells of `a` beyond. -/
def copy (n : ℕ) (b a : ℕ → α) (k : ℕ) : α := if k < n then b k else a k

/-! ### Comparing -/

theorem AgreeTo.refl (z : α) (n : ℕ) (a : ℕ → α) : AgreeTo z n a a := fun _ _ _ => rfl

/-- Where the two buffers agree, a string that goes on in one goes on in the other. -/
theorem AgreeTo.goes_on {n : ℕ} {a b : ℕ → α} (h : AgreeTo z n a b) {i : ℕ} (hi : i < n)
    (ha : ∀ j < i, a j ≠ z) : ∀ j < i, b j ≠ z := by
  intro j
  induction j using Nat.strong_induction_on with
  | _ j ih =>
    intro hj hz
    have hab : a j = b j := h j (by omega) fun k hk => ih k hk (by omega)
    exact ha j hj (hab.trans hz)

theorem AgreeTo.symm {n : ℕ} {a b : ℕ → α} (h : AgreeTo z n a b) : AgreeTo z n b a := by
  intro i hi ha
  exact (h i hi (h.goes_on hi ha)).symm

theorem AgreeTo.trans {n : ℕ} {a b c : ℕ → α} (h : AgreeTo z n a b) (h' : AgreeTo z n b c) :
    AgreeTo z n a c := by
  intro i hi hc
  have hb : ∀ j < i, b j ≠ z := h'.symm.goes_on hi hc
  rw [h i hi hb, h' i hi hc]

/-- Comparing cell by cell. -/
theorem agreeTo_succ {n : ℕ} {a b : ℕ → α} : AgreeTo z (n + 1) a b ↔
    a 0 = b 0 ∧ (b 0 ≠ z → AgreeTo z n (fun k => a (k + 1)) fun k => b (k + 1)) := by
  constructor
  · intro h
    refine ⟨h 0 (by omega) (by simp), fun hz i hi hb => h (i + 1) (by omega) fun j hj => ?_⟩
    cases j with
    | zero => exact hz
    | succ j => exact hb j (by omega)
  · rintro ⟨h0, hrest⟩ i hi hb
    cases i with
    | zero => exact h0
    | succ i =>
      exact hrest (hb 0 (by omega)) i (by omega) fun j hj => hb (j + 1) (by omega)

/-- What was copied agrees with what it was copied from. -/
theorem agreeTo_copy (n : ℕ) (b a : ℕ → α) : AgreeTo z n (copy n b a) b :=
  fun _ hi _ => if_pos hi

/-! ### Reading -/

theorem Reads.ne_term {a : ℕ → α} {l : List α} (h : Reads z a l) {i : ℕ} (hi : i < l.length) :
    a i ≠ z := by
  intro hz
  have hchar : a i = l[i] := h.char i _ (List.getElem?_eq_getElem hi)
  exact h.clean (hz ▸ hchar ▸ List.getElem_mem hi)

/-- A buffer that agrees with `b` beyond the end of the string in `b` reads the same. -/
theorem Reads.of_agreeTo {n : ℕ} {a b : ℕ → α} {l : List α} (h : AgreeTo z n a b)
    (hb : Reads z b l) (hl : l.length < n) : Reads z a l where
  char := fun i c hc => by
    have hi : i < l.length := (List.getElem?_eq_some_iff.1 hc).1
    rw [h i (by omega) fun j hj => hb.ne_term (by omega)]
    exact hb.char i c hc
  term := by
    rw [h l.length hl fun j hj => hb.ne_term hj]
    exact hb.term
  clean := hb.clean

/-- **A buffer that agrees with a string over `n` cells reads as the string cut to `n`** exactly
when the string ends within these cells or the next cell happens to hold the terminator. -/
theorem reads_take_iff {n : ℕ} {a b : ℕ → α} {l : List α} (h : AgreeTo z n a b)
    (hb : Reads z b l) : Reads z a (l.take n) ↔ l.length < n ∨ a n = z := by
  by_cases hl : l.length < n
  · rw [List.take_of_length_le hl.le]
    exact iff_of_true (hb.of_agreeTo h hl) (Or.inl hl)
  · have hlen : (l.take n).length = n := by rw [List.length_take]; omega
    constructor
    · intro hread
      have hterm := hread.term
      rw [hlen] at hterm
      exact Or.inr hterm
    · rintro (hlt | hz)
      · exact absurd hlt hl
      · refine ⟨fun i c hc => ?_, by rw [hlen]; exact hz, fun hmem => ?_⟩
        · have hi : i < n := hlen ▸ (List.getElem?_eq_some_iff.1 hc).1
          rw [h i hi fun j hj => hb.ne_term (by omega)]
          rw [List.getElem?_take_of_lt hi] at hc
          exact hb.char i c hc
        · exact hb.clean (List.mem_of_mem_take hmem)

/-- Over a string that goes on beyond the cell `n`, the rest of that string is read on. -/
theorem reads_take_append {n : ℕ} {a a' b : ℕ → α} {l old : List α} (h : AgreeTo z n a' b)
    (htail : ∀ k, n ≤ k → a' k = a k) (hb : Reads z b l) (ha : Reads z a old)
    (hl : n ≤ l.length) (hold : n ≤ old.length) : Reads z a' (l.take n ++ old.drop n) := by
  have hlen : (l.take n).length = n := by rw [List.length_take]; omega
  refine ⟨fun i c hc => ?_, ?_, fun hmem => ?_⟩
  · rcases Nat.lt_or_ge i n with hi | hi
    · rw [h i hi fun j hj => hb.ne_term (by omega)]
      rw [List.getElem?_append_left (by omega), List.getElem?_take_of_lt hi] at hc
      exact hb.char i c hc
    · rw [htail i hi]
      rw [List.getElem?_append_right (by omega), List.getElem?_drop, hlen,
        Nat.add_sub_cancel' hi] at hc
      exact ha.char i c hc
  · have htotal : (l.take n ++ old.drop n).length = old.length := by
      rw [List.length_append, hlen, List.length_drop]
      omega
    rw [htotal, htail _ hold]
    exact ha.term
  · rcases List.mem_append.1 hmem with hmem | hmem
    · exact hb.clean (List.mem_of_mem_take hmem)
    · exact ha.clean (List.mem_of_mem_drop hmem)

end CString
