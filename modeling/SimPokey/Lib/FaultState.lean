import Mathlib

/-!
# State computations that stop at a fault

A computation over a state `σ` either returns a value or stops at a fault `ε`; the state it had
reached is kept in both cases, so that what was recorded before a fault can still be read.
The carrier is core's `EStateM`.

* `final`, the state reached;
* inversion of sequencing (`bind_ok_iff`) and its forward forms (`bind_of_ok`, `bind_of_error`);
* `onPart`, a computation on one component of a larger state;
* rules for the loop `foldlM` over a list: `foldlM_total` (no turn stops), `foldlM_partial` (the
  loop returned) and `foldlM_final` (either way);
* `Frames R x`, that `x` moves along the preorder `R`, returning or stopping, with one rule for
  each way to build a computation.
-/

namespace FaultState

variable {ε σ τ α β : Type}

/-- A computation over the state `σ` that may stop at a fault `ε`. -/
abbrev Run (ε σ α : Type) := EStateM ε σ α

/-- The state reached, whether the computation returned or stopped. -/
def final : EStateM.Result ε σ α → σ
  | .ok _ s => s
  | .error _ s => s

@[simp] theorem final_ok (a : α) (s : σ) : final (.ok a s : EStateM.Result ε σ α) = s := rfl

@[simp] theorem final_error (e : ε) (s : σ) :
    final (.error e s : EStateM.Result ε σ α) = s := rfl

/-- The value returned, if the computation returned. -/
def value : EStateM.Result ε σ α → Option α
  | .ok a _ => some a
  | .error _ _ => none

/-- A computation that returned is known from its value and the state it reached. -/
theorem ok_of_value {r : EStateM.Result ε σ α} {a : α} (h : value r = some a) :
    r = .ok a (final r) := by
  cases r with
  | ok b s => cases h; rfl
  | error e s => cases h

theorem ok_of_isSome {r : EStateM.Result ε σ α} (h : (value r).isSome = true) :
    ∃ a, r = .ok a (final r) := by
  obtain ⟨a, ha⟩ := Option.isSome_iff_exists.1 h
  exact ⟨a, ok_of_value ha⟩

/-! ### Sequencing -/

@[simp] theorem run_pure (a : α) (s : σ) : (pure a : Run ε σ α).run s = .ok a s := rfl

@[simp] theorem run_ite (c : Prop) [Decidable c] (x y : Run ε σ α) (s : σ) :
    (if c then x else y).run s = if c then x.run s else y.run s := by
  split_ifs <;> rfl

theorem bind_of_ok {x : Run ε σ α} {f : α → Run ε σ β} {a : α} {s s' : σ}
    (h : x.run s = .ok a s') : (x >>= f).run s = (f a).run s' := by
  show EStateM.bind x f s = f a s'
  have h' : x s = .ok a s' := h
  simp only [EStateM.bind, h']

theorem bind_of_error {x : Run ε σ α} {f : α → Run ε σ β} {e : ε} {s s' : σ}
    (h : x.run s = .error e s') : (x >>= f).run s = .error e s' := by
  show EStateM.bind x f s = .error e s'
  have h' : x s = .error e s' := h
  simp only [EStateM.bind, h']

theorem bind_ok_iff {x : Run ε σ α} {f : α → Run ε σ β} {b : β} {s s'' : σ} :
    (x >>= f).run s = .ok b s'' ↔ ∃ a s', x.run s = .ok a s' ∧ (f a).run s' = .ok b s'' := by
  constructor
  · intro h
    cases hx : x.run s with
    | ok a s' => exact ⟨a, s', rfl, by rwa [bind_of_ok hx] at h⟩
    | error e s' => rw [bind_of_error hx] at h; cases h
  · rintro ⟨a, s', hx, hf⟩
    rw [bind_of_ok hx, hf]

/-- What every fault of `x` and every continuation after `x` satisfies, the sequence satisfies. -/
theorem final_bind {x : Run ε σ α} {f : α → Run ε σ β} {s : σ} (J : σ → Prop)
    (herr : ∀ e s', x.run s = .error e s' → J s')
    (hok : ∀ a s', x.run s = .ok a s' → J (final ((f a).run s'))) :
    J (final ((x >>= f).run s)) := by
  cases hx : x.run s with
  | ok a s' => rw [bind_of_ok hx]; exact hok a s' hx
  | error e s' => rw [bind_of_error hx]; exact herr e s' hx

/-! ### A component of a larger state -/

/-- `x`, run on the component of the state that `get` reads and `set` replaces. -/
def onPart (get : τ → σ) (set : τ → σ → τ) (x : Run ε σ α) : Run ε τ α := fun t =>
  match x.run (get t) with
  | .ok a s => .ok a (set t s)
  | .error e s => .error e (set t s)

theorem onPart_of_ok {get : τ → σ} {set : τ → σ → τ} {x : Run ε σ α} {t : τ} {a : α} {s : σ}
    (h : x.run (get t) = .ok a s) : (onPart get set x).run t = .ok a (set t s) := by
  simp only [onPart, EStateM.run] at h ⊢
  rw [h]

theorem onPart_of_error {get : τ → σ} {set : τ → σ → τ} {x : Run ε σ α} {t : τ} {e : ε} {s : σ}
    (h : x.run (get t) = .error e s) : (onPart get set x).run t = .error e (set t s) := by
  simp only [onPart, EStateM.run] at h ⊢
  rw [h]

theorem onPart_ok_iff {get : τ → σ} {set : τ → σ → τ} {x : Run ε σ α} {t t' : τ} {a : α} :
    (onPart get set x).run t = .ok a t' ↔ ∃ s, x.run (get t) = .ok a s ∧ t' = set t s := by
  show (match x.run (get t) with
    | .ok a s => .ok a (set t s)
    | .error e s => .error e (set t s) : EStateM.Result ε τ α) = .ok a t' ↔ _
  cases x.run (get t) with
  | ok b s =>
    simp only [EStateM.Result.ok.injEq]
    exact ⟨fun h => ⟨s, ⟨h.1, rfl⟩, h.2.symm⟩, fun ⟨s', h, h'⟩ => ⟨h.1, by rw [h', h.2]⟩⟩
  | error e s => simp

/-! ### Loops over a list -/

section Loop

variable {f : β → α → Run ε σ β}

@[simp] theorem foldlM_nil_run (b : β) (s : σ) :
    (([] : List α).foldlM f b).run s = .ok b s := rfl

theorem foldlM_cons_of_ok {a : α} {l : List α} {b b' : β} {s s' : σ}
    (h : (f b a).run s = .ok b' s') :
    ((a :: l).foldlM f b).run s = (l.foldlM f b').run s' := by
  rw [List.foldlM_cons]
  exact bind_of_ok h

/-- No turn stops: an invariant indexed by the elements already done is carried to the end. -/
theorem foldlM_total (I : List α → β → σ → Prop) {l : List α} {b : β} {s : σ} (h0 : I [] b s)
    (hstep : ∀ done a rest b s, l = done ++ a :: rest → I done b s →
      ∃ b' s', (f b a).run s = .ok b' s' ∧ I (done ++ [a]) b' s') :
    ∃ b' s', (l.foldlM f b).run s = .ok b' s' ∧ I l b' s' := by
  -- the elements still to do shrink while `done` grows
  suffices h : ∀ (rest done : List α) (b : β) (s : σ), l = done ++ rest → I done b s →
      ∃ b' s', (rest.foldlM f b).run s = .ok b' s' ∧ I l b' s' from h l [] b s rfl h0
  intro rest
  induction rest with
  | nil =>
    intro done b s hl hI
    rw [List.append_nil] at hl
    exact ⟨b, s, rfl, hl ▸ hI⟩
  | cons a rest ih =>
    intro done b s hl hI
    obtain ⟨b', s', hbody, hI'⟩ := hstep done a rest b s hl hI
    rw [foldlM_cons_of_ok hbody]
    exact ih (done ++ [a]) b' s' (by rw [hl, List.append_assoc, List.singleton_append]) hI'

/-- The loop returned: an invariant that every returning turn carries on holds at the end. -/
theorem foldlM_partial (I : List α → β → σ → Prop) {l : List α} {b b' : β} {s s' : σ}
    (h0 : I [] b s)
    (hstep : ∀ done a b s b' s', I done b s → (f b a).run s = .ok b' s' →
      I (done ++ [a]) b' s')
    (h : (l.foldlM f b).run s = .ok b' s') : I l b' s' := by
  suffices hgo : ∀ (rest done : List α) (b : β) (s : σ), I done b s →
      (rest.foldlM f b).run s = .ok b' s' → I (done ++ rest) b' s' from hgo l [] b s h0 h
  intro rest
  induction rest with
  | nil =>
    intro done b s hI hrun
    cases hrun
    rwa [List.append_nil]
  | cons a rest ih =>
    intro done b s hI hrun
    rw [List.foldlM_cons] at hrun
    obtain ⟨b₁, s₁, h₁, h₂⟩ := bind_ok_iff.1 hrun
    have hrest := ih (done ++ [a]) b₁ s₁ (hstep done a b s b₁ s₁ hI h₁) h₂
    rwa [List.append_assoc, List.singleton_append] at hrest

/-- Either way: what every turn leaves in the state, returning or stopping, is found at the end. -/
theorem foldlM_final (I : β → σ → Prop) (J : σ → Prop) {l : List α} {b : β} {s : σ}
    (hIJ : ∀ b s, I b s → J s)
    (hstep : ∀ a ∈ l, ∀ b s, I b s → (∀ b' s', (f b a).run s = .ok b' s' → I b' s') ∧
      (∀ e s', (f b a).run s = .error e s' → J s'))
    (h0 : I b s) : J (final ((l.foldlM f b).run s)) := by
  induction l generalizing b s with
  | nil => exact hIJ b s h0
  | cons a l ih =>
    obtain ⟨hok, herr⟩ := hstep a List.mem_cons_self b s h0
    rw [List.foldlM_cons]
    exact final_bind J herr fun b' s' h =>
      ih (fun a' ha' => hstep a' (List.mem_cons_of_mem _ ha')) (hok b' s' h)

/-- A loop whose turns act only on the image under `g` of what they pass on is the loop of the
images. -/
theorem foldlM_image {γ : Type} (g : β → γ) {f' : γ → α → Run ε σ γ}
    (h : ∀ b a, f' (g b) a = g <$> f b a) (l : List α) (b : β) :
    l.foldlM f' (g b) = g <$> l.foldlM f b := by
  induction l generalizing b with
  | nil => simp
  | cons a l ih => simp only [List.foldlM_cons, h, bind_map_left, map_bind, ih]

end Loop

/-! ### What happens either way -/

section Frames

variable {R : σ → σ → Prop}

/-- Whether it returns or stops, `x` takes a state to one that `R` allows. -/
def Frames (R : σ → σ → Prop) (x : Run ε σ α) : Prop := ∀ s, R s (final (x.run s))

theorem Frames.of_eq [IsPreorder σ R] {x : Run ε σ α} (h : ∀ s, final (x.run s) = s) :
    Frames R x := fun s => by
  rw [h s]
  exact refl s

theorem Frames.pure [IsPreorder σ R] (a : α) : Frames R (pure a : Run ε σ α) :=
  Frames.of_eq fun _ => rfl

theorem Frames.bind [IsPreorder σ R] {x : Run ε σ α} {f : α → Run ε σ β} (hx : Frames R x)
    (hf : ∀ a, Frames R (f a)) : Frames R (x >>= f) := by
  intro s
  have hs := hx s
  refine final_bind (R s) (fun e s' h => ?_) fun a s' h => ?_
  · rw [h] at hs
    exact hs
  · rw [h] at hs
    exact trans_of R hs (hf a s')

theorem Frames.ite (c : Prop) [Decidable c] {x y : Run ε σ α} (hx : Frames R x)
    (hy : Frames R y) : Frames R (if c then x else y) := by
  split_ifs
  · exact hx
  · exact hy

theorem Frames.foldlM [IsPreorder σ R] {f : β → α → Run ε σ β} {l : List α}
    (hf : ∀ a ∈ l, ∀ b, Frames R (f b a)) (b : β) : Frames R (l.foldlM f b) := by
  intro s
  refine foldlM_final (fun _ s' => R s s') (R s) (fun _ _ h => h) (fun a ha b s' h => ?_) (refl s)
  have hs := trans_of R h (hf a ha b s')
  constructor
  · intro b' s'' hrun
    rw [hrun] at hs
    exact hs
  · intro e s'' hrun
    rw [hrun] at hs
    exact hs

end Frames

/-! ### Loops over the indices below a bound -/

section Range

variable {f : β → ℕ → Run ε σ β}

/-- Splitting `0, …, n - 1` at an element, that element is the number of those before it. -/
theorem range_split {n i : ℕ} {done rest : List ℕ} (h : List.range n = done ++ i :: rest) :
    i = done.length ∧ i < n := by
  have hget : (List.range n)[done.length]? = some i := by
    rw [h, List.getElem?_append_right le_rfl, Nat.sub_self]
    rfl
  obtain ⟨hlt, hi⟩ := List.getElem?_eq_some_iff.1 hget
  rw [List.getElem_range] at hi
  rw [List.length_range] at hlt
  exact ⟨hi.symm, hi ▸ hlt⟩

/-- No turn stops: an invariant indexed by the number of turns done is carried to the end. -/
theorem rangeM_total (I : ℕ → β → σ → Prop) {n : ℕ} {b : β} {s : σ} (h0 : I 0 b s)
    (hstep : ∀ i < n, ∀ b s, I i b s → ∃ b' s', (f b i).run s = .ok b' s' ∧ I (i + 1) b' s') :
    ∃ b' s', ((List.range n).foldlM f b).run s = .ok b' s' ∧ I n b' s' := by
  obtain ⟨b', s', hrun, hI⟩ := foldlM_total (fun done => I done.length) (l := List.range n) h0 (by
    intro done i rest b s hl hI
    obtain ⟨rfl, hlt⟩ := range_split hl
    obtain ⟨b', s', hrun, hI'⟩ := hstep _ hlt b s hI
    exact ⟨b', s', hrun, by rwa [List.length_append, List.length_singleton]⟩)
  exact ⟨b', s', hrun, by rwa [List.length_range] at hI⟩

end Range

end FaultState
