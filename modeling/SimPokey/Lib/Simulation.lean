import SimPokey.Lib.FaultState

/-!
# Two computations that do the same

`Simulates E R Q x y` compares computations over two different states: from states related by `R`
they either both stop, at the same fault and in states related by `E`, or both return, with values
and states related by `Q`.  So whatever is known of one of them, the fault it stops at or what it
leaves, is known of the other.  There is one rule for each way to build a computation.
-/

namespace FaultState

variable {ε σ τ α β α' β' : Type}

/-- Both results are the same fault, in states related by `E`, or both are returns related by
`Q`. -/
inductive Matches (E : σ → τ → Prop) (Q : α → β → σ → τ → Prop) :
    EStateM.Result ε σ α → EStateM.Result ε τ β → Prop
  | ok {a : α} {b : β} {s : σ} {t : τ} (h : Q a b s t) : Matches E Q (.ok a s) (.ok b t)
  | error (e : ε) {s : σ} {t : τ} (h : E s t) : Matches E Q (.error e s) (.error e t)

section Matches

variable {E : σ → τ → Prop} {Q : α → β → σ → τ → Prop} {e : ε} {a : α} {b : β} {s : σ} {t : τ}
  {r : EStateM.Result ε σ α} {r' : EStateM.Result ε τ β}

/-- What the first one returned. -/
theorem Matches.of_ok_left (h : Matches E Q (.ok a s) r') : ∃ b t, r' = .ok b t ∧ Q a b s t := by
  cases h with
  | ok h => exact ⟨_, _, rfl, h⟩

/-- The fault the first one stopped at. -/
theorem Matches.of_error_left (h : Matches E Q (.error e s) r') :
    ∃ t, r' = .error e t ∧ E s t := by
  cases h with
  | error _ h => exact ⟨_, rfl, h⟩

end Matches

/-- From states related by `R`, the two computations have matching results. -/
def Simulates (E R : σ → τ → Prop) (Q : α → β → σ → τ → Prop) (x : Run ε σ α)
    (y : Run ε τ β) : Prop := ∀ s t, R s t → Matches E Q (x.run s) (y.run t)

variable {E R : σ → τ → Prop} {Q : α → β → σ → τ → Prop} {Q' : α' → β' → σ → τ → Prop}

theorem Simulates.pure {a : α} {b : β} (h : ∀ s t, R s t → Q a b s t) :
    Simulates E R Q (pure a : Run ε σ α) (pure b : Run ε τ β) := fun s t hR => .ok (h s t hR)

theorem Simulates.bind {x : Run ε σ α} {y : Run ε τ β} {f : α → Run ε σ α'} {g : β → Run ε τ β'}
    (hx : Simulates E R Q x y) (hf : ∀ a b, Simulates E (Q a b) Q' (f a) (g b)) :
    Simulates E R Q' (x >>= f) (y >>= g) := by
  intro s t hR
  have hmatch := hx s t hR
  cases hxs : x.run s with
  | ok a s' =>
    rw [hxs] at hmatch
    obtain ⟨b, t', hyt, hQ⟩ := hmatch.of_ok_left
    rw [bind_of_ok hxs, bind_of_ok hyt]
    exact hf a b s' t' hQ
  | error e s' =>
    rw [hxs] at hmatch
    obtain ⟨t', hyt, hE⟩ := hmatch.of_error_left
    rw [bind_of_error hxs, bind_of_error hyt]
    exact .error e hE

end FaultState
