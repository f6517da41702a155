import SimPokey.Startup.Turns

/-!
# The states the startup loop reaches

`Reached` is the invariant of the loop: with `n` configured devices, the slots below `n` are always
filled, a slot from `n` on is filled only by its own turn and then with a record whose serial
number some slot below `n` has as well, and nobody sets a `loop` field or starts a thread on
anything but the loop's local variable.
-/

namespace SimPokey

open FaultState LibConfig

/-- The registry of `n` configured devices before the turn `i`. -/
structure Reached (env : Env) (n i : ℕ) (w : World) : Prop where
  numberOfDevices : w.numberOfDevices = env.network.length
  activeDevices : w.activeDevices = n
  shutdown : w.shutdown = []
  threads : ∀ a ∈ w.threads, a = .localInt
  filled : ∀ j < n, ∃ d, w.devices j = some d
  empty : ∀ j, n ≤ j → i ≤ j → w.devices j = none
  loop : ∀ j d, w.devices j = some d → d.loop = none
  copied : ∀ j d, n ≤ j → w.devices j = some d → ∃ k < n, HasSerial w k d.serialNumber

theorem Registered.reached {Setting : Type} [LibConfig Setting] {junk : ℕ → DeviceJunk}
    {gs : List Setting} {env : Env} {w : World}
    (h : Registered junk gs env.network.length w) : Reached env gs.length 0 w where
  numberOfDevices := h.numberOfDevices
  activeDevices := h.activeDevices
  shutdown := h.shutdown
  threads := by simp [h.threads]
  filled := fun j hj => by
    obtain ⟨d, hslot, -⟩ := h.slot j gs[j] (List.getElem?_eq_getElem hj)
    exact ⟨d, hslot⟩
  empty := fun j hj _ => h.empty j hj
  loop := fun j d hd => by
    have hj : j < gs.length := by
      by_contra hj
      rw [h.empty j (by omega)] at hd
      cases hd
    obtain ⟨d', hslot, hgrown⟩ := h.slot j gs[j] (List.getElem?_eq_getElem hj)
    obtain rfl : d = d' := Option.some.inj (hd.symm.trans hslot)
    rw [hgrown.device]
    rfl
  copied := fun j d hj hd => by
    rw [h.empty j hj] at hd
    cases hd

/-- A record found anywhere has a twin among the configured ones. -/
theorem Reached.twin {env : Env} {n i j : ℕ} {w : World} (h : Reached env n i w) {d : Device}
    (hd : w.devices j = some d) : ∃ l < n, HasSerial w l d.serialNumber := by
  by_cases hj : j < n
  · exact ⟨j, hj, d, hd, rfl⟩
  · exact h.copied j d (by omega) hd

/-- Every turn keeps the invariant. -/
theorem Reached.turn {env : Env} {n i : ℕ} {s : String} {w w' : World} (h : Reached env n i w)
    (hturn : Turn env i s w w') : Reached env n (i + 1) w' := by
  obtain ⟨hnumber, hactive, hshutdown⟩ := hturn.counters
  refine ⟨hnumber.trans h.numberOfDevices, hactive.trans h.activeDevices,
    hshutdown.trans h.shutdown, ?_, ?_, ?_, ?_, ?_⟩
  · intro a ha
    rcases hturn.threads ha with ha | rfl
    · exact h.threads a ha
    · rfl
  · intro k hk
    by_cases hki : k = i
    · subst hki
      rcases hturn.devices_self with hsame | ⟨_, _, _, _, _, hnew⟩
      · exact hsame ▸ h.filled k hk
      · exact ⟨_, hnew⟩
    · exact hturn.devices_of_ne hki ▸ h.filled k hk
  · intro k hn hk
    rw [hturn.devices_of_ne (by omega)]
    exact h.empty k hn (by omega)
  · intro k d' hd'
    by_cases hki : k = i
    · subst hki
      rcases hturn.devices_self with hsame | ⟨j, d, _, hslot, _, hnew⟩
      · exact h.loop k d' (hsame ▸ hd')
      · obtain rfl := Option.some.inj (hnew.symm.trans hd')
        exact h.loop j d hslot
    · exact h.loop k d' (hturn.devices_of_ne hki ▸ hd')
  · intro k d' hn hd'
    -- a filled slot from `n` on belongs to a turn from `n` on, which leaves the slots below alone
    have hki : k ≤ i := by
      by_contra hki
      rw [hturn.devices_of_ne (by omega), h.empty k hn (by omega)] at hd'
      cases hd'
    have hsource : ∃ l < n, HasSerial w l d'.serialNumber := by
      by_cases hki' : k = i
      · subst hki'
        rcases hturn.devices_self with hsame | ⟨j, d, _, hslot, _, hnew⟩
        · exact h.twin (hsame ▸ hd')
        · obtain rfl := Option.some.inj (hnew.symm.trans hd')
          show ∃ l < n, HasSerial w l d.serialNumber
          exact h.twin hslot
      · exact h.twin (hturn.devices_of_ne hki' ▸ hd')
    obtain ⟨l, hl, hserial⟩ := hsource
    exact ⟨l, hl, (hturn.hasSerial_of_ne (by omega)).2 hserial⟩

/-- **The invariant holds before every turn.** -/
theorem startupLoop_reached {Setting : Type} [LibConfig Setting] {junk : ℕ → DeviceJunk}
    {gs : List Setting} {env : Env} {w₀ w : World} {i : ℕ}
    (h₀ : Registered junk gs env.network.length w₀) (hi : i ≤ env.network.length)
    (h : (startupLoop env i).run w₀ = .ok () w) : Reached env gs.length i w :=
  startupLoop_invariant (Reached env gs.length) h₀.reached
    (fun _ _ _ _ hI hturn => hI.turn hturn) hi h

end SimPokey
