import SimPokey.Config.Capacity
import SimPokey.Startup.Reached

/-!
# The search against a registry of another size

`devices[]` has been filled with `n` records, and the search looks at as many slots as there are
devices on the network (`m`).  `lookupRight_iff` says, for every call the startup loop makes,
when its answer is the right one.
-/

namespace SimPokey

open FaultState LibConfig

/-- The call returns, it finds a record exactly when one in the registry has the serial number,
and what it returns is a copy of such a record. -/
def LookupRight (addr : ℕ) (s : String) (w : World) : Prop :=
  ∃ r, (getDeviceBySerialNumber addr s).run w = .ok r w ∧
    (r.isSome ↔ ∃ j, HasSerial w j s) ∧
    ∀ d, r = some d → ∃ j d₀, w.devices j = some d₀ ∧ d₀.serialNumber = s ∧
      d = { d₀ with addr := addr }

/-- The searched slots that are configured contain the serial number; or no configured slot is
beyond the searched ones, or none of those has it. -/
def SearchCovers (n m : ℕ) (s : String) (w : World) : Prop :=
  (∃ j < min n m, HasSerial w j s) ∨ (m ≤ n ∧ ∀ j, m ≤ j → j < n → ¬ HasSerial w j s)

theorem Reached.right_iff_covers {env : Env} {n i : ℕ} {w : World} (h : Reached env n i w)
    (hi : i < env.network.length) (addr : ℕ) (s : String) :
    LookupRight addr s w ↔ SearchCovers n env.network.length s w := by
  have hm := h.numberOfDevices
  rcases getDeviceBySerialNumber_cases addr s w with
    ⟨k, hk, d, hslot, hs, hrun⟩ | ⟨hmiss, hrun⟩ | ⟨k, hk, hnone, hbefore, hrun⟩
  · -- found: a record found from `n` on has a twin below
    have hfound : HasSerial w k s := ⟨d, hslot, hs⟩
    have hright : LookupRight addr s w := by
      refine ⟨_, hrun, by simpa using ⟨k, hfound⟩, fun d' hd' => ⟨k, d, hslot, hs, ?_⟩⟩
      exact (Option.some.inj hd').symm
    refine iff_of_true hright (Or.inl ?_)
    by_cases hkn : k < n
    · exact ⟨k, by omega, hfound⟩
    · obtain ⟨l, hl, hserial⟩ := h.twin hslot
      exact ⟨l, by omega, hs ▸ hserial⟩
  · -- missed: the slot of the last turn is filled, so it is a configured one
    have hmn : env.network.length ≤ n := by
      by_contra hmn
      obtain ⟨d, hd, -⟩ := hmiss (env.network.length - 1) (by omega)
      rw [h.empty _ (by omega) (by omega)] at hd
      cases hd
    have hnot : ∀ j < env.network.length, ¬ HasSerial w j s := fun j hj =>
      (hmiss j (by omega)).not_hasSerial
    constructor
    · rintro ⟨r, hrun', hiff, -⟩
      rw [hrun] at hrun'
      cases hrun'
      refine Or.inr ⟨hmn, fun j _ _ hserial => ?_⟩
      simpa using hiff.2 ⟨j, hserial⟩
    · rintro (⟨j, hj, hserial⟩ | ⟨-, hbeyond⟩)
      · exact absurd hserial (hnot j (by omega))
      · refine ⟨none, hrun, ⟨by simp, ?_⟩, by simp⟩
        rintro ⟨j, d, hd, hs⟩
        -- wherever the record is, some configured slot has its serial number
        obtain ⟨l, hl, hserial⟩ := h.twin hd
        rw [hs] at hserial
        by_cases hlm : l < env.network.length
        · exact absurd hserial (hnot l hlm)
        · exact absurd hserial (hbeyond l (by omega) hl)
  · -- an empty slot: all configured slots were passed before
    have hkn : n ≤ k := by
      by_contra hkn
      obtain ⟨d, hd⟩ := h.filled k (by omega)
      rw [hnone] at hd
      cases hd
    refine iff_of_false ?_ ?_
    · rintro ⟨r, hrun', -⟩
      rw [hrun] at hrun'
      cases hrun'
    · rintro (⟨j, hj, hserial⟩ | ⟨hmn, -⟩)
      · exact (hbefore j (by omega)).not_hasSerial hserial
      · omega

variable {Setting : Type} [LibConfig Setting]

/-- The world in which the turn after `w` makes its search: the copy has just been allocated. -/
def allocated (w : World) : World := { w with brk := w.brk + 1 }

/-- **Every call of the startup loop is right exactly when the search covers the serial number**,
for `n` configured devices and `m` on the network. -/
theorem lookupRight_iff (root : Setting) (junk : ℕ → DeviceJunk) (simJunk : SimulatorJunk)
    (env : Env) (w₀ : World)
    (hbefore : (beforeLoop (some root) junk simJunk env).run World.init = .ok () w₀) :
    ∀ (i : ℕ) (nd : NetworkDeviceSummary) (w : World), env.network[i]? = some nd →
      (startupLoop env i).run w₀ = .ok () w →
      (LookupRight w.brk (snprintfD nd.serialNumber) (allocated w) ↔
        SearchCovers (devicesOf root).length
          env.network.length (snprintfD nd.serialNumber) w) := by
  intro i nd w hnd hloop
  have hreg := beforeLoop_registered hbefore
  have hi : i < env.network.length := (List.getElem?_eq_some_iff.1 hnd).1
  have hreached := startupLoop_reached hreg hi.le hloop
  have hreached' : Reached env (devicesOf root).length i (allocated w) :=
    ⟨hreached.numberOfDevices, hreached.activeDevices, hreached.shutdown, hreached.threads,
      hreached.filled, hreached.empty, hreached.loop, hreached.copied⟩
  exact hreached'.right_iff_covers hi _ _

/-- Two devices are loaded, and there is one on the network, the first of them. -/
def firstAlone : EStateM.Result Fault World Unit :=
  (beforeLoop (some (Tree.file [Tree.device "25423" [] [], Tree.device "42" [] []]
    [Tree.simulator 8091])) (fun _ => .cleared) ⟨none, none, 0, 0⟩
    (.ofSerials [25423] fun _ => none)).run World.init

/-- The search finds it, although it does not come to the second one. -/
theorem lookupRight_iff_alone : ∃ d,
    (getDeviceBySerialNumber (final firstAlone).brk "25423").run (allocated (final firstAlone)) =
      .ok (some d) (allocated (final firstAlone)) ∧ d.serialNumber = "25423" := by
  have hbefore : firstAlone = .ok () (final firstAlone) :=
    ok_of_value (by decide : value firstAlone = some ())
  obtain ⟨d₀, hd₀, hserial⟩ := Option.map_eq_some_iff.1 (by decide :
    ((final firstAlone).devices 0).map Device.serialNumber = some "25423")
  obtain ⟨r, hrun, hfound, hcopy⟩ := (lookupRight_iff _ _ _ _ _ hbefore 0 _ _ rfl rfl).2
    (Or.inl ⟨0, by decide, d₀, hd₀, hserial⟩)
  obtain ⟨d, rfl⟩ := Option.isSome_iff_exists.1 (hfound.2 ⟨0, d₀, hd₀, hserial⟩)
  obtain ⟨j, d₁, -, hserial₁, rfl⟩ := hcopy d rfl
  exact ⟨_, hrun, hserial₁⟩

/-- One configured device and two others on the network: the first search runs into the empty
slot `devices[1]`. -/
theorem not_lookupRight_unknown : ¬ ∀ (root : Tree) (junk : ℕ → DeviceJunk)
    (simJunk : SimulatorJunk) (env : Env) (w₀ w : World) (i : ℕ) (nd : NetworkDeviceSummary),
    (devicesOf root).length ≤ maxDevices → env.network.length ≤ maxDevices →
    (beforeLoop (some root) junk simJunk env).run World.init = .ok () w₀ →
    env.network[i]? = some nd → (startupLoop env i).run w₀ = .ok () w →
      LookupRight w.brk (snprintfD nd.serialNumber) (allocated w) := by
  intro h
  have hbefore := ok_of_value (by decide : value ((beforeLoop
    (some (Tree.file [Tree.device "25423" [] []] [Tree.simulator 8091])) (fun _ => .cleared)
    ⟨none, none, 0, 0⟩ (.ofSerials [1, 2] fun _ => none)).run World.init) = some ())
  obtain ⟨r, hrun, -⟩ := h _ _ _ _ _ _ 0 _ (by decide) (by decide) hbefore rfl rfl
  have hreturned := congrArg (fun x => (value x).isSome) hrun
  change _ = true at hreturned
  exact absurd hreturned (by decide)

end SimPokey
