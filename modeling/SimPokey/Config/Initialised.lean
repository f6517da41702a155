import SimPokey.Config.Capacity

/-!
# What a load owes to uninitialised memory

`device_t` records come from `malloc` and `numberOfPins` is never set, so both loaders count from
whatever the block held.  `loadedRegistry` is what a load that returns produces, as far as anybody
can read it; every load produces the same only when there is a section and no device in it
(`loadedRegistry_independent_iff`).
-/

namespace SimPokey

open FaultState LibConfig

variable {Setting : Type} [LibConfig Setting]

/-- A record of the registry, its table read through the pointers. -/
structure DeviceView where
  name : String
  serialNumber : String
  dhcp : ℤ
  uid : ℤ
  hasPokey : ℤ
  numberOfPins : ℤ
  pins : List (Option DevicePort)
  deriving DecidableEq

def deviceView (m : Memory) (d : Device) : DeviceView where
  name := d.name
  serialNumber := d.serialNumber
  dhcp := d.dhcp
  uid := d.uid
  hasPokey := d.hasPokey
  numberOfPins := d.numberOfPins
  pins := tableOf m d

/-- `activeDevices` and the records `devices[0..activeDevices)`. -/
def registryOf (w : World) : ℕ × List (Option DeviceView) :=
  (w.activeDevices, (List.range w.activeDevices).map fun i => (w.devices i).map (deviceView w.mem))

/-- The registry a load produces; `none` when it does not return. -/
def loadedRegistry (root : Setting) (junk : ℕ → DeviceJunk) :
    Option (ℕ × List (Option DeviceView)) :=
  match (loadConfiguredDevices (.loaded root) junk).run World.init with
  | .ok _ w => some (registryOf w)
  | .error _ _ => none

/-- The count of the first record of a registry. -/
def firstCount (r : ℕ × List (Option DeviceView)) : Option ℤ :=
  r.2[0]?.join.map DeviceView.numberOfPins

theorem firstCount_registryOf {w : World} {d : Device} (hactive : 0 < w.activeDevices)
    (hslot : w.devices 0 = some d) : firstCount (registryOf w) = some d.numberOfPins := by
  simp [firstCount, registryOf, List.getElem?_range hactive, hslot, deviceView]

/-- A load of at least one device that found its blocks cleared counts from zero. -/
theorem firstCount_of_cleared {root devices g : Setting} {gs : List Setting}
    (hfound : lookup root ["configuration", "devices"] = some devices)
    (helems : elems devices = g :: gs) :
    ∃ r c, loadedRegistry root (fun _ => .cleared) = some r ∧ firstCount r = some c ∧ 0 ≤ c := by
  have hzero : ∀ j, ((fun _ => .cleared : ℕ → DeviceJunk) j).numberOfPins = 0 := fun _ => rfl
  obtain ⟨w', hrun, -, hbuilds⟩ := loadConfiguredDevices_builds hzero hfound World.init
  obtain ⟨d, T, hslot, hT, -⟩ := hbuilds.tables 0 g (by rw [helems]; rfl)
  refine ⟨_, d.numberOfPins, by rw [loadedRegistry, hrun], ?_, ?_⟩
  · refine firstCount_registryOf ?_ hslot
    rw [helems]
    exact Nat.succ_pos _
  · rw [hT.count]
    exact Int.natCast_nonneg _

/-- Blocks in which `numberOfPins` happens to be `c`. -/
def DeviceJunk.counting (c : ℤ) : DeviceJunk := { DeviceJunk.cleared with numberOfPins := c }

/-- A load that found a negative enough count in the first block keeps it negative. -/
theorem firstCount_of_negative {root devices g : Setting} {gs : List Setting}
    (hfound : lookup root ["configuration", "devices"] = some devices)
    (helems : elems devices = g :: gs) {r : ℕ × List (Option DeviceView)}
    (h : loadedRegistry root (fun _ => .counting (-(groupEntries g + 1))) = some r) :
    ∃ c, firstCount r = some c ∧ c < 0 := by
  unfold loadedRegistry at h
  split at h
  · next ret w hrun =>
    obtain ⟨root', devices', w₁, hroot, hfound', -, hloads, hw⟩ := loadConfiguredDevices_ok hrun
    cases hroot
    obtain rfl : devices = devices' := Option.some.inj (hfound.symm.trans hfound')
    obtain ⟨d, hslot, hgrown⟩ := hloads.slot 0 g (by rw [helems]; rfl)
    cases h
    refine ⟨d.numberOfPins, ?_, ?_⟩
    · rw [hw]
      refine firstCount_registryOf ?_ hslot
      rw [helems]
      exact Nat.succ_pos _
    · have hcount := hgrown.count_le
      simp only [newDevice, DeviceJunk.counting] at hcount
      omega
  · cases h

/-- **A load produces the same registry whatever the memory holds exactly when there is a section
without devices.**  Without the section it does not return. -/
theorem loadedRegistry_independent_iff (root : Setting) :
    (∃ r, ∀ junk, loadedRegistry root junk = some r) ↔
      ∃ devices : Setting, lookup root ["configuration", "devices"] = some devices ∧
        elems devices = [] := by
  constructor
  · rintro ⟨r, hsame⟩
    cases hfound : (lookup root ["configuration", "devices"] : Option Setting) with
    | none =>
      -- `config_setting_length` of the missing section
      have hstop : loadedRegistry root (fun _ => .cleared) = none := by
        rw [loadedRegistry, loadConfiguredDevices, configLookup, hfound]
        rfl
      cases hstop.symm.trans (hsame _)
    | some devices =>
      refine ⟨devices, rfl, ?_⟩
      cases helems : elems devices with
      | nil => rfl
      | cons g gs =>
        obtain ⟨r', c, hr', hc, hpos⟩ := firstCount_of_cleared hfound helems
        obtain rfl : r' = r := Option.some.inj (hr'.symm.trans (hsame _))
        obtain ⟨c', hc', hneg⟩ := firstCount_of_negative hfound helems (hsame _)
        obtain rfl : c = c' := Option.some.inj (hc.symm.trans hc')
        omega
  · rintro ⟨devices, hfound, helems⟩
    refine ⟨(0, []), fun junk => ?_⟩
    have hrun : (loadConfiguredDevices (.loaded root) junk).run World.init =
        .ok 0 World.init := by
      rw [loadConfiguredDevices, bind_of_ok (configLookup_loaded ..), hfound]
      simp only [helems]
      rfl
    rw [loadedRegistry, hrun]
    rfl

/-- A device without pins: its table has as many entries as its block happened to say. -/
theorem loadedRegistry_depends_on_memory : ¬ ∀ root : Tree, (devicesOf root).length ≤ maxDevices →
    (∀ g ∈ devicesOf root, (declaredTable g).length ≤ maxPins) →
      ∃ r, ∀ junk, loadedRegistry root junk = some r := by
  intro h
  obtain ⟨r, hsame⟩ := h (Tree.file [Tree.device "25423" [] []] []) (by decide) (by decide)
  exact absurd ((hsame fun _ => .cleared).trans (hsame fun _ => .counting 1).symm) (by decide)

end SimPokey
