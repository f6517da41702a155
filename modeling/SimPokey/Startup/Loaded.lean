import SimPokey.Config.Apart
import SimPokey.Config.Capacity
import SimPokey.Startup.Errors
import SimPokey.Startup.Represents

/-!
# The startup as a whole

`Site.loaded` is what the configuration describes: slot `k` is the configured device `k`, not
connected, with the declared table of its group.  The load leaves a world that represents it
(`beforeLoop_represents`), so a world in any turn represents the site in that turn
(`ReachesTurn.sites`), and all of `main` matches the startup loop on the site
(`Complete.main_matches`).
-/

namespace SimPokey

open FaultState LibConfig

variable {Setting : Type} [LibConfig Setting]

/-- The site of the groups `gs`. -/
def Site.loaded (gs : List Setting) : Site where
  slot := fun k => if k < gs.length then some ⟨k, k, none⟩ else none
  ports := fun l => (gs[l]?).elim [] groupTable
  sent := []
  brk := gs.length
  textsFit := true

/-- The record of the configured device `l` before its pins are loaded. -/
def configuredDevice (junk : ℕ → DeviceJunk) (gs : List Setting) (l : ℕ) : Device :=
  (gs[l]?).elim .cleared (newDevice (junk l) l)

/-- `D` are the loaded records of the groups `gs`, and their tables, which have the pointers `ptr`,
share none. -/
structure Configured (junk : ℕ → DeviceJunk) (gs : List Setting) (D : ℕ → Device)
    (ptr : ℕ → List ℕ) : Prop where
  device : ∀ l, D l = { configuredDevice junk gs l with
    numberOfPins := (D l).numberOfPins, pins := (D l).pins }
  apart : ∀ l < gs.length, ∀ l' < gs.length, l ≠ l' → List.Disjoint (ptr l) (ptr l')

/-- The serial number of the configured device `l`. -/
def configuredSerial (junk : ℕ → DeviceJunk) (gs : List Setting) (l : ℕ) : String :=
  (configuredDevice junk gs l).serialNumber

/-- The name of the configured device `l`. -/
def configuredName (junk : ℕ → DeviceJunk) (gs : List Setting) (l : ℕ) : String :=
  (configuredDevice junk gs l).name

theorem Configured.serial {junk : ℕ → DeviceJunk} {gs : List Setting} {D : ℕ → Device}
    {ptr : ℕ → List ℕ} (h : Configured junk gs D ptr) :
    configuredSerial junk gs = fun l => (D l).serialNumber := by
  funext l
  rw [h.device l]
  rfl

theorem Configured.name {junk : ℕ → DeviceJunk} {gs : List Setting} {D : ℕ → Device}
    {ptr : ℕ → List ℕ} (h : Configured junk gs D ptr) :
    configuredName junk gs = fun l => (D l).name := by
  funext l
  rw [h.device l]
  rfl

/-- What the load put into the slot of a group. -/
theorem loaded_slot {junk : ℕ → DeviceJunk} {gs : List Setting} {w : World}
    (hloads : Loads junk 0 gs World.init w) (hbuilds : Builds 0 gs World.init w) {l : ℕ}
    {g : Setting} (hl : gs[l]? = some g) :
    ∃ d T, w.devices l = some d ∧
      d = { newDevice (junk l) l g with numberOfPins := d.numberOfPins, pins := d.pins } ∧
      Holds w.mem d T ∧ records T = groupTable g := by
  obtain ⟨d, hslot, hgrown⟩ := hloads.slot l g hl
  obtain ⟨d', T, hslot', hT, hrec⟩ := hbuilds.tables l g hl
  obtain rfl : d = d' := Option.some.inj (hslot.symm.trans hslot')
  rw [Nat.zero_add] at hslot hgrown
  have hbrk : World.init.brk + l = l := Nat.zero_add l
  rw [hbrk] at hgrown
  exact ⟨d, T, hslot, hgrown.device, hT, hrec⟩

/-- The records a load left, whatever the rest of the startup before the loop stores. -/
theorem Loads.represents {junk : ℕ → DeviceJunk} {gs : List Setting} {w : World}
    (hloads : Loads junk 0 gs World.init w) (hbuilds : Builds 0 gs World.init w)
    (hsent : w.mem.sent = []) (hmessages : w.mem.messages = []) (hfit : w.mem.AllTextsFit) (m : ℕ)
    (s : Option Simulator) : Represents m gs.length (fun l => (w.devices l).getD .cleared)
      (fun l => pointersOf ((w.devices l).getD .cleared))
      { w.touch .simConfig with
        activeDevices := gs.length, simConfig := s, numberOfDevices := m } (.loaded gs) where
  numberOfDevices := rfl
  activeDevices := rfl
  shutdown := by
    show w.shutdown = []
    rw [hloads.world]
    rfl
  brk := by
    show w.brk = gs.length
    rw [hloads.world]
    exact Nat.zero_add _
  sent := hsent
  messages := hmessages
  devices := fun k => by
    show w.devices k = _
    unfold Site.loaded
    by_cases hk : k < gs.length
    · obtain ⟨d, T, hslot, hd, -⟩ := loaded_slot hloads hbuilds (List.getElem?_eq_getElem hk)
      simp only [if_pos hk, Option.map_some, slotDevice, hslot, Option.getD_some]
      rw [hd]
      rfl
    · simp only [if_neg hk, Option.map_none]
      exact hloads.others k (by omega)
  filled := fun k hk => ⟨⟨k, k, none⟩, if_pos hk⟩
  source := fun k t ht => by
    simp only [Site.loaded] at ht
    split_ifs at ht with hk
    cases ht
    exact hk
  table := fun l hl => by
    obtain ⟨d, T, hslot, -, hT, hrec⟩ := loaded_slot hloads hbuilds (List.getElem?_eq_getElem hl)
    simp only [hslot, Option.getD_some, Site.loaded, List.getElem?_eq_getElem hl,
      Option.elim_some]
    exact ⟨T, hT.mono (List.prefix_refl _), hT.pointersOf_eq.symm, hrec⟩
  texts := by
    have htouch : TextsFit w.mem (w.touch .simConfig).mem := .touch (fun _ _ h => by cases h) w.mem
    exact iff_of_true (htouch.all_iff.2 hfit) rfl

/-- The records a load left are those of the configuration. -/
theorem Loads.configured {junk : ℕ → DeviceJunk} (hzero : ∀ j, (junk j).numberOfPins = 0)
    {gs : List Setting} {w : World}
    (hrun : (loadDevicesFrom junk 0 gs).run World.init = .ok () w)
    (hloads : Loads junk 0 gs World.init w) (hbuilds : Builds 0 gs World.init w) :
    Configured junk gs (fun l => (w.devices l).getD .cleared)
      (fun l => pointersOf ((w.devices l).getD .cleared)) where
  device := fun l => by
    cases hl : gs[l]? with
    | none =>
      have hlen := List.getElem?_eq_none_iff.1 hl
      have hempty : w.devices l = none := hloads.others l (by omega)
      rw [hempty, configuredDevice, hl]
      rfl
    | some g =>
      obtain ⟨d, T, hslot, hd, -⟩ := loaded_slot hloads hbuilds hl
      rw [hslot, configuredDevice, hl]
      exact hd
  apart := fun l hl l' hl' hne => by
    obtain ⟨-, hapart⟩ := loadDevicesFrom_apart hzero gs hrun
    obtain ⟨d, T, hslot, -⟩ := loaded_slot hloads hbuilds (List.getElem?_eq_getElem hl)
    obtain ⟨d', T', hslot', -⟩ := loaded_slot hloads hbuilds (List.getElem?_eq_getElem hl')
    rw [hslot, hslot']
    exact hapart l hl l' hl' hne d d' (by rwa [Nat.zero_add]) (by rwa [Nat.zero_add])

/-- A load writes no texts. -/
theorem loadedWorld_allTextsFit {junk : ℕ → DeviceJunk} (hzero : ∀ j, (junk j).numberOfPins = 0)
    (root : Setting) : (loadedWorld root junk).mem.AllTextsFit := by
  intro a ha
  rcases (loadConfiguredDevices_accesses hzero root a).1 ha with ⟨k, -, rfl⟩ | ⟨g, -, k, -, rfl⟩
  · exact fun _ _ h => by cases h
  · exact fitsText_pins k

/-- **The load leaves the configured site**, whatever it stored as the simulator. -/
theorem beforeLoop_represents {root : Setting} {junk : ℕ → DeviceJunk}
    (hzero : ∀ j, (junk j).numberOfPins = 0) {simJunk : SimulatorJunk} {env : Env} {w : World}
    (h : (beforeLoop (some root) junk simJunk env).run World.init = .ok () w) :
    ∃ D ptr, Configured junk (devicesOf root) D ptr ∧
      Represents env.network.length (devicesOf root).length D ptr w
        (.loaded (devicesOf root)) := by
  unfold beforeLoop at h
  obtain ⟨_, w₁, hload, h⟩ := bind_ok_iff.1 h
  obtain ⟨ret, w₂, hsim, hafter⟩ := bind_ok_iff.1 h
  obtain ⟨simConfig, rfl⟩ := loadSimulatorDetails_frame hsim
  obtain rfl := afterSimulatorDetails_ok hafter
  obtain ⟨root', devices, w₀, hroot, hfound, -, -, hw₁⟩ := loadConfiguredDevices_ok hload
  cases hroot
  rw [devicesOf_eq hfound]
  obtain ⟨w₀, hrun, hbuilds⟩ := loadDevicesFrom_builds hzero (elems devices) 0 World.init
  have hload' : (loadConfiguredDevices (.loaded root) junk).run World.init =
      .ok 0 { w₀ with activeDevices := (elems devices).length } := by
    rw [loadConfiguredDevices, bind_of_ok (configLookup_loaded ..), hfound]
    exact bind_of_ok hrun
  cases hload.symm.trans hload'
  have hloads := loadDevicesFrom_ok hrun
  obtain ⟨hsent, hmessages⟩ := loadDevicesFrom_silent hzero (elems devices) hrun
  have hfit := loadedWorld_allTextsFit hzero root
  rw [loadedWorld, hload', final_ok] at hfit
  exact ⟨_, _, hloads.configured hzero hrun hbuilds,
    hloads.represents hbuilds hsent hmessages hfit env.network.length simConfig⟩

/-- The startup loop on the configured site. -/
def siteStartup (junk : ℕ → DeviceJunk) (env : Env) (gs : List Setting) (i : ℕ) : SiteRun Unit :=
  siteLoop env (configuredSerial junk gs) (configuredName junk gs) i

/-- `main` has come to the turn `i`, in the world `w`. -/
def ReachesTurn (root : Setting) (junk : ℕ → DeviceJunk) (simJunk : SimulatorJunk) (env : Env)
    (i : ℕ) (w : World) : Prop :=
  i ≤ env.network.length ∧
    ∃ w₀, (beforeLoop (some root) junk simJunk env).run World.init = .ok () w₀ ∧
      (startupLoop env i).run w₀ = .ok () w

/-- A `main` that returned 0 has come past the last turn. -/
theorem reachesTurn_of_main {root : Setting} {junk : ℕ → DeviceJunk} {simJunk : SimulatorJunk}
    {env : Env} {w : World} (h : (main (some root) junk simJunk env).run World.init = .ok 0 w) :
    ReachesTurn root junk simJunk env env.network.length w := by
  unfold main at h
  obtain ⟨_, w₀, hbefore, h⟩ := bind_ok_iff.1 h
  rw [run_ite] at h
  split_ifs at h with hcli
  · cases h
  · obtain ⟨_, w₁, hloop, h⟩ := bind_ok_iff.1 h
    cases h
    exact ⟨le_rfl, w₀, hbefore, hloop⟩

/-- In every turn of a run the world represents the site in that turn. -/
theorem ReachesTurn.sites {root : Setting} {junk : ℕ → DeviceJunk} {simJunk : SimulatorJunk}
    {env : Env} {i : ℕ} {w : World} (h : ReachesTurn root junk simJunk env i w)
    (hzero : ∀ j, (junk j).numberOfPins = 0) :
    ∃ D ptr, Configured junk (devicesOf root) D ptr ∧
      ∀ i' w', ReachesTurn root junk simJunk env i' w' →
        ∃ r, (siteStartup junk env (devicesOf root) i').run (.loaded (devicesOf root)) = .ok () r ∧
          Represents env.network.length (devicesOf root).length D ptr w' r := by
  obtain ⟨-, w₀, hbefore, -⟩ := h
  obtain ⟨D, ptr, hconf, hrep⟩ := beforeLoop_represents hzero hbefore
  refine ⟨D, ptr, hconf, fun i' w' h' => ?_⟩
  obtain ⟨-, w₀', hbefore', hloop⟩ := h'
  -- the load is the same in every turn
  cases hbefore.symm.trans hbefore'
  have hmatch := startupLoop_simulates env hconf.apart i' w₀ _ hrep
  rw [hloop, ← hconf.serial, ← hconf.name] at hmatch
  obtain ⟨_, r, hsite, hrep'⟩ := hmatch.of_ok_left
  exact ⟨r, hsite, hrep'⟩

end SimPokey
