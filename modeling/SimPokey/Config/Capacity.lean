import SimPokey.Config.Registry

/-!
# The arrays `loadConfiguredDevices` fills

`devices[]` has `maxDevices` slots and each `pins[]` has `maxPins`; the loaders compare no index
with either bound.  `loadConfiguredDevices_accesses` says exactly which slots a load uses, and
`capacityKept_iff` when all of them exist.
-/

namespace SimPokey

open FaultState LibConfig

variable {Setting : Type} [LibConfig Setting]

/-- The world `loadConfiguredDevices` leaves, started at the entry of `main`. -/
def loadedWorld (root : Setting) (junk : ℕ → DeviceJunk) : World :=
  final ((loadConfiguredDevices (.loaded root) junk).run World.init)

/-- The load of a section that is there, with empty tables. -/
theorem loadConfiguredDevices_builds {junk : ℕ → DeviceJunk}
    (hzero : ∀ j, (junk j).numberOfPins = 0) {root devices : Setting}
    (hfound : lookup root ["configuration", "devices"] = some devices) (w : World) :
    ∃ w', (loadConfiguredDevices (.loaded root) junk).run w =
        .ok 0 { w' with activeDevices := (elems devices).length } ∧
      Loads junk 0 (elems devices) w w' ∧ Builds 0 (elems devices) w w' := by
  obtain ⟨w', hrun, hbuilds⟩ := loadDevicesFrom_builds hzero (elems devices) 0 w
  refine ⟨w', ?_, loadDevicesFrom_ok hrun, hbuilds⟩
  rw [loadConfiguredDevices, bind_of_ok (configLookup_loaded ..), hfound]
  exact bind_of_ok hrun

/-- **The slots a load uses**: one of `devices[]` for each group, and of its `pins[]` one for each
record of its declared table. -/
theorem loadConfiguredDevices_accesses {junk : ℕ → DeviceJunk}
    (hzero : ∀ j, (junk j).numberOfPins = 0) (root : Setting) (a : Access) :
    a ∈ (loadedWorld root junk).mem.accesses ↔
      (∃ k < (devicesOf root).length, a = .devices k) ∨
        ∃ g ∈ devicesOf root, ∃ k < (groupTable g).length, a = .pins k := by
  cases hfound : (lookup root ["configuration", "devices"] : Option Setting) with
  | none =>
    have hnone : devicesOf root = [] := by rw [devicesOf, hfound]; rfl
    have hstop : loadedWorld root junk = World.init := by
      rw [loadedWorld, loadConfiguredDevices, configLookup, hfound]
      rfl
    rw [hnone, hstop]
    simp [World.init, Memory.empty]
  | some devices =>
    obtain ⟨w', hrun, -, hbuilds⟩ := loadConfiguredDevices_builds hzero hfound World.init
    obtain ⟨new, hnew, huses⟩ := hbuilds.uses
    have hall := devicesOf_eq hfound
    have haccesses : (loadedWorld root junk).mem.accesses = new := by
      rw [loadedWorld, hrun]
      exact hnew
    rw [haccesses, hall, huses]
    simp only [Nat.zero_add]

/-- Pin and type of each entry a group's table declares. -/
def declaredTable (g : Setting) : List (ℤ × ℤ) :=
  pinsPart (elemsOf (getMember g "pins")) ++
    pwmPart (elemsOf (getMember g "pins")) (elemsOf (getMember g "pwm"))

theorem groupTable_map (g : Setting) :
    (groupTable g).map (fun p => (p.pin, p.type)) = declaredTable g := acceptedTable_map _ _

theorem length_declaredTable (g : Setting) : (declaredTable g).length = (groupTable g).length := by
  rw [← groupTable_map, List.length_map]

/-- Every slot used exists, what does not fit is left out, and the other fields of each record
are those of its group. -/
def CapacityKept (root : Setting) (junk : ℕ → DeviceJunk) : Prop :=
  (∀ a ∈ (loadedWorld root junk).mem.accesses, a.InBounds) ∧
  ∀ j g, (devicesOf root)[j]? = some g → j < maxDevices →
    ∃ d, (loadedWorld root junk).devices j = some d ∧
      d = { newDevice (junk j) d.addr g with numberOfPins := d.numberOfPins, pins := d.pins } ∧
      tableOf (loadedWorld root junk).mem d = ((groupTable g).take maxPins).map some

/-- Each group's record, with all that its table declares. -/
theorem loadedWorld_slot {root : Setting} {junk : ℕ → DeviceJunk}
    (hzero : ∀ j, (junk j).numberOfPins = 0) {j : ℕ} {g : Setting}
    (hg : (devicesOf root)[j]? = some g) :
    ∃ d, (loadedWorld root junk).devices j = some d ∧
      d = { newDevice (junk j) d.addr g with numberOfPins := d.numberOfPins, pins := d.pins } ∧
      tableOf (loadedWorld root junk).mem d = (groupTable g).map some := by
  cases hfound : (lookup root ["configuration", "devices"] : Option Setting) with
  | none => simp [devicesOf, hfound, elemsOf] at hg
  | some devices =>
    have hall := devicesOf_eq hfound
    obtain ⟨w', hrun, hloads, hbuilds⟩ := loadConfiguredDevices_builds hzero hfound World.init
    have hworld : loadedWorld root junk =
        { w' with activeDevices := (elems devices).length } := by
      rw [loadedWorld, hrun]
      rfl
    obtain ⟨d, T, hslot, hT, hrec⟩ := hbuilds.tables j g (hall ▸ hg)
    obtain ⟨d', hslot', hgrown⟩ := hloads.slot j g (hall ▸ hg)
    obtain rfl : d' = d := Option.some.inj (hslot'.symm.trans hslot)
    rw [Nat.zero_add] at hslot hgrown
    refine ⟨d', by rw [hworld, ← hslot], ?_, ?_⟩
    · rw [hgrown.device]
      rfl
    · rw [hworld, ← hrec]
      exact hT.tableOf_eq

/-- **Exactly the configurations that fit are loaded inside the arrays.** -/
theorem capacityKept_iff (root : Setting) (junk : ℕ → DeviceJunk)
    (hzero : ∀ j, (junk j).numberOfPins = 0) :
    CapacityKept root junk ↔
      (devicesOf root).length ≤ maxDevices ∧
        ∀ g ∈ devicesOf root, (declaredTable g).length ≤ maxPins := by
  simp only [length_declaredTable]
  have haccesses := loadConfiguredDevices_accesses hzero root
  constructor
  · rintro ⟨hin, -⟩
    constructor
    · by_contra hlen
      have hlast := hin (.devices maxDevices)
        ((haccesses _).2 (Or.inl ⟨maxDevices, by omega, rfl⟩))
      exact absurd hlast.2 (lt_irrefl _)
    · intro g hg
      by_contra hlen
      have hlast := hin (.pins maxPins)
        ((haccesses _).2 (Or.inr ⟨g, hg, maxPins, by omega, rfl⟩))
      exact absurd hlast.2 (lt_irrefl _)
  · rintro ⟨hdevices, hpins⟩
    refine ⟨fun a ha => ?_, fun j g hg _ => ?_⟩
    · rcases (haccesses a).1 ha with ⟨k, hk, rfl⟩ | ⟨g, hg, k, hk, rfl⟩
      · exact ⟨by omega, by omega⟩
      · have hfit := hpins g hg
        exact ⟨by omega, by omega⟩
    · have hfit := hpins g (List.mem_of_getElem? hg)
      rw [List.take_of_length_le hfit]
      exact loadedWorld_slot hzero hg

/-- A device with two pins and a PWM channel fits. -/
theorem capacityKept_iff_fits : CapacityKept
    (Tree.file [Tree.device "25423" [Tree.port 3 "DIGITAL_OUTPUT", Tree.port 4 "DIGITAL_INPUT"]
      [Tree.pwm 5 40]] []) fun _ => .cleared :=
  (capacityKept_iff _ _ fun _ => rfl).2 ⟨by decide, by decide⟩

/-- A device with the `pins` entries `0, …, 55`: one more than `pins[]` has room for. -/
def overfullDevice : Tree :=
  Tree.device "25423" ((List.range 56).map fun k => Tree.port k "DIGITAL_INPUT") []

theorem length_declaredTable_overfullDevice : (declaredTable overfullDevice).length = 56 := by
  decide +kernel

/-- The record of the last entry is stored behind `pins[]`. -/
theorem not_capacityKept_overfullDevice : ¬ ∀ (root : Tree) (junk : ℕ → DeviceJunk),
    (∀ j, (junk j).numberOfPins = 0) → CapacityKept root junk := by
  intro h
  have hzero : ∀ j, ((fun _ => .cleared : ℕ → DeviceJunk) j).numberOfPins = 0 := fun _ => rfl
  have hkept := h (Tree.file [overfullDevice] []) _ hzero
  have hlen : 55 < (groupTable overfullDevice).length := by
    rw [← length_declaredTable, length_declaredTable_overfullDevice]
    decide
  have hused := (loadConfiguredDevices_accesses hzero (Tree.file [overfullDevice] []) (.pins 55)).2
      (Or.inr ⟨overfullDevice, List.mem_singleton_self _, 55, hlen, rfl⟩)
  exact absurd (hkept.1 _ hused).2 (by decide)

end SimPokey
