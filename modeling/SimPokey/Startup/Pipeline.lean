import SimPokey.Config.Registry
import SimPokey.Pin.ApplySpec
import SimPokey.Pin.Frames

/-!
# One device, from its groups to its polling

`deviceRun` is what a run does with the ports of one device: `loadConfiguredDevices` loads them,
the startup loop connects the device and validates them (`prepareDevice`), then they are applied
to the image and polled by the timer (`applyAndPoll`).  `prepareDevice_validates` says what the
table is when the device started with an empty one.
-/

namespace SimPokey

open FaultState LibConfig

variable {Setting : Type} [LibConfig Setting]

/-- The ports of `device`: loaded, connected to `pokey` and validated. -/
def prepareDevice (lib : PoKeysLib) (pins pwm : Option Setting) (pokey : PoKeysDevice)
    (device : Device) : MemRun Device := do
  let device ← loadPorts pins pwm device
  let checked ← checkValidPinConfiguration lib { device with pokey := some pokey, hasPokey := 1 }
  pure checked.2

/-- The ports of a prepared device: applied and polled. -/
def applyAndPoll (junk : ℕ → PwmJunk) (readings : List Reading) (device : Device) :
    MemRun Device := do
  let applied ← applyConfiguration junk device
  pollDevice readings applied.2

/-- The ports of `device`, from its groups on. -/
def deviceRun (lib : PoKeysLib) (junk : ℕ → PwmJunk) (pins pwm : Option Setting)
    (pokey : PoKeysDevice) (readings : List Reading) (device : Device) : MemRun Device := do
  let device ← prepareDevice lib pins pwm pokey device
  applyAndPoll junk readings device

/-! ### Any device -/

/-- Preparing a device uses slots of `pins[]` and texts only. -/
theorem prepareDevice_frames (lib : PoKeysLib) (pins pwm : Option Setting) (pokey : PoKeysDevice)
    (d : Device) : Frames (UsesOnly IsSlotOrText) (prepareDevice lib pins pwm pokey d) := by
  have hload : Frames (UsesOnly IsSlot) (loadPorts pins pwm d) :=
    .bind (loadPinConfiguration_frames pins d) fun _ =>
      .bind (loadPWMConfiguration_frames pwm _) fun _ => .pure _
  refine .bind (fun m => (hload m).imp fun _ => Or.inl) fun _ => ?_
  exact .bind (checkValidPinConfiguration_frames lib _) fun _ => .pure _

/-- A prepared device has the image that `PK_PinConfigurationGet` filled in. -/
theorem prepareDevice_pokey {lib : PoKeysLib} {pins pwm : Option Setting} {pokey : PoKeysDevice}
    {d d' : Device} {m m' : Memory}
    (h : (prepareDevice lib pins pwm pokey d).run m = .ok d' m') :
    d'.pokey = some (lib.readPinConfiguration pokey) := by
  unfold prepareDevice at h
  obtain ⟨d₁, m₁, -, hcheck⟩ := bind_ok_iff.1 h
  obtain ⟨⟨r, d₂⟩, m₂, hrun, hret⟩ := bind_ok_iff.1 hcheck
  cases hret
  unfold checkValidPinConfiguration at hrun
  rw [run_ite, if_neg one_ne_zero] at hrun
  obtain ⟨image, m₃, hof, hloop⟩ := bind_ok_iff.1 hrun
  cases hof
  obtain ⟨_, m₄, -, hret⟩ := bind_ok_iff.1 hloop
  cases hret
  rfl

/-! ### A device whose table starts empty -/

/-- The records of the validated table. -/
def validatedPorts (lib : PoKeysLib) (pokey : PoKeysDevice) (pins pwm : Option Setting) :
    List DevicePort :=
  (acceptedTable (elemsOf pins) (elemsOf pwm)).map
    (validated lib (lib.readPinConfiguration pokey))

theorem prepareDevice_validates (lib : PoKeysLib) (pins pwm : Option Setting)
    (pokey : PoKeysDevice) {d : Device} (hempty : d.numberOfPins = 0) (m : Memory) :
    ∃ d' m', (prepareDevice lib pins pwm pokey d).run m = .ok d' m' ∧
      tableOf m' d' = (validatedPorts lib pokey pins pwm).map some := by
  obtain ⟨r₁, d₁, m₁, r₂, d₂, m₂, T, h₁, h₂, hext, hrec⟩ :=
    loaders_extends (holds_nil (m := m) hempty) pins pwm
  have hports : (loadPorts pins pwm d).run m = .ok d₂ m₂ := by
    rw [loadPorts, bind_of_ok h₁, bind_of_ok h₂]
    rfl
  obtain ⟨m₃, hcheck, hholds, -⟩ := checkValidPinConfiguration_holds lib
    (hext.holds.withPokey (some pokey) 1) one_ne_zero rfl
  refine ⟨{ d₂ with pokey := some (lib.readPinConfiguration pokey), hasPokey := 1 }, m₃, ?_, ?_⟩
  · rw [prepareDevice, bind_of_ok hports, bind_of_ok hcheck]
    rfl
  · rw [hholds.tableOf_eq, records_validatedTable, hrec]
    rfl

end SimPokey
