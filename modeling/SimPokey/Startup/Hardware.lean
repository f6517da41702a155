import SimPokey.Startup.Pipeline

/-!
# What the device is told

The device learns its pin functions from `PK_PinConfigurationSet`, its output levels from
`PK_DigitalIOSet` and its PWM settings from `PK_PWMConfigurationSet`, each time from the image as
it is at the call.  `applyPinConfigurationToDevice` edits the image and never makes the first of
these calls, so the device agrees with the table exactly when the table asks for no pin function
(`hardwareAgrees_iff`, and `configured_hardwareAgrees_iff` from the configuration on).
-/

namespace SimPokey

open FaultState LibConfig

/-- What the device has been told; `none` where it has been told nothing. -/
structure Hardware where
  pinFunction : ℤ → Option ℤ
  digitalValue : ℤ → Option ℤ
  pwm : Option Pwm

/-- A device that has been told nothing. -/
def Hardware.untold : Hardware := ⟨fun _ => none, fun _ => none, none⟩

/-- What the device learns from a call. -/
def Hardware.learn (hw : Hardware) : LibCall → Hardware
  | .pinConfigurationSet pokey =>
      { hw with pinFunction := fun k => some (pokey.pins k).pinFunction }
  | .digitalIOSet pokey =>
      { hw with digitalValue := fun k => some (pokey.pins k).digitalValueSet }
  | .pwmConfigurationSet pokey => { hw with pwm := some pokey.pwm }
  | .deviceNameSet _ => hw

/-- What the device knows after the calls. -/
def Hardware.told (calls : List LibCall) : Hardware := calls.foldl Hardware.learn .untold

/-- Without `PK_PinConfigurationSet` no pin function is learned. -/
theorem Hardware.foldl_pinFunction {calls : List LibCall} (h : ∀ c ∈ calls, NotPinConfiguration c)
    (hw : Hardware) : (calls.foldl Hardware.learn hw).pinFunction = hw.pinFunction := by
  induction calls generalizing hw with
  | nil => rfl
  | cons c calls ih =>
    rw [List.foldl_cons, ih fun c' hc' => h c' (List.mem_cons_of_mem _ hc')]
    have hc := h c List.mem_cons_self
    cases c with
    | pinConfigurationSet pokey => exact absurd rfl (hc pokey)
    | digitalIOSet pokey => rfl
    | pwmConfigurationSet pokey => rfl
    | deviceNameSet pokey => rfl

/-- The device has been told the function of every valid digital pin of the table, and the default
of every valid output as its level. -/
def HardwareAgrees (table : List (Option DevicePort)) (hw : Hardware) : Prop :=
  ∀ p, some p ∈ table → p.valid ≠ pinInvalid →
    (p.type = PinType.digitalInput → hw.pinFunction (p.pin - 1) = some PinCap.digitalInput) ∧
    (p.type = PinType.digitalOutput → hw.pinFunction (p.pin - 1) = some PinCap.digitalOutput ∧
      hw.digitalValue (p.pin - 1) = some p.defaultValue)

/-- A digital input or output. -/
def IsDigital (p : DevicePort) : Prop :=
  p.type = PinType.digitalInput ∨ p.type = PinType.digitalOutput

instance (p : DevicePort) : Decidable (IsDigital p) := inferInstanceAs (Decidable (_ ∨ _))

/-- A device that was told no pin function agrees with the tables without valid digital pins. -/
theorem hardwareAgrees_iff_of_untold {table : List (Option DevicePort)} {hw : Hardware}
    (h : ∀ k, hw.pinFunction k = none) :
    HardwareAgrees table hw ↔ ∀ p, some p ∈ table → IsDigital p → p.valid = pinInvalid := by
  constructor
  · rintro hagrees p hp (hin | hout)
    · by_contra hvalid
      have htold := (hagrees p hp hvalid).1 hin
      rw [h] at htold
      cases htold
    · by_contra hvalid
      have htold := ((hagrees p hp hvalid).2 hout).1
      rw [h] at htold
      cases htold
  · intro hnone p hp hvalid
    constructor
    · exact fun hin => absurd (hnone p hp (Or.inl hin)) hvalid
    · exact fun hout => absurd (hnone p hp (Or.inr hout)) hvalid

/-- What `applyPinConfigurationToDevice` leaves when it returns: the table as it was, and a device
that has been told no pin function. -/
theorem apply_untold {junk : ℕ → PwmJunk} {d d' : Device} {m m' : Memory}
    (h : (applyPinConfigurationToDevice junk d).run m = .ok d' m') :
    tableOf m' d' = tableOf m d ∧
      ∀ k, (Hardware.told (m'.sent.drop m.sent.length)).pinFunction k = none := by
  have hof : ∃ pokey, d.pokey = some pokey := by
    obtain ⟨pokey, m₁, hof, -⟩ := bind_ok_iff.1 h
    simp only [pokeyOf, EStateM.run] at hof
    cases hpokey : d.pokey with
    | none => rw [hpokey] at hof; cases hof
    | some image => exact ⟨image, rfl⟩
  obtain ⟨pokey, hpokey⟩ := hof
  obtain ⟨r, hloop, hrun⟩ := applyPinConfigurationToDevice_applied m junk hpokey
  rw [hrun] at h
  cases r with
  | error e m₁ => cases h
  | ok pokey' m₁ =>
    cases h
    obtain ⟨new, hnew, hnot⟩ := hloop.sent
    constructor
    · have hports : m'.ports = m.ports := hloop.ports
      exact tableOf_congr _ hports
    · intro k
      have hsent : m'.sent = m.sent ++ new := hnew
      rw [hsent, List.drop_left, Hardware.told, Hardware.foldl_pinFunction hnot]
      rfl

/-- **The device agrees with the table exactly when no digital pin of the table is valid.** -/
theorem hardwareAgrees_iff (junk : ℕ → PwmJunk) (d d' : Device) (m m' : Memory)
    (hrun : (applyPinConfigurationToDevice junk d).run m = .ok d' m') :
    HardwareAgrees (tableOf m' d') (Hardware.told (m'.sent.drop m.sent.length)) ↔
      ∀ p, some p ∈ tableOf m d → IsDigital p → p.valid = pinInvalid := by
  obtain ⟨htable, huntold⟩ := apply_untold hrun
  rw [htable]
  exact hardwareAgrees_iff_of_untold huntold

/-- A connected device with one valid PWM pin. -/
theorem hardwareAgrees_iff_pwm :
    let d : Device :=
      { Device.cleared with
        numberOfPins := 1, pokey := some (.cleared 55), pins := fun _ => some 0 }
    let m : Memory := { Memory.empty with ports := [⟨"Fan", 17, PinType.pwmInput, 0, 1, 0, 0, 40⟩] }
    ∃ d' m', (applyPinConfigurationToDevice (fun _ => .cleared) d).run m = .ok d' m' ∧
      HardwareAgrees (tableOf m' d') (Hardware.told (m'.sent.drop m.sent.length)) := by
  intro d m
  obtain ⟨d', hrun⟩ : ∃ d', (applyPinConfigurationToDevice (fun _ => .cleared) d).run m =
      .ok d' (final ((applyPinConfigurationToDevice (fun _ => .cleared) d).run m)) :=
    ok_of_isSome (by decide)
  refine ⟨d', _, hrun, (hardwareAgrees_iff _ d d' m _ hrun).2 fun p hp hdigital => ?_⟩
  have hpwm : p = ⟨"Fan", 17, PinType.pwmInput, 0, 1, 0, 0, 40⟩ := by
    simpa [tableOf, slotOf, d, m] using hp
  rw [hpwm] at hdigital
  exact absurd hdigital (by decide)

/-- One output on pin 3 of a device that can do everything: the pin is valid, and the device is
told nothing about it. -/
theorem not_hardwareAgrees_output :
    ∃ d m d' m',
      (prepareDevice .capable (some (Tree.list [Tree.port 3 "DIGITAL_OUTPUT"])) none (.cleared 55)
        .cleared).run .empty = .ok d m ∧
      (applyPinConfigurationToDevice (fun _ => .cleared) d).run m = .ok d' m' ∧
      ¬ HardwareAgrees (tableOf m' d') (Hardware.told (m'.sent.drop m.sent.length)) := by
  let prepared := (prepareDevice .capable (some (Tree.list [Tree.port 3 "DIGITAL_OUTPUT"])) none
    (.cleared 55) .cleared).run .empty
  let applied := (applyPinConfigurationToDevice (fun _ => .cleared)
    ((value prepared).get (by decide))).run (final prepared)
  have happlied : (value applied).isSome = true := by decide
  have hrun : applied = .ok _ (final applied) := ok_of_value (Option.some_get happlied).symm
  refine ⟨_, _, _, _, ok_of_value (Option.some_get (by decide)).symm, hrun, ?_⟩
  obtain ⟨htable, huntold⟩ := apply_untold hrun
  rw [htable, hardwareAgrees_iff_of_untold huntold]
  intro hnone
  have hport := hnone ⟨"Undefined", 3, PinType.digitalOutput, 0, 1, 0, 0, 0⟩ (by decide) (by decide)
  exact absurd hport (by decide)

/-! ### From the configuration on -/

variable {Setting : Type} [LibConfig Setting]

/-- **A device whose table started empty agrees with it exactly when no digital pin of its
configuration passes the check.** -/
theorem configured_hardwareAgrees_iff {lib : PoKeysLib} {junk : ℕ → PwmJunk}
    {pins pwm : Option Setting} {pokey : PoKeysDevice} {d d₁ d' : Device} {m m₁ m' : Memory}
    (hempty : d.numberOfPins = 0)
    (hprepare : (prepareDevice lib pins pwm pokey d).run m = .ok d₁ m₁)
    (happly : (applyPinConfigurationToDevice junk d₁).run m₁ = .ok d' m') :
    HardwareAgrees (tableOf m' d') (Hardware.told (m'.sent.drop m₁.sent.length)) ↔
      ∀ p ∈ acceptedTable (elemsOf pins) (elemsOf pwm), IsDigital p →
        passesCheck lib (lib.readPinConfiguration pokey) p = false := by
  obtain ⟨d₂, m₂, hrun, htable₁⟩ := prepareDevice_validates lib pins pwm pokey hempty m
  cases hprepare.symm.trans hrun
  obtain ⟨htable, huntold⟩ := apply_untold happly
  rw [htable, htable₁, hardwareAgrees_iff_of_untold huntold]
  have hvalid : ∀ p ∈ acceptedTable (elemsOf pins) (elemsOf pwm),
      ((validated lib (lib.readPinConfiguration pokey) p).valid = pinInvalid ↔
        passesCheck lib (lib.readPinConfiguration pokey) p = false) := by
    intro p hp
    have hiff := validated_valid_iff lib (lib.readPinConfiguration pokey)
      (of_mem_acceptedTable hp).1
    rw [← Bool.not_eq_true, ← hiff, not_not]
  simp only [validatedPorts, List.map_map, List.mem_map, Function.comp_apply,
    Option.some.injEq, forall_exists_index, and_imp]
  constructor
  · intro hnone p hp hdigital
    refine (hvalid p hp).1 (hnone _ p hp rfl ?_)
    rwa [IsDigital, validated_type]
  · rintro hnone _ p hp rfl hdigital
    rw [IsDigital, validated_type] at hdigital
    exact (hvalid p hp).2 (hnone p hp hdigital)

end SimPokey
