import SimPokey.Pin.Pwm
import SimPokey.Startup.Sent

/-!
# The PWM settings a startup sends

Every connected slot is sent one `PK_PWMConfigurationSet` for each PWM record of its declared table
that passes the check, in the order of the table, and none divided by zero (`main_pwm`).  A call
tells the duty of its own channel only: the rest of the block is what `malloc` found there.
-/

namespace SimPokey

open FaultState LibConfig

/-! ### No divisor is zero -/

/-- The records of a connected slot can be divided by. -/
def Site.Divides (r : Site) : Prop :=
  ∀ k t, r.slot k = some t → t.image.isSome = true → ∀ p ∈ r.ports t.source,
    dividesByZero p = false

theorem Site.Divides.turn {env : Env} {serial name : ℕ → String} {i : ℕ} {s : String} {r r' : Site}
    (h : r.Divides) (hturn : SiteTurn env serial name i s r r') : r'.Divides := by
  cases hturn with
  | skipped k _ hr' =>
    rw [hr']
    exact h
  | up j t pokey hslot hserial hconnect hrun =>
    obtain ⟨ports, -, hany, hr'⟩ := siteBringUp_ok hrun
    have hself : r'.ports t.source = ports := by rw [hr']; exact Function.update_self ..
    intro k t' ht' himage p hp
    by_cases hsource : t'.source = t.source
    · rw [hsource, hself] at hp
      exact Bool.eq_false_iff.2 (List.any_eq_false.1 hany p hp)
    · -- another device, so the slot and its records are as they were
      have hports : r'.ports t'.source = r.ports t'.source := by
        rw [hr']
        exact Function.update_of_ne hsource ..
      have hk : k ≠ i := fun hk => by
        obtain ⟨image, hslot'⟩ : ∃ image, r'.slot i = some ⟨t.source, r.brk, image⟩ := by
          rw [hr']
          exact ⟨_, Function.update_self ..⟩
        rw [hk, hslot'] at ht'
        exact hsource (congrArg Slot.source (Option.some.inj ht')).symm
      have hslotk : r'.slot k = r.slot k := by
        rw [hr']
        exact Function.update_of_ne hk ..
      exact h k t' (hslotk ▸ ht') himage p (hports ▸ hp)

variable {Setting : Type} [LibConfig Setting]

theorem divides_loaded (gs : List Setting) : (Site.loaded gs).Divides := by
  intro k t ht himage
  simp only [Site.loaded] at ht
  split_ifs at ht with hk
  cases ht
  cases himage

theorem Reaches.divides {root : Setting} {junk : ℕ → DeviceJunk} {env : Env} {i : ℕ}
    {D : ℕ → Device} {ptr : ℕ → List ℕ} {w : World} {r : Site}
    (h : Reaches root junk env i D ptr w r) : r.Divides :=
  siteLoop_invariant (fun _ => Site.Divides) (divides_loaded (devicesOf root))
    (fun _ _ _ _ hdivides hturn => hdivides.turn hturn) h.le h.run

/-! ### What one call tells -/

/-- What a call for the record `p` tells: the period, the quotient as the duty of its channel, and
one cell of enabled channels, which is set only for the first channel. -/
structure PwmTold (p : DevicePort) (pwm : Pwm) : Prop where
  divisor : p.dutyCycle ≠ 0
  period : pwm.pwmPeriod = 12500000
  duty : ∃ duty, pwm.pwmDuty = some duty ∧ duty.read (22 - p.pin) = some (pwmDutyOf p.dutyCycle)
  enabled : ∃ channels, pwm.pwmEnabledChannels = some channels ∧ channels.size = 1 ∧
    (p.pin = 22 → channels.read 0 = some 1)

theorem pwmTold_pwmSettings {p : DevicePort} (hpin : 17 ≤ p.pin ∧ p.pin ≤ 22)
    (hduty : p.dutyCycle ≠ 0) (junk : PwmJunk) : PwmTold p (pwmSettings junk p) where
  divisor := hduty
  period := rfl
  duty := by
    have hchannel : 22 - p.pin = (pwmChannel p.pin junk.ch : ℤ) - 1 := by
      rw [pwmChannel_eq hpin]
      omega
    refine ⟨_, rfl, ?_⟩
    rw [hchannel]
    refine Block.read_write ?_ _
    show 0 ≤ (pwmChannel p.pin junk.ch : ℤ) - 1 ∧ (pwmChannel p.pin junk.ch : ℤ) - 1 < (6 : ℕ)
    omega
  enabled := by
    refine ⟨_, rfl, rfl, fun hfirst => ?_⟩
    have hchannel : (pwmChannel p.pin junk.ch : ℤ) - 1 = 0 := by
      rw [pwmChannel_eq hpin]
      omega
    rw [hchannel]
    refine Block.read_write ?_ 1
    show (0 : ℤ) ≤ 0 ∧ (0 : ℤ) < (1 : ℕ)
    decide

/-- The PWM records that pass the check. -/
def pwmPorts (lib : PoKeysLib) (checked : PoKeysDevice) (ps : List DevicePort) : List DevicePort :=
  ps.filter fun p =>
    p.type == PinType.pwmInput && lib.checkPinCapability checked p.pin .pwmOut != 0

theorem filter_isPwm_validated (lib : PoKeysLib) (checked : PoKeysDevice) {ps : List DevicePort}
    (h : ∀ p ∈ ps, p.valid = pinInvalid) :
    (ps.map (validated lib checked)).filter isPwm =
      (pwmPorts lib checked ps).map (validated lib checked) := by
  rw [List.filter_map, pwmPorts]
  refine congrArg _ (List.filter_congr fun p hp => ?_)
  rw [Bool.eq_iff_iff, Function.comp_apply, isPwm_iff, validated_type,
    validated_valid_iff lib checked (h p hp)]
  constructor
  · rintro ⟨hpass, htype⟩
    simpa [passesCheck, htype, PinType.pwmInput, PinType.digitalInput, PinType.digitalOutput,
      PinType.encoder, PinType.fastEncoder, PinType.ufastEncoder, PinType.analogInput] using hpass
  · intro hpwm
    obtain ⟨htype, hcap⟩ := Bool.and_eq_true_iff.1 hpwm
    have htype' : p.type = PinType.pwmInput := by simpa using htype
    refine ⟨?_, htype'⟩
    simpa [passesCheck, htype', PinType.pwmInput, PinType.digitalInput, PinType.digitalOutput,
      PinType.encoder, PinType.fastEncoder, PinType.ufastEncoder, PinType.analogInput] using hcap

/-- Applying a declared table as a check marked it makes the settings of its PWM records. -/
theorem forall₂_pwmTold (lib : PoKeysLib) (checked : PoKeysDevice) {P W : List Setting}
    (hdiv : ∀ p ∈ (acceptedTable P W).map (validated lib checked), dividesByZero p = false)
    (junk : ℕ → PwmJunk) :
    List.Forall₂ PwmTold (pwmPorts lib checked (acceptedTable P W))
      (pwmTable junk ((acceptedTable P W).map (validated lib checked))) := by
  have hinvalid : ∀ p ∈ acceptedTable P W, p.valid = pinInvalid := fun p hp =>
    (of_mem_acceptedTable hp).1
  have hall := (forall₂_pwmTable (R := PwmTold) (Q := fun _ => True) junk
    ((acceptedTable P W).map (validated lib checked)) (by
      intro p' hp' hpwm j
      obtain ⟨p, hp, rfl⟩ := List.mem_map.1 hp'
      have htype := ((isPwm_iff _).1 hpwm).2
      rw [validated_type] at htype
      have hpin := (of_mem_acceptedTable_pwm hp htype).2
      have hduty : (validated lib checked p).dutyCycle ≠ 0 := fun hzero => by
        have hstops := (dividesByZero_iff _).2 ⟨hpwm, hzero⟩
        rw [hdiv _ hp'] at hstops
        cases hstops
      refine iff_of_true (pwmTold_pwmSettings ?_ hduty j) trivial
      rw [validated_pin]
      exact hpin)).2 fun _ _ _ => trivial
  rw [filter_isPwm_validated lib checked hinvalid, List.forall₂_map_left_iff] at hall
  refine hall.imp fun p pwm htold => ?_
  rw [validated_same] at htold
  exact ⟨htold.divisor, htold.period, htold.duty, htold.enabled⟩

/-! ### The startup -/

theorem filterMap_nameCalls (after : ℕ → Char) (name : String) (pokey : PoKeysDevice) :
    (nameCalls after name pokey).filterMap pwmSent = [] := by
  unfold nameCalls
  split_ifs <;> rfl

/-- **The PWM settings of a started system.**  When no two devices on the network have the same
serial number, the table of each connected slot is the declared one of a group as its own check
marks it, and the slot is sent, in the order of that table, one call for each PWM record that
passes and none else; its image is left with the last of them. -/
theorem main_pwm (root : Setting) (junk : ℕ → DeviceJunk) (simJunk : SimulatorJunk)
    (env : Env) (hzero : ∀ j, (junk j).numberOfPins = 0)
    (hserials : (env.network.map NetworkDeviceSummary.serialNumber).Nodup) (i : ℕ) (w : World)
    (hreach : ReachesTurn root junk simJunk env i w) :
    w.mem.sent = (List.range i).flatMap w.sentTo ∧
      (∀ k, w.sentTo k ≠ [] → ∃ d, w.devices k = some d ∧ d.hasPokey = 1) ∧
      ∀ k d, w.devices k = some d → d.hasPokey = 1 →
        ∃ g ∈ devicesOf root, ∃ checked image, checkedFor env k d = some checked ∧
          d.pokey = some image ∧
          tableOf w.mem d = ((groupTable g).map (validated env.lib checked)).map some ∧
          List.Forall₂ PwmTold (pwmPorts env.lib checked (groupTable g))
            ((w.sentTo k).filterMap pwmSent) ∧
          image.pwm = ((w.sentTo k).filterMap pwmSent).getLast?.getD checked.pwm := by
  obtain ⟨D, ptr, r, h⟩ := hreach.reaches hzero
  let name := configuredName junk (devicesOf root)
  refine ⟨h.sent_eq, fun k => h.connected_of_sent, fun k d hd hconnected => ?_⟩
  obtain ⟨t, ht, rfl, hl⟩ := h.slot hd
  cases himage : t.image with
  | none => simp [slotDevice, himage] at hconnected
  | some image =>
    obtain ⟨hki, nd, pokey, hnd, -, hfound, hvalue⟩ := h.explained.up k t image ht himage
    let checked := checkedImage env name k t.source pokey
    have hmarked := fun i' (hk : k < i') => h.explained.marked_own hserials ht hfound hk
      (groupTable (devicesOf root)[t.source])
    have hdiv : ∀ p ∈ (groupTable (devicesOf root)[t.source]).map (validated env.lib checked),
        dividesByZero p = false := by
      have hports := h.divides k t ht (Slot.isSome_of_found hfound)
      rw [h.explained.ports, loaded_ports hl, hmarked i hki] at hports
      exact hports
    have hsent : (w.sentTo k).filterMap pwmSent = pwmTable (env.junk k)
        ((groupTable (devicesOf root)[t.source]).map (validated env.lib checked)) := by
      obtain ⟨new, hnew, hpwm⟩ := appliedTable_sent (env.junk k)
        ((groupTable (devicesOf root)[t.source]).map (validated env.lib checked)) (checked, [])
      rw [h.sentTo_eq, Site.calls, ht, Option.elim_some, hfound, Option.elim_some, turnCalls,
        loaded_ports hl, hmarked (k + 1) (by omega), List.filterMap_append, filterMap_nameCalls,
        List.nil_append, ← hpwm, hnew, List.nil_append]
    refine ⟨_, List.getElem_mem hl, checked, image, ?_, himage, ?_, ?_, ?_⟩
    · rw [checkedFor_slotDevice env h.configured.name, hfound]
      rfl
    · rw [h.tableOf hl, hmarked i hki]
    · rw [hsent]
      exact forall₂_pwmTold env.lib checked hdiv (env.junk k)
    · rw [hsent, hvalue, appliedImage, loaded_ports hl, hmarked (k + 1) (by omega),
        appliedTable_image]

/-- The PWM channel of the lamp, with the duty 12500000 / 40. -/
theorem main_pwm_lamp : ∃ pwm duty,
    (final (cleanRun lamp lampFound)).mem.sent.filterMap pwmSent = [pwm] ∧
      pwm.pwmDuty = some duty ∧ duty.read 3 = some 312500 := by
  obtain ⟨d, hd, hconnected⟩ := lampFound_connected
  obtain ⟨hsent, -, hslots⟩ := main_pwm lamp (fun _ => .cleared) ⟨none, none, 0, 0⟩
    lampFound (fun _ => rfl) (by decide) _ _ (reachesTurn_of_main lampFound_returns)
  obtain ⟨g, hg, checked, image, hchecked, -, -, htold, -⟩ := hslots 0 d hd hconnected
  have hgroup : devicesOf lamp =
    [Tree.device "17" [Tree.port 3 "DIGITAL_OUTPUT"] [Tree.pwm 4 40]] := rfl
  rw [hgroup, List.mem_singleton] at hg
  have hports : pwmPorts lampFound.lib checked (groupTable g) =
      [⟨"Undefined", 19, PinType.pwmInput, 0, 0, 0, 0, 40⟩] := by
    have htable : groupTable g = [⟨"Undefined", 3, 2, 0, 0, 0, 0, 0⟩,
        ⟨"Undefined", 19, PinType.pwmInput, 0, 0, 0, 0, 40⟩] := by rw [hg]; decide
    have hcap : lampFound.lib.checkPinCapability checked 19 .pwmOut = 1 := by
      show (if (1 : ℤ) ≤ 19 ∧ (19 : ℤ) ≤ checked.iPinCount then (1 : ℤ) else 0) = 1
      rw [lampFound_iPinCount hconnected hchecked]
      decide
    rw [htable, pwmPorts, List.filter_cons_of_neg Bool.false_ne_true, List.filter_cons_of_pos]
    · rfl
    · show (PinType.pwmInput == PinType.pwmInput &&
        lampFound.lib.checkPinCapability checked 19 .pwmOut != 0) = true
      rw [hcap]
      decide
  have hone : (List.range lampFound.network.length).flatMap
      (final (cleanRun lamp lampFound)).sentTo = (final (cleanRun lamp lampFound)).sentTo 0 :=
    List.append_nil _
  rw [hports] at htold
  rw [hsent, hone]
  cases hcalls : ((final (cleanRun lamp lampFound)).sentTo 0).filterMap pwmSent with
  | nil => rw [hcalls] at htold; cases htold
  | cons pwm rest =>
    rw [hcalls, List.forall₂_cons] at htold
    obtain ⟨htold, hrest⟩ := htold
    obtain ⟨duty, hduty, hread⟩ := htold.duty
    rw [List.forall₂_nil_left_iff.1 hrest]
    exact ⟨pwm, duty, rfl, hduty, hread⟩

end SimPokey
