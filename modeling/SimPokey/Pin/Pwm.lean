import SimPokey.Pin.ApplyImage
import SimPokey.Pin.Locals

/-!
# The PWM settings

Each valid PWM pin puts a new duty block and a new block of enabled channels into the image, and
divides `PWM_CLOCK` by its `dutyCycle`.

* `dutiesInRange_iff`: for which `dutyCycle`s the divisions are defined and the duties lie between
  0 and the period;
* `not_pwmAccumulated`: what is left are the settings of the last valid PWM pin alone, in a block
  of enabled channels that has one cell, so the channels of a table are never all there.
-/

namespace SimPokey

open FaultState Writes LibConfig

/-! ### The duty of one record -/

/-- The stored duty is at most the clock exactly for a positive divisor, and for a negative one
beyond the clock, where the quotient is 0; any other negative quotient wraps. -/
theorem pwmDutyOf_le_iff {dutyCycle : ℤ} (h : dutyCycle ≠ 0) :
    pwmDutyOf dutyCycle ≤ pwmClock.toNat ↔ 0 < dutyCycle ∨ dutyCycle < -pwmClock := by
  have hclock : pwmClock = 12500000 := rfl
  have habs : (pwmClock.tdiv dutyCycle).natAbs = pwmClock.natAbs / dutyCycle.natAbs :=
    Int.natAbs_tdiv ..
  have hle : pwmClock.natAbs / dutyCycle.natAbs ≤ pwmClock.natAbs := Nat.div_le_self ..
  have hzero : pwmClock.natAbs / dutyCycle.natAbs = 0 ↔ pwmClock.natAbs < dutyCycle.natAbs := by
    rw [Nat.div_eq_zero_iff]
    omega
  unfold pwmDutyOf
  rcases Int.lt_or_gt_of_ne h with hneg | hpos
  · have hquot : pwmClock.tdiv dutyCycle ≤ 0 :=
      Int.tdiv_nonpos_of_nonneg_of_nonpos (by decide) hneg.le
    omega
  · have hquot : 0 ≤ pwmClock.tdiv dutyCycle := Int.tdiv_nonneg (by decide) hpos.le
    omega

/-- The channel of a PWM pin, as the loader counts it. -/
theorem pwmChannel_eq {pin : ℤ} (h : 17 ≤ pin ∧ pin ≤ 22) (ch : ℕ) :
    (pwmChannel pin ch : ℤ) = 23 - pin := by
  unfold pwmChannel
  split_ifs <;> omega

theorem Block.read_write {b : Block} {i : ℤ} (h : 0 ≤ i ∧ i < b.size) (v : ℕ) :
    (b.write i v).read i = some v := by
  have hcell : (b.write i v).cell i = v := Function.update_self ..
  have hin : 0 ≤ i ∧ i < (b.write i v).size := h
  rw [Block.read, if_pos hin, hcell]

/-! ### Tables from the loaders -/

/-- The record with its mark taken off. -/
def unmarked (p : DevicePort) : DevicePort := { p with valid := pinInvalid }

section Tables

variable {Setting : Type} [LibConfig Setting]

/-- The table both loaders build from `P` and `W`, with some of its records marked. -/
def MarkedTable (P W : List Setting) (ps : List DevicePort) : Prop :=
  ps.map unmarked = acceptedTable P W

theorem MarkedTable.mem {P W : List Setting} {ps : List DevicePort} (h : MarkedTable P W ps)
    {p : DevicePort} (hp : p ∈ ps) : unmarked p ∈ acceptedTable P W :=
  h ▸ List.mem_map_of_mem hp

theorem MarkedTable.pin {P W : List Setting} {ps : List DevicePort} (h : MarkedTable P W ps)
    {p : DevicePort} (hp : p ∈ ps) (htype : p.type = PinType.pwmInput) :
    17 ≤ p.pin ∧ p.pin ≤ 22 := (of_mem_acceptedTable_pwm (h.mem hp) htype).2

/-- What holds of the `dutyCycle` of every PWM record is what holds of every accepted entry of
`pwm`, whose own `dutyCycle` or 100 it is. -/
theorem MarkedTable.forall_dutyCycle {P W : List Setting} {ps : List DevicePort}
    (h : MarkedTable P W ps) (Q : ℤ → Prop) :
    (∀ p ∈ ps, p.type = PinType.pwmInput → Q p.dutyCycle) ↔
      ∀ x ∈ acceptedPwmEntries ((acceptedPinEntries P).map Prod.snd) W,
        Q ((lookupInt x.1 "dutyCycle").getD 100) := by
  have haccepted : acceptedPwm ((acceptedPins P).map DevicePort.pin) W =
      (acceptedPwmEntries ((acceptedPinEntries P).map Prod.snd) W).map
        fun x => pwmPort x.1 x.2 := by
    rw [acceptedPins_map_snd, acceptedPwm_eq_map]
  constructor
  · intro hall x hx
    have hport : pwmPort x.1 x.2 ∈ ps.map unmarked := by
      rw [h, acceptedTable, haccepted]
      exact List.mem_append_right _ (List.mem_map_of_mem hx)
    obtain ⟨p, hp, hunmarked⟩ := List.mem_map.1 hport
    have htype : p.type = PinType.pwmInput := congrArg DevicePort.type hunmarked
    have hduty : p.dutyCycle = (lookupInt x.1 "dutyCycle").getD 100 :=
      congrArg DevicePort.dutyCycle hunmarked
    exact hduty ▸ hall p hp htype
  · intro hall p hp htype
    rcases List.mem_append.1 (h.mem hp) with hmem | hmem
    · have htypes := (of_mem_acceptedPins hmem).1
      have htype' : (unmarked p).type = PinType.pwmInput := htype
      rw [htype'] at htypes
      exact absurd htypes (by decide)
    · rw [haccepted] at hmem
      obtain ⟨x, hx, hport⟩ := List.mem_map.1 hmem
      have hduty : p.dutyCycle = (lookupInt x.1 "dutyCycle").getD 100 :=
        (congrArg DevicePort.dutyCycle hport).symm
      exact hduty ▸ hall x hx

end Tables

/-! ### The duties of a table -/

/-- The duty of the channel of `p` lies between 0 and the period. -/
def DutyInRange (p : DevicePort) (pwm : Pwm) : Prop :=
  ∃ duty v, pwm.pwmDuty = some duty ∧ duty.read (23 - p.pin - 1) = some v ∧ v ≤ pwm.pwmPeriod

/-- Applying the table `ps` returns, and for each valid PWM pin it has sent settings in which the
duty of its channel is in range. -/
def DutiesInRange (junk : ℕ → PwmJunk) (m : Memory) (d : Device) (ps : List DevicePort) : Prop :=
  ∃ d' m' new, (applyPinConfigurationToDevice junk d).run m = .ok d' m' ∧
    m'.sent = m.sent ++ new ∧
    List.Forall₂ DutyInRange (ps.filter isPwm) (new.filterMap pwmSent)

/-- The duty of a turn. -/
theorem dutyInRange_pwmSettings {p : DevicePort} (hpin : 17 ≤ p.pin ∧ p.pin ≤ 22)
    (hduty : p.dutyCycle ≠ 0) (j : PwmJunk) :
    DutyInRange p (pwmSettings j p) ↔ 0 < p.dutyCycle ∨ p.dutyCycle < -pwmClock := by
  have hin : 0 ≤ 23 - p.pin - 1 ∧ 23 - p.pin - 1 < (6 : ℕ) := by omega
  have hread := Block.read_write (b := Block.mk 6 j.dutyCycle) hin (pwmDutyOf p.dutyCycle)
  rw [← pwmDutyOf_le_iff hduty]
  constructor
  · rintro ⟨duty, v, hduty', hv, hle⟩
    obtain rfl := Option.some.inj hduty'
    rw [pwmChannel_eq hpin, hread] at hv
    obtain rfl := Option.some.inj hv
    exact hle
  · intro hle
    exact ⟨_, _, rfl, by rw [pwmChannel_eq hpin, hread], hle⟩

theorem forall₂_pwmTable {R : DevicePort → Pwm → Prop} {Q : DevicePort → Prop}
    (junk : ℕ → PwmJunk) (ps : List DevicePort)
    (h : ∀ p ∈ ps, isPwm p = true → ∀ j, R p (pwmSettings j p) ↔ Q p) :
    List.Forall₂ R (ps.filter isPwm) (pwmTable junk ps) ↔ ∀ p ∈ ps, isPwm p = true → Q p := by
  suffices hgo : ∀ k, List.Forall₂ R (ps.filter isPwm)
      ((ps.zipIdx k).filterMap fun e => appliedPwm (junk e.2) e.1) ↔
        ∀ p ∈ ps, isPwm p = true → Q p from hgo 0
  induction ps with
  | nil => exact fun k => iff_of_true List.Forall₂.nil (by simp)
  | cons p ps ih =>
    intro k
    have hrest := ih (fun q hq => h q (List.mem_cons_of_mem p hq)) (k + 1)
    rw [List.zipIdx_cons, List.filterMap_cons, List.forall_mem_cons]
    by_cases hp : isPwm p = true
    · rw [List.filter_cons_of_pos hp]
      simp only [appliedPwm, hp, if_true, List.forall₂_cons, forall_const,
        h p List.mem_cons_self hp (junk k)]
      exact and_congr_right fun _ => hrest
    · rw [List.filter_cons_of_neg hp]
      simp only [appliedPwm, hp, Bool.false_eq_true, if_false, false_implies, true_and]
      exact hrest

/-- A run that returned has met no zero divisor. -/
theorem dividesByZero_of_ok {junk : ℕ → PwmJunk} {m m' : Memory} {d d' : Device}
    {pokey : PoKeysDevice} {ps : List DevicePort} (htable : tableOf m d = ps.map some)
    (hpokey : d.pokey = some pokey)
    (h : (applyPinConfigurationToDevice junk d).run m = .ok d' m') :
    ∀ p ∈ ps, dividesByZero p = false := by
  obtain ⟨r, happlied, hrun⟩ := applyPinConfigurationToDevice_applied m junk hpokey
  rw [h] at hrun
  cases r with
  | error e m₁ => cases hrun
  | ok pokey' m₁ =>
    have hall := (happlied.returns pokey' m₁ rfl).2
    rw [htable, reached_map_some] at hall
    have hps : ps = ps.takeWhile fun p => !dividesByZero p :=
      List.map_injective_iff.2 (Option.some_injective _) hall
    intro p hp
    rw [hps] at hp
    simpa using List.mem_takeWhile_imp hp

section Duties

variable {Setting : Type} [LibConfig Setting]

theorem dutiesInRange_iff_records {P W : List Setting} {ps : List DevicePort} {m : Memory}
    {d : Device} {pokey : PoKeysDevice} (hmarked : MarkedTable P W ps)
    (hvalid : ∀ p ∈ ps, p.type = PinType.pwmInput → p.valid ≠ pinInvalid)
    (htable : tableOf m d = ps.map some) (hpokey : d.pokey = some pokey) (junk : ℕ → PwmJunk) :
    DutiesInRange junk m d ps ↔
      ∀ p ∈ ps, p.type = PinType.pwmInput → 0 < p.dutyCycle ∨ p.dutyCycle < -pwmClock := by
  -- the records that are divided by are the PWM records
  have hpwm : ∀ p ∈ ps, isPwm p = true ↔ p.type = PinType.pwmInput := fun p hp =>
    (isPwm_iff p).trans ⟨fun h => h.2, fun h => ⟨hvalid p hp h, h⟩⟩
  have hturn : (∀ p ∈ ps, dividesByZero p = false) → ∀ p ∈ ps, isPwm p = true → ∀ j,
      DutyInRange p (pwmSettings j p) ↔ (0 < p.dutyCycle ∨ p.dutyCycle < -pwmClock) := by
    intro hdiv p hp hpwm' j
    have hduty : p.dutyCycle ≠ 0 := fun hduty => by
      have hstops := (dividesByZero_iff p).2 ⟨hpwm', hduty⟩
      rw [hdiv p hp] at hstops
      cases hstops
    exact dutyInRange_pwmSettings (hmarked.pin hp ((hpwm p hp).1 hpwm')) hduty j
  constructor
  · rintro ⟨d', m', new, hrun, hsent, hall⟩ p hp htype
    have hdiv := dividesByZero_of_ok htable hpokey hrun
    obtain ⟨_, new', hrun', hsent', hnew'⟩ :=
      applyPinConfigurationToDevice_sends htable hpokey hdiv junk
    rw [hrun] at hrun'
    cases hrun'
    have hnew : new = new' := List.append_cancel_left (hsent.symm.trans hsent')
    rw [hnew, hnew'] at hall
    exact (forall₂_pwmTable junk ps (hturn hdiv)).1 hall p hp ((hpwm p hp).2 htype)
  · intro hall
    have hdiv : ∀ p ∈ ps, dividesByZero p = false := fun p hp =>
      dividesByZero_eq_false fun htype hzero => by
        have hrange := hall p hp htype
        rw [hzero] at hrange
        exact absurd hrange (by decide)
    obtain ⟨_, new, hrun, hsent, hnew⟩ :=
      applyPinConfigurationToDevice_sends htable hpokey hdiv junk
    refine ⟨_, _, new, hrun, hsent, ?_⟩
    rw [hnew, forall₂_pwmTable junk ps (hturn hdiv)]
    exact fun p hp hpwm' => hall p hp ((hpwm p hp).1 hpwm')

/-- **The duties are defined and in range** exactly when no accepted `dutyCycle` is 0 or negative
without exceeding the clock.  A `pwm` section has at most six accepted entries; where they lie
beyond `MAX_PINS` records, `Config/Capacity` says that the array has no cell for them. -/
theorem dutiesInRange_iff {P W : List Setting} {ps : List DevicePort} {m : Memory} {d : Device}
    {pokey : PoKeysDevice} (hmarked : MarkedTable P W ps)
    (hvalid : ∀ p ∈ ps, p.type = PinType.pwmInput → p.valid ≠ pinInvalid)
    (htable : tableOf m d = ps.map some) (hpokey : d.pokey = some pokey) (junk : ℕ → PwmJunk) :
    DutiesInRange junk m d ps ↔
      ∀ x ∈ acceptedPwmEntries ((acceptedPinEntries P).map Prod.snd) W,
        0 < (lookupInt x.1 "dutyCycle").getD 100 ∨
          (lookupInt x.1 "dutyCycle").getD 100 < -pwmClock := by
  rw [dutiesInRange_iff_records hmarked hvalid htable hpokey,
    hmarked.forall_dutyCycle fun duty => 0 < duty ∨ duty < -pwmClock]

/-- The table of `P` and `W` with every record marked. -/
def allValid (P W : List Setting) : List DevicePort :=
  (acceptedTable P W).map fun p => { p with valid := 1 }

theorem markedTable_allValid (P W : List Setting) : MarkedTable P W (allValid P W) := by
  have hid : (acceptedTable P W).map (unmarked ∘ fun p => { p with valid := 1 }) =
      (acceptedTable P W).map id := by
    apply List.map_congr_left
    intro p hp
    have hvalid : p.valid = pinInvalid := (of_mem_acceptedTable hp).1
    show { p with valid := pinInvalid } = p
    rw [← hvalid]
  rw [MarkedTable, allValid, List.map_map, hid, List.map_id]

theorem valid_of_mem_allValid {P W : List Setting} {p : DevicePort} (hp : p ∈ allValid P W) :
    p.valid ≠ pinInvalid := by
  obtain ⟨q, -, rfl⟩ := List.mem_map.1 hp
  show (1 : ℤ) ≠ pinInvalid
  decide

end Duties

/-- A `dutyCycle`, none, and a negative one beyond the clock. -/
def threeChannels : List Tree :=
  [.pwm 1 40, .group [("channel", .int 2)], .pwm 3 (-20000000)]

theorem dutiesInRange_three :
    DutiesInRange (fun _ => .cleared) (memoryOf (allValid [] threeChannels))
      (deviceOf (allValid [] threeChannels) (.cleared 55)) (allValid [] threeChannels) :=
  (dutiesInRange_iff (markedTable_allValid [] threeChannels)
    (fun _ hp _ => valid_of_mem_allValid hp)
    (tableOf_deviceOf (allValid [] threeChannels) (.cleared 55)) rfl _).2 (by decide)

/-- A `dutyCycle` of 0 stops the run; one of -1 is stored as 4282467296, far above the period. -/
theorem dutiesInRange_zero_or_negative :
    (∃ m', (applyPinConfigurationToDevice (fun _ => .cleared)
        (deviceOf (allValid [] [Tree.pwm 4 0]) (.cleared 55))).run
          (memoryOf (allValid [] [Tree.pwm 4 0])) = .error .divisionByZero m') ∧
      pwmDutyOf (-1) = 4282467296 ∧
      ¬ DutiesInRange (fun _ => .cleared) (memoryOf (allValid [] [Tree.pwm 4 0]))
        (deviceOf (allValid [] [Tree.pwm 4 0]) (.cleared 55)) (allValid [] [Tree.pwm 4 0]) ∧
      ¬ DutiesInRange (fun _ => .cleared) (memoryOf (allValid [] [Tree.pwm 4 (-1)]))
        (deviceOf (allValid [] [Tree.pwm 4 (-1)]) (.cleared 55))
        (allValid [] [Tree.pwm 4 (-1)]) := by
  have hnot : ∀ duty : ℤ, ¬ (0 < duty ∨ duty < -pwmClock) →
      ¬ DutiesInRange (fun _ => .cleared) (memoryOf (allValid [] [Tree.pwm 4 duty]))
        (deviceOf (allValid [] [Tree.pwm 4 duty]) (.cleared 55))
        (allValid [] [Tree.pwm 4 duty]) := by
    intro duty hduty h
    have hall := (dutiesInRange_iff_records (markedTable_allValid [] [Tree.pwm 4 duty])
      (fun _ hp _ => valid_of_mem_allValid hp)
      (tableOf_deviceOf (allValid [] [Tree.pwm 4 duty]) (.cleared 55)) rfl _).1 h
    exact hduty (hall ⟨"Undefined", 19, PinType.pwmInput, 0, 1, 0, 0, duty⟩
      List.mem_cons_self rfl)
  exact ⟨⟨_, rfl⟩, by decide, hnot 0 (by decide), hnot (-1) (by decide)⟩

/-! ### The channels of a table -/

/-- `p` is a valid PWM record of the channel `c`. -/
def OnChannel (ps : List DevicePort) (c : ℤ) (p : DevicePort) : Prop :=
  p ∈ ps ∧ isPwm p = true ∧ p.pin = 23 - c

/-- The settings `pwm` have all the channels of the table `ps`, and were the last to be sent. -/
structure PwmAccumulated (ps : List DevicePort) (pwm : Pwm) (sent : List Pwm) : Prop where
  enabled : ∃ channels, pwm.pwmEnabledChannels = some channels ∧ ∀ c, 1 ≤ c → c ≤ 6 →
    ((∃ p, OnChannel ps c p) → channels.read (c - 1) = some 1) ∧
    ((∀ p, ¬ OnChannel ps c p) → channels.read (c - 1) = some 0)
  duty : ∃ duty, pwm.pwmDuty = some duty ∧ ∀ c p, OnChannel ps c p →
    ∃ v : ℕ, duty.read (c - 1) = some v ∧ (v : ℤ) = pwmClock / p.dutyCycle
  period : pwm.pwmPeriod = pwmClock.toNat
  sent : sent.getLast? = some pwm

/-- The valid PWM records of a table, with their slots. -/
def pwmSlots (ps : List DevicePort) : List (DevicePort × ℕ) :=
  ps.zipIdx.filter fun e => isPwm e.1

theorem pwmTable_eq_map (junk : ℕ → PwmJunk) (ps : List DevicePort) :
    pwmTable junk ps = (pwmSlots ps).map fun e => pwmSettings (junk e.2) e.1 := by
  unfold pwmTable pwmSlots
  induction ps.zipIdx with
  | nil => rfl
  | cons e es ih =>
    cases he : isPwm e.1 <;> simpa [appliedPwm, he] using ih

/-- One cell is not enough for the channels, wherever it is filled. -/
theorem not_pwmAccumulated_settings (junk : PwmJunk) (p : DevicePort) (ps : List DevicePort)
    (sent : List Pwm) : ¬ PwmAccumulated ps (pwmSettings junk p) sent := by
  intro h
  obtain ⟨channels, hchannels, hcells⟩ := h.enabled
  obtain rfl := Option.some.inj hchannels
  have hnone : ((Block.mk 1 junk.enabledChannels).write (pwmChannel p.pin junk.ch - 1) 1).read
      (2 - 1) = none := if_neg (by simp [Block.write])
  obtain ⟨hon, hoff⟩ := hcells 2 (by decide) (by decide)
  by_cases hex : ∃ q, OnChannel ps 2 q
  · have hcell := hon hex
    rw [hnone] at hcell
    cases hcell
  · have hcell := hoff fun q hq => hex ⟨q, hq⟩
    rw [hnone] at hcell
    cases hcell

/-- **The channels never accumulate.**  Applying the table returns, and what is left and was sent
last are the settings of the last valid PWM record alone, in fresh blocks. -/
theorem not_pwmAccumulated {Setting : Type} [LibConfig Setting] {P W : List Setting}
    {ps : List DevicePort} {m : Memory} {d : Device} {pokey : PoKeysDevice}
    (hmarked : MarkedTable P W ps)
    (hpositive : ∀ x ∈ acceptedPwmEntries ((acceptedPinEntries P).map Prod.snd) W,
      0 < (lookupInt x.1 "dutyCycle").getD 100)
    (hsome : ∃ p ∈ ps, isPwm p = true) (htable : tableOf m d = ps.map some)
    (hpokey : d.pokey = some pokey) (junk : ℕ → PwmJunk) :
    ∃ pokey' m' new last, (applyPinConfigurationToDevice junk d).run m =
        .ok { d with pokey := some pokey' } m' ∧ m'.sent = m.sent ++ new ∧
      (pwmSlots ps).getLast? = some last ∧ pokey'.pwm = pwmSettings (junk last.2) last.1 ∧
      (new.filterMap pwmSent).getLast? = some pokey'.pwm ∧
      ¬ PwmAccumulated ps pokey'.pwm (new.filterMap pwmSent) := by
  have hduty := (hmarked.forall_dutyCycle fun duty => 0 < duty).2 hpositive
  have hdiv : ∀ p ∈ ps, dividesByZero p = false := fun p hp =>
    dividesByZero_eq_false fun htype => (hduty p hp htype).ne'
  obtain ⟨_, new, hrun, hsent, hnew⟩ :=
    applyPinConfigurationToDevice_sends htable hpokey hdiv junk
  obtain ⟨last, hlast⟩ : ∃ last, (pwmSlots ps).getLast? = some last := by
    obtain ⟨p, hp, hpwm⟩ := hsome
    obtain ⟨i, hi⟩ := List.mem_iff_getElem?.1 hp
    have hslot : (p, i) ∈ pwmSlots ps :=
      List.mem_filter.2 ⟨List.mem_zipIdx_iff_getElem?.2 hi, hpwm⟩
    exact ⟨_, List.getLast?_eq_some_getLast (List.ne_nil_of_mem hslot)⟩
  have hsettings : (pwmTable junk ps).getLast? = some (pwmSettings (junk last.2) last.1) := by
    rw [pwmTable_eq_map, List.getLast?_map, hlast]
    rfl
  have hpwm : (appliedTable junk ps (pokey, m.sent)).1.pwm =
      pwmSettings (junk last.2) last.1 := by
    rw [appliedTable_image]
    show (pwmTable junk ps).getLast?.getD pokey.pwm = _
    rw [hsettings]
    rfl
  refine ⟨_, _, new, last, hrun, hsent, hlast, hpwm, ?_, ?_⟩
  · rw [hnew, hsettings, hpwm]
  · rw [hpwm]
    exact not_pwmAccumulated_settings _ _ _ _

/-- Two channels. -/
def twoChannels : List Tree := [.pwm 1 40, .pwm 2 50]

theorem not_pwmAccumulated_reversed :
    ∃ pokey' m', ∃ new : List LibCall, (applyPinConfigurationToDevice (fun _ => .cleared)
        (deviceOf (allValid [] twoChannels.reverse) (.cleared 55))).run
          (memoryOf (allValid [] twoChannels.reverse)) =
        .ok { deviceOf (allValid [] twoChannels.reverse) (.cleared 55) with
          pokey := some pokey' } m' ∧
      ¬ PwmAccumulated (allValid [] twoChannels.reverse) pokey'.pwm (new.filterMap pwmSent) := by
  obtain ⟨pokey', m', new, -, hrun, -, -, -, -, hnot⟩ := not_pwmAccumulated
    (markedTable_allValid [] twoChannels.reverse) (by decide)
    ⟨⟨"Undefined", 21, PinType.pwmInput, 0, 1, 0, 0, 50⟩, List.mem_cons_self, by decide⟩
    (tableOf_deviceOf (allValid [] twoChannels.reverse) (.cleared 55)) rfl fun _ => .cleared
  exact ⟨pokey', m', new, hrun, hnot⟩

/-- The first of two channels: neither enabled nor given its duty of 312500 in what is left. -/
theorem not_pwmAccumulated_two :
    ∃ pokey' m' channels duty, (applyPinConfigurationToDevice (fun _ => .cleared)
        (deviceOf (allValid [] twoChannels) (.cleared 55))).run
          (memoryOf (allValid [] twoChannels)) =
        .ok { deviceOf (allValid [] twoChannels) (.cleared 55) with pokey := some pokey' } m' ∧
      OnChannel (allValid [] twoChannels) 1
        ⟨"Undefined", 22, PinType.pwmInput, 0, 1, 0, 0, 40⟩ ∧
      pokey'.pwm.pwmEnabledChannels = some channels ∧ channels.read 0 = some 0 ∧
      pokey'.pwm.pwmDuty = some duty ∧ duty.read 0 = some 0 ∧ duty.read 1 = some 250000 ∧
      ¬ PwmAccumulated (allValid [] twoChannels) pokey'.pwm (m'.sent.filterMap pwmSent) := by
  have hon : OnChannel (allValid [] twoChannels) 1
      ⟨"Undefined", 22, PinType.pwmInput, 0, 1, 0, 0, 40⟩ :=
    ⟨List.mem_cons_self, by decide, by decide⟩
  refine ⟨_, _, _, _, rfl, hon, rfl, by decide, rfl, by decide, by decide, fun h => ?_⟩
  obtain ⟨duty, hduty, hcells⟩ := h.duty
  obtain rfl := Option.some.inj hduty
  obtain ⟨v, hread, hv⟩ := hcells 1 _ hon
  have hzero : v = 0 := (Option.some.inj hread).symm
  rw [hzero] at hv
  exact absurd hv (by decide)

end SimPokey
