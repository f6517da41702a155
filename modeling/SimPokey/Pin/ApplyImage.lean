import SimPokey.Lib.Writes
import SimPokey.Pin.ApplySpec

/-!
# The image applying a table leaves

A turn of `applyPinConfigurationToDevice` rewrites the element of `Pins[]` of its record
(`appliedPin`), replaces the PWM settings as a whole when the record is a valid PWM pin
(`appliedPwm`), and sends what it sends.  Over a table whose records never divide by zero the loop
is the pass of these turns (`applyPinConfigurationToDevice_eq`), whose image is known cell by cell
(`appliedTable_image`).
-/

namespace SimPokey

open FaultState Writes

/-! ### One record -/

/-- A valid PWM pin. -/
def isPwm (p : DevicePort) : Bool := p.valid != pinInvalid && p.type == PinType.pwmInput

theorem isPwm_iff (p : DevicePort) :
    isPwm p = true ↔ p.valid ≠ pinInvalid ∧ p.type = PinType.pwmInput := by
  simp [isPwm]

theorem dividesByZero_iff (p : DevicePort) :
    dividesByZero p = true ↔ isPwm p = true ∧ p.dutyCycle = 0 := by
  simp [dividesByZero, isPwm]

theorem dividesByZero_eq_false {p : DevicePort}
    (h : p.type = PinType.pwmInput → p.dutyCycle ≠ 0) : dividesByZero p = false := by
  rw [← Bool.not_eq_true, dividesByZero_iff, isPwm_iff]
  rintro ⟨⟨-, htype⟩, hzero⟩
  exact h htype hzero

/-- The element of `Pins[]` after the turn of its record. -/
def appliedPin (p : DevicePort) (data : PinData) : PinData :=
  if p.valid = pinInvalid then { data with pinFunction := PinCap.reserved }
  else if p.type = PinType.digitalOutput then
    { data with pinFunction := PinCap.digitalOutput, digitalValueSet := 0 }
  else if p.type = PinType.digitalInput then { data with pinFunction := PinCap.digitalInput }
  else data

/-- The settings the branch for a PWM pin puts into the image. -/
def pwmSettings (junk : PwmJunk) (p : DevicePort) : Pwm where
  pwmPeriod := pwmClock.toNat
  pwmDuty := some ((Block.mk 6 junk.dutyCycle).write (pwmChannel p.pin junk.ch - 1)
    (pwmDutyOf p.dutyCycle))
  pwmEnabledChannels :=
    some ((Block.mk 1 junk.enabledChannels).write (pwmChannel p.pin junk.ch - 1) 1)

/-- The settings of the turn, if it makes any. -/
def appliedPwm (junk : PwmJunk) (p : DevicePort) : Option Pwm :=
  if isPwm p then some (pwmSettings junk p) else none

/-- The index of the record's element of `Pins[]`. -/
def pinIndex (p : DevicePort) : ℤ := p.pin - 1

/-- The image after the turn. -/
def appliedPort (junk : PwmJunk) (pokey : PoKeysDevice) (p : DevicePort) : PoKeysDevice :=
  { pokey with
    pins := write pinIndex appliedPin pokey.pins p
    pwm := (appliedPwm junk p).getD pokey.pwm }

/-- What the turn sends. -/
def sentByPort (junk : PwmJunk) (pokey : PoKeysDevice) (p : DevicePort) : List LibCall :=
  if p.valid = pinInvalid then []
  else if p.type = PinType.digitalOutput then []
  else if p.type = PinType.digitalInput then []
  else if p.type = PinType.pwmInput then [.pwmConfigurationSet (appliedPort junk pokey p)]
  else [.digitalIOSet pokey]

theorem appliedPort_of_not_pwm {p : DevicePort} (h : isPwm p = false) (junk : PwmJunk)
    (pokey : PoKeysDevice) :
    appliedPort junk pokey p = { pokey with pins := write pinIndex appliedPin pokey.pins p } := by
  rw [appliedPort, appliedPwm, h]
  rfl

/-- A turn that returns leaves the applied image and has sent what it sends. -/
theorem applyPort_eq {p : DevicePort} (h : dividesByZero p = false) (junk : PwmJunk)
    (pokey : PoKeysDevice) (m : Memory) :
    ∃ acc, (applyPort junk pokey p).run m = .ok (appliedPort junk pokey p)
      { m with accesses := acc, sent := m.sent ++ sentByPort junk pokey p } := by
  unfold applyPort sentByPort
  by_cases hvalid : p.valid = pinInvalid
  · have hpwm : isPwm p = false := by simp [isPwm, hvalid]
    simp only [hvalid, if_true, List.append_nil]
    refine ⟨(m.touch (.pokeyPins pokey.iPinCount (p.pin - 1))).accesses, ?_⟩
    rw [appliedPort_of_not_pwm hpwm, write, appliedPin, if_pos hvalid]
    rfl
  simp only [if_neg hvalid]
  by_cases hout : p.type = PinType.digitalOutput
  · have hpwm : isPwm p = false := by simp [isPwm, hout, PinType.digitalOutput, PinType.pwmInput]
    simp only [if_pos hout, List.append_nil]
    refine ⟨(m.touch (.pokeyPins pokey.iPinCount (p.pin - 1))).accesses, ?_⟩
    rw [appliedPort_of_not_pwm hpwm, write, appliedPin, if_neg hvalid, if_pos hout]
    have htwice : (pokey.setPinFunction (p.pin - 1) PinCap.digitalOutput).setDigitalValue
        (p.pin - 1) 0 = { pokey with
          pins := Function.update pokey.pins (p.pin - 1) { pokey.pins (p.pin - 1) with
            pinFunction := PinCap.digitalOutput, digitalValueSet := 0 } } := by
      simp [PoKeysDevice.setPinFunction, PoKeysDevice.setDigitalValue]
    rw [htwice]
    rfl
  simp only [if_neg hout]
  by_cases hin : p.type = PinType.digitalInput
  · have hpwm : isPwm p = false := by simp [isPwm, hin, PinType.digitalInput, PinType.pwmInput]
    simp only [if_pos hin, List.append_nil]
    refine ⟨(m.touch (.pokeyPins pokey.iPinCount (p.pin - 1))).accesses, ?_⟩
    rw [appliedPort_of_not_pwm hpwm, write, appliedPin, if_neg hvalid, if_neg hout, if_pos hin]
    rfl
  simp only [if_neg hin]
  -- no other record has anything to write in `Pins[]`
  have hsame : write pinIndex appliedPin pokey.pins p = pokey.pins := by
    apply write_of_same
    simp only [appliedPin, if_neg hvalid, if_neg hout, if_neg hin]
  by_cases hpwm : p.type = PinType.pwmInput
  · have hpwm' : isPwm p = true := (isPwm_iff p).2 ⟨hvalid, hpwm⟩
    have hduty : p.dutyCycle ≠ 0 := fun hduty => by
      rw [(dividesByZero_iff p).2 ⟨hpwm', hduty⟩] at h
      cases h
    have himage : appliedPort junk pokey p = { pokey with pwm := pwmSettings junk p } := by
      rw [appliedPort, hsame, appliedPwm, if_pos hpwm']
      rfl
    simp only [if_pos hpwm]
    rw [himage]
    unfold applyPwm
    rw [bind_of_ok (touch_run _ m), run_ite, if_neg hduty]
    exact ⟨_, rfl⟩
  · have hpwm' : isPwm p = false := by simp [isPwm, hpwm]
    simp only [if_neg hpwm]
    rw [appliedPort_of_not_pwm hpwm', hsame]
    exact ⟨m.accesses, rfl⟩

/-! ### The table -/

/-- The turn for a record and its slot, on the image and what has been sent. -/
def appliedTurn (junk : ℕ → PwmJunk) (s : PoKeysDevice × List LibCall) (e : DevicePort × ℕ) :
    PoKeysDevice × List LibCall :=
  (appliedPort (junk e.2) s.1 e.1, s.2 ++ sentByPort (junk e.2) s.1 e.1)

/-- The image and what has been sent, after the table `ps`. -/
def appliedTable (junk : ℕ → PwmJunk) (ps : List DevicePort) (s : PoKeysDevice × List LibCall) :
    PoKeysDevice × List LibCall := ps.zipIdx.foldl (appliedTurn junk) s

/-- The turns for the records `ps`, found in the slots from `k` on. -/
theorem applySlots_eq (junk : ℕ → PwmJunk) (d : Device) (ps : List DevicePort) :
    ∀ (k : ℕ) (pokey : PoKeysDevice) (m : Memory),
      (∀ i p, ps[i]? = some p → slotOf m d ((k + i : ℕ) : ℤ) = some p) →
      (∀ p ∈ ps, dividesByZero p = false) →
      ∃ acc, ((List.range' k ps.length).foldlM (applySlot junk d) pokey).run m =
        .ok ((ps.zipIdx k).foldl (appliedTurn junk) (pokey, m.sent)).1
          { m with
            accesses := acc
            sent := ((ps.zipIdx k).foldl (appliedTurn junk) (pokey, m.sent)).2 } := by
  induction ps with
  | nil => exact fun k pokey m _ _ => ⟨m.accesses, rfl⟩
  | cons p ps ih =>
    intro k pokey m hslots hdiv
    have hfirst : slotOf m d k = some p := hslots 0 p rfl
    obtain ⟨q, -, hread⟩ := portAt_of_slot hfirst
    obtain ⟨acc₁, hport⟩ := applyPort_eq (hdiv p List.mem_cons_self) (junk k) pokey
      (m.touch (.pins k))
    have hturn : (applySlot junk d pokey k).run m = .ok (appliedPort (junk k) pokey p)
        { m with accesses := acc₁, sent := m.sent ++ sentByPort (junk k) pokey p } := by
      unfold applySlot
      rw [bind_of_ok hread]
      exact hport
    obtain ⟨acc₂, hrest⟩ := ih (k + 1) (appliedPort (junk k) pokey p)
      { m with accesses := acc₁, sent := m.sent ++ sentByPort (junk k) pokey p }
      (fun i p' hi => by
        rw [Nat.add_assoc, Nat.add_comm 1 i]
        exact hslots (i + 1) p' hi)
      fun p' hp' => hdiv p' (List.mem_cons_of_mem p hp')
    refine ⟨acc₂, ?_⟩
    rw [List.length_cons, List.range'_succ, List.foldlM_cons, bind_of_ok hturn, hrest,
      List.zipIdx_cons]
    rfl

/-- The slots of a table that is known as a whole. -/
theorem slotOf_of_tableOf {m : Memory} {d : Device} {ps : List DevicePort}
    (h : tableOf m d = ps.map some) :
    d.numberOfPins.toNat = ps.length ∧
      ∀ (i : ℕ) (p : DevicePort), ps[i]? = some p → slotOf m d (i : ℤ) = some p := by
  have hlen : d.numberOfPins.toNat = ps.length := by
    simpa [tableOf] using congrArg List.length h
  refine ⟨hlen, fun i p hi => ?_⟩
  have hlt : i < ps.length := (List.getElem?_eq_some_iff.1 hi).1
  have hget : (tableOf m d)[i]? = some (some p) := by
    rw [h, List.getElem?_map, hi]
    rfl
  rw [tableOf, List.getElem?_map, List.getElem?_range (by omega)] at hget
  exact Option.some.inj hget

/-- **Applying a table that never divides by zero.** -/
theorem applyPinConfigurationToDevice_eq {d : Device} {pokey : PoKeysDevice} {m : Memory}
    {ps : List DevicePort} (htable : tableOf m d = ps.map some) (hpokey : d.pokey = some pokey)
    (hdiv : ∀ p ∈ ps, dividesByZero p = false) (junk : ℕ → PwmJunk) :
    ∃ acc, (applyPinConfigurationToDevice junk d).run m =
      .ok { d with pokey := some (appliedTable junk ps (pokey, m.sent)).1 }
        { m with accesses := acc, sent := (appliedTable junk ps (pokey, m.sent)).2 } := by
  obtain ⟨hlen, hslots'⟩ := slotOf_of_tableOf htable
  have hslots : ∀ i p, ps[i]? = some p → slotOf m d ((0 + i : ℕ) : ℤ) = some p := by
    intro i p hi
    rw [Nat.zero_add]
    exact hslots' i p hi
  obtain ⟨acc, hrun⟩ := applySlots_eq junk d ps 0 pokey m hslots hdiv
  refine ⟨acc, ?_⟩
  unfold applyPinConfigurationToDevice
  rw [bind_of_ok (pokeyOf_run hpokey m), hlen, List.range_eq_range', bind_of_ok hrun]
  rfl

/-- The turns for the records `ps`, one of which divides by zero. -/
theorem applySlots_stops (junk : ℕ → PwmJunk) (d : Device) (ps : List DevicePort) :
    ∀ (k : ℕ) (pokey : PoKeysDevice) (m : Memory),
      (∀ i p, ps[i]? = some p → slotOf m d ((k + i : ℕ) : ℤ) = some p) →
      ps.any dividesByZero = true →
      ∃ m', ((List.range' k ps.length).foldlM (applySlot junk d) pokey).run m =
        .error .divisionByZero m' := by
  induction ps with
  | nil => exact fun k pokey m _ hany => by simp at hany
  | cons p ps ih =>
    intro k pokey m hslots hany
    have hfirst : slotOf m d k = some p := hslots 0 p rfl
    obtain ⟨q, -, hread⟩ := portAt_of_slot hfirst
    rw [List.length_cons, List.range'_succ, List.foldlM_cons]
    by_cases hstop : dividesByZero p = true
    · obtain ⟨i, hport⟩ := applyPort_stops hstop (junk k) pokey (m.touch (.pins k))
      have hturn : (applySlot junk d pokey k).run m =
          .error .divisionByZero ((m.touch (.pins k)).touch (.block 1 i)) := by
        unfold applySlot
        rw [bind_of_ok hread]
        exact hport
      exact ⟨_, bind_of_error hturn⟩
    · rw [Bool.not_eq_true] at hstop
      obtain ⟨acc, hport⟩ := applyPort_eq hstop (junk k) pokey (m.touch (.pins k))
      have hturn : (applySlot junk d pokey k).run m = .ok (appliedPort (junk k) pokey p)
          { m with accesses := acc, sent := m.sent ++ sentByPort (junk k) pokey p } := by
        unfold applySlot
        rw [bind_of_ok hread]
        exact hport
      rw [bind_of_ok hturn]
      refine ih (k + 1) _ _ (fun i p' hi => ?_) (by simpa [hstop] using hany)
      rw [Nat.add_assoc, Nat.add_comm 1 i]
      exact hslots (i + 1) p' hi

/-- Applying a table that divides by zero stops there. -/
theorem applyPinConfigurationToDevice_stops {d : Device} {pokey : PoKeysDevice} {m : Memory}
    {ps : List DevicePort} (htable : tableOf m d = ps.map some) (hpokey : d.pokey = some pokey)
    (hany : ps.any dividesByZero = true) (junk : ℕ → PwmJunk) :
    ∃ m', (applyPinConfigurationToDevice junk d).run m = .error .divisionByZero m' := by
  obtain ⟨hlen, hslots⟩ := slotOf_of_tableOf htable
  obtain ⟨m', hrun⟩ := applySlots_stops junk d ps 0 pokey m
    (fun i p hi => by rw [Nat.zero_add]; exact hslots i p hi) hany
  refine ⟨m', ?_⟩
  unfold applyPinConfigurationToDevice
  rw [bind_of_ok (pokeyOf_run hpokey m), hlen, List.range_eq_range', bind_of_error hrun]

/-! ### What the table leaves -/

/-- The settings a call sends. -/
def pwmSent : LibCall → Option Pwm
  | .pwmConfigurationSet pokey => some pokey.pwm
  | _ => none

/-- The settings the table makes, in order. -/
def pwmTable (junk : ℕ → PwmJunk) (ps : List DevicePort) : List Pwm :=
  ps.zipIdx.filterMap fun e => appliedPwm (junk e.2) e.1

/-- `Pins[]` is rewritten record by record, of the PWM settings the last ones are left, and
nothing else of the image changes. -/
theorem appliedTable_image (junk : ℕ → PwmJunk) (ps : List DevicePort)
    (s : PoKeysDevice × List LibCall) :
    (appliedTable junk ps s).1 = { s.1 with
      pins := ps.foldl (write pinIndex appliedPin) s.1.pins
      pwm := (pwmTable junk ps).getLast?.getD s.1.pwm } := by
  have hfold : ∀ (es : List (DevicePort × ℕ)) (s : PoKeysDevice × List LibCall),
      (es.foldl (appliedTurn junk) s).1 = { s.1 with
        pins := (es.map Prod.fst).foldl (write pinIndex appliedPin) s.1.pins
        pwm := es.foldl (fun pwm e => (appliedPwm (junk e.2) e.1).getD pwm) s.1.pwm } := by
    intro es
    induction es with
    | nil => exact fun s => rfl
    | cons e es ih => exact fun s => ih _
  rw [appliedTable, hfold, List.zipIdx_map_fst, foldl_replace]
  rfl

theorem filterMap_sentByPort (junk : PwmJunk) (pokey : PoKeysDevice) (p : DevicePort) :
    (sentByPort junk pokey p).filterMap pwmSent = (appliedPwm junk p).toList := by
  unfold sentByPort
  by_cases hpwm : isPwm p = true
  · obtain ⟨hvalid, htype⟩ := (isPwm_iff p).1 hpwm
    have hout : p.type ≠ PinType.digitalOutput := by rw [htype]; decide
    have hin : p.type ≠ PinType.digitalInput := by rw [htype]; decide
    rw [if_neg hvalid, if_neg hout, if_neg hin, if_pos htype]
    simp [pwmSent, appliedPort, appliedPwm, hpwm]
  · have hnone : appliedPwm junk p = none := if_neg hpwm
    rw [hnone]
    split_ifs with hvalid hout hin htype
    · rfl
    · rfl
    · rfl
    · exact absurd ((isPwm_iff p).2 ⟨hvalid, htype⟩) hpwm
    · rfl

/-- What the table sends with `PK_PWMConfigurationSet` are the settings it makes. -/
theorem appliedTable_sent (junk : ℕ → PwmJunk) (ps : List DevicePort)
    (s : PoKeysDevice × List LibCall) :
    ∃ new, (appliedTable junk ps s).2 = s.2 ++ new ∧ new.filterMap pwmSent = pwmTable junk ps := by
  unfold appliedTable pwmTable
  generalize ps.zipIdx = es
  induction es generalizing s with
  | nil => exact ⟨[], (List.append_nil _).symm, rfl⟩
  | cons e es ih =>
    obtain ⟨new, hnew, hpwm⟩ := ih (appliedTurn junk s e)
    refine ⟨sentByPort (junk e.2) s.1 e.1 ++ new, ?_, ?_⟩
    · rw [List.foldl_cons, hnew, appliedTurn, List.append_assoc]
    · rw [List.filterMap_append, filterMap_sentByPort, hpwm, List.filterMap_cons]
      cases appliedPwm (junk e.2) e.1 <;> rfl

/-- The run, with what it sends. -/
theorem applyPinConfigurationToDevice_sends {d : Device} {pokey : PoKeysDevice} {m : Memory}
    {ps : List DevicePort} (htable : tableOf m d = ps.map some) (hpokey : d.pokey = some pokey)
    (hdiv : ∀ p ∈ ps, dividesByZero p = false) (junk : ℕ → PwmJunk) :
    ∃ m' new, (applyPinConfigurationToDevice junk d).run m =
        .ok { d with pokey := some (appliedTable junk ps (pokey, m.sent)).1 } m' ∧
      m'.sent = m.sent ++ new ∧ new.filterMap pwmSent = pwmTable junk ps := by
  obtain ⟨acc, hrun⟩ := applyPinConfigurationToDevice_eq htable hpokey hdiv junk
  obtain ⟨new, hsent, hnew⟩ := appliedTable_sent junk ps (pokey, m.sent)
  exact ⟨_, new, hrun, hsent, hnew⟩

end SimPokey
