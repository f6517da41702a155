import SimPokey.Pin.Validate

/-!
# What applying a table does

A turn of `applyPinConfigurationToDevice` stops the run at a slot that leads to no record, and at
a valid PWM pin whose `dutyCycle` is zero (`dividesByZero`); every other turn returns.
`LoopApplied` says what the loop leaves over any table: the records as they were, the elements of
`Pins[]` it used, and what it sent, which is never a pin configuration.
-/

namespace SimPokey

open FaultState

/-- The record of a valid PWM pin that makes the turn divide by zero. -/
def dividesByZero (p : DevicePort) : Bool :=
  p.valid != pinInvalid && p.type == PinType.pwmInput && p.dutyCycle == 0

/-- The record whose turn writes an element of `Pins[]`: one that is not valid, or a digital one. -/
def IndexesPins (p : DevicePort) : Prop :=
  p.valid = pinInvalid ∨ p.type = PinType.digitalOutput ∨ p.type = PinType.digitalInput

/-- A call that teaches the device no pin function. -/
def NotPinConfiguration (c : LibCall) : Prop := ∀ pokey, c ≠ .pinConfigurationSet pokey

/-! ### One record -/

/-- What a turn for the record `p` that returned did. -/
structure PortApplied (p : DevicePort) (pokey : PoKeysDevice) (m : Memory) (pokey' : PoKeysDevice)
    (m' : Memory) : Prop where
  ports : m'.ports = m.ports
  iPinCount : pokey'.iPinCount = pokey.iPinCount
  sent : ∃ new, m'.sent = m.sent ++ new ∧ ∀ c ∈ new, NotPinConfiguration c
  accesses : ∃ new, m'.accesses = m.accesses ++ new ∧ ∀ count k, .pokeyPins count k ∈ new ↔
    IndexesPins p ∧ count = pokey.iPinCount ∧ k = p.pin - 1

/-- A turn that writes `Pins[p.pin - 1]`. -/
theorem PortApplied.of_write {p : DevicePort} {pokey pokey' : PoKeysDevice} {m : Memory}
    (hp : IndexesPins p) (hcount : pokey'.iPinCount = pokey.iPinCount) :
    PortApplied p pokey m pokey' (m.touch (.pokeyPins pokey.iPinCount (p.pin - 1))) where
  ports := rfl
  iPinCount := hcount
  sent := ⟨[], by simp, by simp⟩
  accesses := ⟨[_], rfl, by simp [hp]⟩

theorem applyPwm_stops {p : DevicePort} (hduty : p.dutyCycle = 0) (junk : PwmJunk)
    (pokey : PoKeysDevice) (m : Memory) :
    ∃ i, (applyPwm junk pokey p).run m = .error .divisionByZero (m.touch (.block 1 i)) := by
  refine ⟨pwmChannel p.pin junk.ch - 1, ?_⟩
  unfold applyPwm
  rw [bind_of_ok (touch_run _ m), run_ite, if_pos hduty]
  rfl

theorem applyPwm_applied {p : DevicePort} (hvalid : p.valid ≠ pinInvalid)
    (htype : p.type = PinType.pwmInput) (hduty : p.dutyCycle ≠ 0) (junk : PwmJunk)
    (pokey : PoKeysDevice) (m : Memory) :
    ∃ pokey' m', (applyPwm junk pokey p).run m = .ok pokey' m' ∧
      PortApplied p pokey m pokey' m' := by
  have hnot : ¬ IndexesPins p := by
    rintro (h | h | h)
    · exact hvalid h
    · exact absurd (htype.symm.trans h) (by decide)
    · exact absurd (htype.symm.trans h) (by decide)
  unfold applyPwm
  rw [bind_of_ok (touch_run _ m), run_ite, if_neg hduty]
  refine ⟨_, _, rfl, rfl, rfl, ⟨[_], rfl, ?_⟩, ⟨[_, _], List.append_assoc .., ?_⟩⟩
  · intro c hc img
    rw [List.mem_singleton.1 hc]
    simp
  · simp [hnot]

theorem applyPort_stops {p : DevicePort} (h : dividesByZero p = true) (junk : PwmJunk)
    (pokey : PoKeysDevice) (m : Memory) :
    ∃ i, (applyPort junk pokey p).run m = .error .divisionByZero (m.touch (.block 1 i)) := by
  simp only [dividesByZero, Bool.and_eq_true, bne_iff_ne, beq_iff_eq] at h
  obtain ⟨⟨hvalid, htype⟩, hduty⟩ := h
  have hout : p.type ≠ PinType.digitalOutput := by rw [htype]; decide
  have hin : p.type ≠ PinType.digitalInput := by rw [htype]; decide
  unfold applyPort
  simp only [if_neg hvalid, if_neg hout, if_neg hin, if_pos htype]
  exact applyPwm_stops hduty junk pokey m

theorem applyPort_applied {p : DevicePort} (h : dividesByZero p = false) (junk : PwmJunk)
    (pokey : PoKeysDevice) (m : Memory) :
    ∃ pokey' m', (applyPort junk pokey p).run m = .ok pokey' m' ∧
      PortApplied p pokey m pokey' m' := by
  unfold applyPort
  by_cases hvalid : p.valid = pinInvalid
  · simp only [hvalid, if_true]
    exact ⟨_, _, rfl, .of_write (Or.inl hvalid) rfl⟩
  · simp only [hvalid, if_false]
    by_cases hout : p.type = PinType.digitalOutput
    · simp only [hout, if_true]
      exact ⟨_, _, rfl, .of_write (Or.inr (Or.inl hout)) rfl⟩
    · simp only [hout, if_false]
      by_cases hin : p.type = PinType.digitalInput
      · simp only [hin, if_true]
        exact ⟨_, _, rfl, .of_write (Or.inr (Or.inr hin)) rfl⟩
      · simp only [hin, if_false]
        by_cases hpwm : p.type = PinType.pwmInput
        · simp only [hpwm, if_true]
          refine applyPwm_applied hvalid hpwm (fun hduty => ?_) junk pokey m
          simp [dividesByZero, hvalid, hpwm, hduty] at h
        · -- `PK_DigitalIOSet`: no record the loaders make gets here valid
          simp only [hpwm, if_false]
          refine ⟨_, _, rfl, rfl, rfl, ⟨[_], rfl, ?_⟩, ⟨[], by simp, ?_⟩⟩
          · intro c hc img
            rw [List.mem_singleton.1 hc]
            simp
          · simp [IndexesPins, hvalid, hout, hin]

/-! ### The table -/

/-- The records the loop gets through before the run stops. -/
def reached : List (Option DevicePort) → List DevicePort
  | some p :: table => if dividesByZero p then [] else p :: reached table
  | _ => []

theorem reached_cons {p : DevicePort} (h : dividesByZero p = false)
    (table : List (Option DevicePort)) : reached (some p :: table) = p :: reached table := by
  simp [reached, h]

theorem reached_cons_of_stop {p : DevicePort} (h : dividesByZero p = true)
    (table : List (Option DevicePort)) : reached (some p :: table) = [] := by
  simp [reached, h]

/-- In a table whose slots all lead to records, only a division stops the run. -/
theorem reached_map_some (ps : List DevicePort) :
    reached (ps.map some) = ps.takeWhile fun p => !dividesByZero p := by
  induction ps with
  | nil => rfl
  | cons p ps ih =>
    rw [List.map_cons, List.takeWhile_cons]
    by_cases h : dividesByZero p = true
    · rw [reached_cons_of_stop h, h]
      rfl
    · simp only [Bool.not_eq_true] at h
      rw [reached_cons h, ih, h]
      rfl

/-- What the loop over the slots `table` leaves, for an image with `count` pins. -/
structure LoopApplied (count : ℕ) (table : List (Option DevicePort)) (m : Memory)
    (r : EStateM.Result Fault Memory PoKeysDevice) : Prop where
  ports : (final r).ports = m.ports
  sent : ∃ new, (final r).sent = m.sent ++ new ∧ ∀ c ∈ new, NotPinConfiguration c
  accesses : ∃ new, (final r).accesses = m.accesses ++ new ∧ ∀ n k, .pokeyPins n k ∈ new ↔
    ∃ p ∈ reached table, IndexesPins p ∧ n = count ∧ k = p.pin - 1
  returns : ∀ pokey' m', r = .ok pokey' m' →
    pokey'.iPinCount = count ∧ table = (reached table).map some

/-- A turn that stops the loop. -/
theorem LoopApplied.of_error {count : ℕ} {table : List (Option DevicePort)} {m m' : Memory}
    (e : Fault) (hports : m'.ports = m.ports) (hsent : m'.sent = m.sent)
    {new : List Access} (hnew : m'.accesses = m.accesses ++ new)
    (hslots : ∀ count k, .pokeyPins count k ∉ new) (hreached : reached table = []) :
    LoopApplied count table m (.error e m') where
  ports := hports
  sent := ⟨[], by simpa using hsent, by simp⟩
  accesses := ⟨new, hnew, fun n k => by simp [hslots n k, hreached]⟩
  returns := fun pokey' m'' h => by cases h

/-- A turn that returns, and then the rest of the loop. -/
theorem LoopApplied.cons {p : DevicePort} (hp : dividesByZero p = false)
    {pokey pokey' : PoKeysDevice} {m m₁ m₂ : Memory} {i : ℤ} {table : List (Option DevicePort)}
    {r : EStateM.Result Fault Memory PoKeysDevice} (hm : m₁ = m.touch (.pins i))
    (h : PortApplied p pokey m₁ pokey' m₂) (hrest : LoopApplied pokey'.iPinCount table m₂ r) :
    LoopApplied pokey.iPinCount (some p :: table) m r where
  ports := by rw [hrest.ports, h.ports, hm, Memory.touch_ports]
  sent := by
    obtain ⟨sent₁, hsent₁, hnot₁⟩ := h.sent
    obtain ⟨sent₂, hsent₂, hnot₂⟩ := hrest.sent
    refine ⟨sent₁ ++ sent₂, ?_, fun c hc => ?_⟩
    · rw [hsent₂, hsent₁, hm, Memory.touch_sent, List.append_assoc]
    · rcases List.mem_append.1 hc with hc | hc
      · exact hnot₁ c hc
      · exact hnot₂ c hc
  accesses := by
    obtain ⟨new₁, hnew₁, huses₁⟩ := h.accesses
    obtain ⟨new₂, hnew₂, huses₂⟩ := hrest.accesses
    refine ⟨.pins i :: (new₁ ++ new₂), ?_, fun n k => ?_⟩
    · rw [hnew₂, hnew₁, hm, Memory.touch_accesses]
      simp
    · rw [reached_cons hp]
      simp only [List.mem_cons, List.mem_append, reduceCtorEq, false_or, huses₁, huses₂,
        exists_eq_or_imp, h.iPinCount]
  returns := fun pokey₂ m' hr => by
    obtain ⟨hcount, htable⟩ := hrest.returns pokey₂ m' hr
    refine ⟨hcount.trans h.iPinCount, ?_⟩
    rw [reached_cons hp, List.map_cons, ← htable]

/-- The loop over the slots `is`. -/
theorem applySlots_applied (junk : ℕ → PwmJunk) (d : Device) (is : List ℕ) :
    ∀ (pokey : PoKeysDevice) (m : Memory),
      LoopApplied pokey.iPinCount (is.map fun (i : ℕ) => slotOf m d i) m
        ((is.foldlM (applySlot junk d) pokey).run m) := by
  induction is with
  | nil =>
    intro pokey m
    refine ⟨rfl, ⟨[], by simp, by simp⟩, ⟨[], by simp, by simp [reached]⟩, fun pokey' m' h => ?_⟩
    cases h
    exact ⟨rfl, rfl⟩
  | cons i is ih =>
    intro pokey m
    rw [List.foldlM_cons, List.map_cons]
    cases hslot : slotOf m d i with
    | none =>
      have hrun : (applySlot junk d pokey i).run m = .error .wildPort (m.touch (.pins i)) := by
        unfold applySlot
        rw [bind_of_error (portAt_of_wild hslot)]
      rw [bind_of_error hrun]
      exact .of_error _ rfl rfl (Memory.touch_accesses m _) (by simp) rfl
    | some p =>
      obtain ⟨q, -, hread⟩ := portAt_of_slot hslot
      have hturn : (applySlot junk d pokey i).run m =
          (applyPort (junk i) pokey p).run (m.touch (.pins i)) := by
        unfold applySlot
        rw [bind_of_ok hread]
      by_cases hstop : dividesByZero p = true
      · obtain ⟨j, hrun⟩ := applyPort_stops hstop (junk i) pokey (m.touch (.pins i))
        rw [bind_of_error (hturn.trans hrun)]
        exact .of_error _ rfl rfl (List.append_assoc ..) (by simp) (reached_cons_of_stop hstop _)
      · simp only [Bool.not_eq_true] at hstop
        obtain ⟨pokey', m', hrun, happlied⟩ :=
          applyPort_applied hstop (junk i) pokey (m.touch (.pins i))
        rw [bind_of_ok (hturn.trans hrun)]
        have hrest := ih pokey' m'
        rw [slotOf_congr d (show m'.ports = m.ports from happlied.ports)] at hrest
        exact .cons hstop rfl happlied hrest

/-- **Applying a table**: what `applyPinConfigurationToDevice` leaves. -/
theorem applyPinConfigurationToDevice_applied {d : Device} {pokey : PoKeysDevice} (m : Memory)
    (junk : ℕ → PwmJunk) (hpokey : d.pokey = some pokey) :
    ∃ r, LoopApplied pokey.iPinCount (tableOf m d) m r ∧
      (applyPinConfigurationToDevice junk d).run m =
        match r with
        | .ok pokey' m' => .ok { d with pokey := some pokey' } m'
        | .error e m' => .error e m' := by
  refine ⟨_, applySlots_applied junk d (List.range d.numberOfPins.toNat) pokey m, ?_⟩
  unfold applyPinConfigurationToDevice
  rw [bind_of_ok (pokeyOf_run hpokey m)]
  cases hrun : ((List.range d.numberOfPins.toNat).foldlM (applySlot junk d) pokey).run m with
  | ok pokey' m' => rw [bind_of_ok hrun]; rfl
  | error e m' => rw [bind_of_error hrun]

end SimPokey
