import SimPokey.Lib.Growth
import SimPokey.Pin.Pwm

/-!
# What applying a table uses

A turn of `applyPinConfigurationToDevice` uses the slot of its record, and then one element of
`Pins[]`, or one cell of each of the two blocks of a PWM pin (`portUses`).  The block of enabled
channels has one cell, so of all PWM pins only pin 22 stays inside it (`portUses_inBounds_iff`).
-/

namespace SimPokey

open FaultState

instance (p : DevicePort) : Decidable (IndexesPins p) := inferInstanceAs (Decidable (_ ∨ _ ∨ _))

/-- What the turn of the record `p` uses besides its slot. -/
def portUses (junk : PwmJunk) (count : ℕ) (p : DevicePort) : List Access :=
  if IndexesPins p then [.pokeyPins count (p.pin - 1)]
  else if p.type = PinType.pwmInput then
    [.block 1 (pwmChannel p.pin junk.ch - 1), .block 6 (pwmChannel p.pin junk.ch - 1)]
  else []

theorem portUses_of_indexes {p : DevicePort} (h : IndexesPins p) (junk : PwmJunk) (count : ℕ) :
    portUses junk count p = [.pokeyPins count (p.pin - 1)] := if_pos h

theorem portUses_of_pwm {p : DevicePort} (h : isPwm p = true) (junk : PwmJunk) (count : ℕ) :
    portUses junk count p =
      [.block 1 (pwmChannel p.pin junk.ch - 1), .block 6 (pwmChannel p.pin junk.ch - 1)] := by
  obtain ⟨hvalid, htype⟩ := (isPwm_iff p).1 h
  have hnot : ¬ IndexesPins p := by
    rintro (h | h | h)
    · exact hvalid h
    · exact absurd (htype.symm.trans h) (by decide)
    · exact absurd (htype.symm.trans h) (by decide)
  rw [portUses, if_neg hnot, if_pos htype]

theorem applyPort_accesses {p : DevicePort} (h : dividesByZero p = false) (junk : PwmJunk)
    (pokey : PoKeysDevice) (m : Memory) :
    (final ((applyPort junk pokey p).run m)).accesses =
      m.accesses ++ portUses junk pokey.iPinCount p := by
  unfold applyPort
  by_cases hvalid : p.valid = pinInvalid
  · rw [portUses_of_indexes (Or.inl hvalid)]
    simp only [hvalid, if_true]
    rfl
  simp only [if_neg hvalid]
  by_cases hout : p.type = PinType.digitalOutput
  · rw [portUses_of_indexes (Or.inr (Or.inl hout))]
    simp only [if_pos hout]
    rfl
  simp only [if_neg hout]
  by_cases hin : p.type = PinType.digitalInput
  · rw [portUses_of_indexes (Or.inr (Or.inr hin))]
    simp only [if_pos hin]
    rfl
  simp only [if_neg hin]
  by_cases hpwm : p.type = PinType.pwmInput
  · have hpwm' : isPwm p = true := (isPwm_iff p).2 ⟨hvalid, hpwm⟩
    have hduty : p.dutyCycle ≠ 0 := fun hduty => by
      rw [(dividesByZero_iff p).2 ⟨hpwm', hduty⟩] at h
      cases h
    rw [portUses_of_pwm hpwm']
    simp only [if_pos hpwm]
    unfold applyPwm
    rw [bind_of_ok (touch_run _ m), run_ite, if_neg hduty]
    exact List.append_assoc ..
  · have hnot : ¬ IndexesPins p := by
      rintro (h | h | h)
      · exact hvalid h
      · exact hout h
      · exact hin h
    rw [portUses, if_neg hnot, if_neg hpwm]
    simp only [if_neg hpwm]
    exact (List.append_nil _).symm

/-- What the turns for the records `es`, each with its slot, use. -/
def tableUses (junk : ℕ → PwmJunk) (count : ℕ) (es : List (DevicePort × ℕ)) : List Access :=
  es.flatMap fun e => .pins e.2 :: portUses (junk e.2) count e.1

theorem applySlots_accesses (junk : ℕ → PwmJunk) (d : Device) (ps : List DevicePort) :
    ∀ (k : ℕ) (pokey : PoKeysDevice) (m : Memory),
      (∀ i p, ps[i]? = some p → slotOf m d ((k + i : ℕ) : ℤ) = some p) →
      (∀ p ∈ ps, dividesByZero p = false) →
      (final (((List.range' k ps.length).foldlM (applySlot junk d) pokey).run m)).accesses =
        m.accesses ++ tableUses junk pokey.iPinCount (ps.zipIdx k) := by
  induction ps with
  | nil => exact fun k pokey m _ _ => (List.append_nil _).symm
  | cons p ps ih =>
    intro k pokey m hslots hdiv
    have hzero := hdiv p List.mem_cons_self
    have hfirst : slotOf m d k = some p := hslots 0 p rfl
    obtain ⟨q, -, hread⟩ := portAt_of_slot hfirst
    obtain ⟨acc, hport⟩ := applyPort_eq hzero (junk k) pokey (m.touch (.pins k))
    have hacc := applyPort_accesses hzero (junk k) pokey (m.touch (.pins k))
    rw [hport, final_ok] at hacc
    have hturn : (applySlot junk d pokey k).run m = .ok (appliedPort (junk k) pokey p)
        { m with accesses := acc, sent := m.sent ++ sentByPort (junk k) pokey p } := by
      unfold applySlot
      rw [bind_of_ok hread]
      exact hport
    have hrest := ih (k + 1) (appliedPort (junk k) pokey p)
      { m with accesses := acc, sent := m.sent ++ sentByPort (junk k) pokey p }
      (fun i p' hi => by
        rw [Nat.add_assoc, Nat.add_comm 1 i]
        exact hslots (i + 1) p' hi)
      fun p' hp' => hdiv p' (List.mem_cons_of_mem p hp')
    rw [List.length_cons, List.range'_succ, List.foldlM_cons, bind_of_ok hturn, hrest,
      List.zipIdx_cons, tableUses, tableUses, List.flatMap_cons, hacc, Memory.touch_accesses,
      List.append_assoc, List.append_assoc]
    rfl

/-- **What applying a table that never divides by zero uses.** -/
theorem applyPinConfigurationToDevice_accesses {d : Device} {pokey : PoKeysDevice} {m : Memory}
    {ps : List DevicePort} (htable : tableOf m d = ps.map some) (hpokey : d.pokey = some pokey)
    (hdiv : ∀ p ∈ ps, dividesByZero p = false) (junk : ℕ → PwmJunk) :
    (final ((applyPinConfigurationToDevice junk d).run m)).accesses =
      m.accesses ++ tableUses junk pokey.iPinCount ps.zipIdx := by
  obtain ⟨hlen, hslots⟩ := slotOf_of_tableOf htable
  have hslots' : ∀ i p, ps[i]? = some p → slotOf m d ((0 + i : ℕ) : ℤ) = some p := by
    intro i p hi
    rw [Nat.zero_add]
    exact hslots i p hi
  have haccesses := applySlots_accesses junk d ps 0 pokey m hslots' hdiv
  obtain ⟨acc, hrun⟩ := applySlots_eq junk d ps 0 pokey m hslots' hdiv
  rw [hrun] at haccesses
  unfold applyPinConfigurationToDevice
  rw [bind_of_ok (pokeyOf_run hpokey m), hlen, List.range_eq_range', bind_of_ok hrun]
  exact haccesses

/-! ### Bounds -/

/-- The board has room for the record: a PWM pin has the first channel, any other record an
element of `Pins[]`. -/
def FitsBoard (count : ℕ) (p : DevicePort) : Prop :=
  if isPwm p then p.pin = 22 else 1 ≤ p.pin ∧ p.pin ≤ count

/-- The turn of a record that is digital, not valid or a PWM pin stays in bounds exactly when the
record fits. -/
theorem portUses_inBounds_iff {p : DevicePort} (hknown : IndexesPins p ∨ isPwm p = true)
    (hpin : isPwm p = true → 17 ≤ p.pin ∧ p.pin ≤ 22) (junk : PwmJunk) (count : ℕ) :
    (∀ a ∈ portUses junk count p, a.InBounds) ↔ FitsBoard count p := by
  by_cases hpwm : isPwm p = true
  · have hchannel := pwmChannel_eq (hpin hpwm) junk.ch
    have hbounds := hpin hpwm
    rw [portUses_of_pwm hpwm, FitsBoard, if_pos hpwm, hchannel, List.forall_mem_cons,
      List.forall_mem_singleton]
    show (0 ≤ 23 - p.pin - 1 ∧ 23 - p.pin - 1 < (1 : ℕ)) ∧
      (0 ≤ 23 - p.pin - 1 ∧ 23 - p.pin - 1 < (6 : ℕ)) ↔ p.pin = 22
    omega
  · rw [portUses_of_indexes (hknown.resolve_right hpwm), FitsBoard, if_neg hpwm,
      List.forall_mem_singleton]
    show 0 ≤ p.pin - 1 ∧ p.pin - 1 < count ↔ 1 ≤ p.pin ∧ p.pin ≤ count
    omega

end SimPokey
