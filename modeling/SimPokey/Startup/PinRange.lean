import SimPokey.Startup.Pipeline

/-!
# The elements of `Pins[]` a device's run uses

The pin number of a record comes from the configuration as it is; applying and polling subtract
one and use the result as an index of `Pins[]`.  Only a valid PWM pin is never used so.
`pinsInRange_iff` says when every index exists, for the whole run of a device.
-/

namespace SimPokey

open FaultState LibConfig

/-- Every element of a `Pins` array that was used exists. -/
def PinsInRange (m : Memory) : Prop :=
  ∀ (count : ℕ) (k : ℤ), .pokeyPins count k ∈ m.accesses → 0 ≤ k ∧ k < count

/-- Uses of slots of `pins[]` and of texts do not matter. -/
theorem PinsInRange.usesSlots {m m' : Memory} (h : PinsInRange m)
    (huses : UsesOnly IsSlotOrText m m') : PinsInRange m' := by
  obtain ⟨new, hnew, hslots⟩ := huses
  intro count k hmem
  rw [hnew] at hmem
  rcases List.mem_append.1 hmem with hmem | hmem
  · exact h count k hmem
  · rcases hslots _ hmem with ⟨i, hi⟩ | ⟨size, length, htext⟩
    · cases hi
    · cases htext

/-- The library finds a capability only on pins the device has. -/
def CapableInRange (lib : PoKeysLib) : Prop :=
  ∀ image pin cap, lib.checkPinCapability image pin cap ≠ 0 → 1 ≤ pin ∧ pin ≤ image.iPinCount

theorem capable_inRange : CapableInRange .capable := fun image pin cap h => by
  by_contra hpin
  exact h (if_neg hpin)

variable {Setting : Type} [LibConfig Setting]

/-- A loaded record that passes the check has a pin of the device. -/
theorem passesCheck_inRange {lib : PoKeysLib} (hcap : CapableInRange lib) {image : PoKeysDevice}
    {P W : List Setting} {p : DevicePort} (hp : p ∈ acceptedTable P W)
    (h : passesCheck lib image p = true) : 1 ≤ p.pin ∧ p.pin ≤ image.iPinCount := by
  have htypes : p.type = PinType.digitalInput ∨ p.type = PinType.digitalOutput ∨
      p.type = PinType.uknown ∨ p.type = PinType.pwmInput := by
    rcases List.mem_append.1 hp with hp | hp
    · rcases (of_mem_acceptedPins hp).1 with h | h | h
      · exact Or.inl h
      · exact Or.inr (Or.inl h)
      · exact Or.inr (Or.inr (Or.inl h))
    · exact Or.inr (Or.inr (Or.inr (of_mem_acceptedPwm hp).2.1))
  unfold passesCheck at h
  rcases htypes with htype | htype | htype | htype
  · refine hcap image p.pin .digitalInput fun hzero => ?_
    simp [htype, hzero] at h
  · refine hcap image p.pin .digitalOutput fun hzero => ?_
    simp [htype, hzero, PinType.digitalOutput, PinType.digitalInput] at h
  · rw [htype] at h
    simp [PinType.uknown, PinType.digitalInput, PinType.digitalOutput, PinType.encoder,
      PinType.fastEncoder, PinType.ufastEncoder, PinType.analogInput, PinType.pwmInput,
      PinType.counter] at h
  · refine hcap image p.pin .pwmOut fun hzero => ?_
    simp [htype, hzero, PinType.digitalInput, PinType.digitalOutput, PinType.encoder,
      PinType.fastEncoder, PinType.ufastEncoder, PinType.analogInput, PinType.pwmInput] at h

/-- A record that is not used as an index passed the check. -/
theorem inRange_of_not_indexesPins {lib : PoKeysLib} (hcap : CapableInRange lib)
    {pokey : PoKeysDevice} {pins pwm : Option Setting} {p : DevicePort}
    (hp : p ∈ validatedPorts lib pokey pins pwm) (h : ¬ IndexesPins p) :
    1 ≤ p.pin ∧ p.pin ≤ pokey.iPinCount := by
  obtain ⟨q, hq, rfl⟩ := List.mem_map.1 hp
  have hvalid : (validated lib (lib.readPinConfiguration pokey) q).valid ≠ pinInvalid :=
    fun hinvalid => h (Or.inl hinvalid)
  have hpass := (validated_valid_iff lib _ (of_mem_acceptedTable hq).1).1 hvalid
  have hpin := passesCheck_inRange hcap hq hpass
  rw [validated_pin]
  exact hpin

/-- A prepared device, applied and polled: besides slots of `pins[]`, only the elements of `Pins[]`
of the records that are reached and used as an index are used, and each of these is. -/
theorem applyAndPoll_uses (junk : ℕ → PwmJunk) (readings : List Reading) {d : Device}
    {pokey : PoKeysDevice} (hpokey : d.pokey = some pokey) (m : Memory) :
    ∃ new, (final ((applyAndPoll junk readings d).run m)).accesses = m.accesses ++ new ∧
      ∀ count k, .pokeyPins count k ∈ new ↔
        ∃ p ∈ reached (tableOf m d), IndexesPins p ∧ count = pokey.iPinCount ∧ k = p.pin - 1 := by
  obtain ⟨r, hloop, hrun⟩ := applyPinConfigurationToDevice_applied m junk hpokey
  obtain ⟨new, hnew, huses⟩ := hloop.accesses
  unfold applyAndPoll
  cases r with
  | error e m₁ =>
    rw [applyConfiguration, bind_of_error (bind_of_error hrun)]
    exact ⟨new, hnew, huses⟩
  | ok pokey' m₁ =>
    obtain ⟨hcount, htable⟩ := hloop.returns pokey' m₁ rfl
    have hports : m₁.ports = m.ports := hloop.ports
    obtain ⟨new', hnew', huses'⟩ :=
      pollDevice_frames (d := { d with pokey := some pokey' }) rfl readings m₁
    have hconf : (applyConfiguration junk d).run m =
        .ok (0, { d with pokey := some pokey' }) m₁ := by
      rw [applyConfiguration, bind_of_ok hrun]
      rfl
    rw [bind_of_ok hconf]
    refine ⟨new ++ new', ?_, fun count k => ?_⟩
    · have hnew₁ : m₁.accesses = m.accesses ++ new := hnew
      rw [← List.append_assoc, ← hnew₁]
      exact hnew'
    · rw [List.mem_append, huses]
      constructor
      · rintro (h | h)
        · exact h
        · rcases huses' _ h with ⟨i, hi⟩ | ⟨p, hp, htype, hk⟩
          · cases hi
          · -- the applying loop got through the whole table, so the ticks see nothing new
            rw [tableOf_congr _ hports] at hp
            change some p ∈ tableOf m d at hp
            rw [htable, List.mem_map] at hp
            obtain ⟨q, hq, hqp⟩ := hp
            cases hqp
            simp only [Access.pokeyPins.injEq] at hk
            exact ⟨p, hq, Or.inr (Or.inr htype), hk.1.trans hcount, hk.2⟩
      · exact Or.inl

/-- The whole run of a device, whatever its table was before. -/
theorem deviceRun_inRange_iff (lib : PoKeysLib) (junk : ℕ → PwmJunk) (pins pwm : Option Setting)
    (pokey : PoKeysDevice) (readings : List Reading) (d : Device) {m : Memory}
    (hm : PinsInRange m) :
    PinsInRange (final ((deviceRun lib junk pins pwm pokey readings d).run m)) ↔
      ∀ d₁ m₁, (prepareDevice lib pins pwm pokey d).run m = .ok d₁ m₁ →
        ∀ p ∈ reached (tableOf m₁ d₁), IndexesPins p → 1 ≤ p.pin ∧ p.pin ≤ pokey.iPinCount := by
  have hprepared := prepareDevice_frames lib pins pwm pokey d m
  unfold deviceRun
  cases hrun : (prepareDevice lib pins pwm pokey d).run m with
  | error e m₁ =>
    rw [hrun] at hprepared
    rw [bind_of_error hrun]
    constructor
    · intro _ d₂ m₂ h
      cases h
    · exact fun _ => hm.usesSlots hprepared
  | ok d₁ m₁ =>
    rw [hrun] at hprepared
    have hm₁ : PinsInRange m₁ := hm.usesSlots hprepared
    obtain ⟨new, hnew, huses⟩ := applyAndPoll_uses junk readings (prepareDevice_pokey hrun) m₁
    rw [bind_of_ok hrun]
    constructor
    · intro hrange d₂ m₂ h p hp hindex
      cases h
      have hused := (huses _ _).2 ⟨p, hp, hindex, rfl, rfl⟩
      have hk := hrange _ _ (by rw [hnew]; exact List.mem_append_right _ hused)
      change 0 ≤ p.pin - 1 ∧ p.pin - 1 < pokey.iPinCount at hk
      omega
    · intro hpins count k hmem
      rw [hnew] at hmem
      rcases List.mem_append.1 hmem with hmem | hmem
      · exact hm₁ count k hmem
      · obtain ⟨p, hp, hindex, rfl, rfl⟩ := (huses count k).1 hmem
        have hpin := hpins d₁ m₁ rfl p hp hindex
        show 0 ≤ p.pin - 1 ∧ p.pin - 1 < pokey.iPinCount
        omega

/-- **A device's run uses only existing elements of `Pins[]` exactly when every record it uses as
an index has a pin of the device**: of the prepared table, the records that the applying loop gets
to and that failed validation or are digital.  For a table that started empty these are the accepted
entries before the first valid PWM pin with a zero duty cycle. -/
theorem pinsInRange_iff (lib : PoKeysLib) (hcap : CapableInRange lib) (junk : ℕ → PwmJunk)
    (pins pwm : Option Setting) (pokey : PoKeysDevice) (readings : List Reading) (d : Device)
    (m : Memory) (hm : PinsInRange m) :
    (PinsInRange (final ((deviceRun lib junk pins pwm pokey readings d).run m)) ↔
      ∀ d₁ m₁, (prepareDevice lib pins pwm pokey d).run m = .ok d₁ m₁ →
        ∀ p ∈ reached (tableOf m₁ d₁), IndexesPins p → 1 ≤ p.pin ∧ p.pin ≤ pokey.iPinCount) ∧
    (d.numberOfPins = 0 →
      (PinsInRange (final ((deviceRun lib junk pins pwm pokey readings d).run m)) ↔
        ∀ p ∈ (validatedPorts lib pokey pins pwm).takeWhile fun p => !dividesByZero p,
          1 ≤ p.pin ∧ p.pin ≤ pokey.iPinCount)) := by
  have hrange := deviceRun_inRange_iff lib junk pins pwm pokey readings d hm
  refine ⟨hrange, fun hempty => ?_⟩
  obtain ⟨d₁, m₁, hprepare, htable⟩ := prepareDevice_validates lib pins pwm pokey hempty m
  rw [hrange]
  constructor
  · intro hpins p hp
    by_cases hindex : IndexesPins p
    · refine hpins d₁ m₁ hprepare p ?_ hindex
      rwa [htable, reached_map_some]
    · exact inRange_of_not_indexesPins hcap ((List.takeWhile_prefix _).subset hp) hindex
  · intro hpins d₂ m₂ hrun p hp _
    cases hprepare.symm.trans hrun
    rw [htable, reached_map_some] at hp
    exact hpins p hp

/-- One input on pin 3 of 55, polled twice. -/
theorem pinsInRange_iff_input :
    PinsInRange (final ((deviceRun .capable (fun _ => .cleared)
      (some (Tree.list [Tree.port 3 "DIGITAL_INPUT"])) none (.cleared 55)
      [⟨pkOk, fun _ => 1⟩, ⟨pkOk, fun _ => 0⟩] .cleared).run .empty)) := by
  refine ((pinsInRange_iff .capable capable_inRange _ _ _ _ _ _ _ ?_).2 rfl).2 (by decide)
  exact fun count k h => absurd h List.not_mem_nil

/-- A pin 0 is accepted, does not pass the check, and is marked as reserved one element before the
array. -/
theorem not_pinsInRange_zero :
    CapableInRange .capable ∧ PinsInRange .empty ∧
      ¬ PinsInRange (final ((deviceRun .capable (fun _ => .cleared)
        (some (Tree.list [Tree.port 0 "DIGITAL_INPUT"])) none (.cleared 55) []
        .cleared).run .empty)) := by
  refine ⟨capable_inRange, fun count k h => absurd h List.not_mem_nil, fun h => ?_⟩
  exact absurd (h 55 (-1) (by decide)) (by decide)

end SimPokey
