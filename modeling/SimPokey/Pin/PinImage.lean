import SimPokey.Pin.ApplyImage
import SimPokey.Pin.CheckReport

/-!
# The pin functions after validating and applying

`ValidPin` says which records the device can take, `PinImage` what the function of each element
of `Pins[]` is afterwards.  For a table of distinct pins, `checkValidPinConfiguration` followed by
`applyPinConfigurationToDevice` marks exactly the first and leaves exactly the second, and it does
so without writing past a text exactly when every record of a type that has a case is valid
(`exactImage_iff`).
-/

namespace SimPokey

open FaultState Writes

/-! ### What is declared -/

/-- The type and the pin go together on a device with the capabilities `cap`. -/
inductive ValidPin (cap : ℤ → AllPinCap → ℤ) (p : DevicePort) : Prop
  | digitalInput (htype : p.type = PinType.digitalInput) (hcap : cap p.pin .digitalInput ≠ 0)
  | digitalOutput (htype : p.type = PinType.digitalOutput) (hcap : cap p.pin .digitalOutput ≠ 0)
  | encoder (htype : p.type = PinType.encoder) (hcap : cap p.pin .digitalInput ≠ 0)
  | analogInput (htype : p.type = PinType.analogInput)
      (hcap : cap p.pin .analogInput ≠ 0 ∨ cap p.pin .mfAnalogInput ≠ 0)
  | pwmInput (htype : p.type = PinType.pwmInput) (hcap : cap p.pin .pwmOut ≠ 0)
  | counter (htype : p.type = PinType.counter) (hcap : cap p.pin .digitalCounter ≠ 0)
  | fastEncoder (htype : p.type = PinType.fastEncoder) (hpin : p.pin ∈ [1, 2, 5, 6, 15, 16])
  | ufastEncoder (htype : p.type = PinType.ufastEncoder) (hpin : p.pin ∈ [8, 12, 13])

/-- The functions `F` of the elements of `Pins[]` after the table `ps`, from the functions `F₀`. -/
structure PinImage (cap : ℤ → AllPinCap → ℤ) (ps : List DevicePort) (F₀ F : ℤ → ℤ) : Prop where
  invalid : ∀ p ∈ ps, ¬ ValidPin cap p → F (p.pin - 1) = PinCap.reserved
  output : ∀ p ∈ ps, ValidPin cap p → p.type = PinType.digitalOutput →
    F (p.pin - 1) = PinCap.digitalOutput
  input : ∀ p ∈ ps, ValidPin cap p → p.type = PinType.digitalInput →
    F (p.pin - 1) = PinCap.digitalInput
  /-- A valid pin of another type keeps the function it had. -/
  other : ∀ p ∈ ps, ValidPin cap p → p.type ≠ PinType.digitalOutput →
    p.type ≠ PinType.digitalInput → F (p.pin - 1) = F₀ (p.pin - 1)
  /-- So does a pin that is not configured. -/
  free : ∀ k, (∀ p ∈ ps, p.pin - 1 ≠ k) → F k = F₀ k

/-! ### The check -/

/-- No two of the type codes are the same, so the branches of the check exclude each other. -/
theorem passesCheck_iff (lib : PoKeysLib) (pokey : PoKeysDevice) (p : DevicePort) :
    passesCheck lib pokey p = true ↔ ValidPin (lib.checkPinCapability pokey) p := by
  constructor
  · intro h
    unfold passesCheck at h
    dsimp only at h
    split_ifs at h with hin hout henc hfast hufast hana hpwm hcount
    · exact .digitalInput hin (by simpa using h)
    · exact .digitalOutput hout (by simpa using h)
    · exact .encoder henc (by simpa using h)
    · refine .fastEncoder hfast ?_
      simp only [Bool.not_eq_true', Bool.and_eq_false_iff, bne_eq_false_iff_eq] at h
      simp only [List.mem_cons, List.not_mem_nil, or_false]
      tauto
    · refine .ufastEncoder hufast ?_
      simp only [Bool.not_eq_true', Bool.and_eq_false_iff, bne_eq_false_iff_eq] at h
      simp only [List.mem_cons, List.not_mem_nil, or_false]
      tauto
    · refine .analogInput hana ?_
      simp only [Bool.not_eq_true', Bool.and_eq_false_iff, beq_eq_false_iff_ne] at h
      exact h
    · exact .pwmInput hpwm (by simpa using h)
    · exact .counter hcount (by simpa using h)
  · intro h
    unfold passesCheck
    cases h with
    | digitalInput htype hcap => simp [htype, hcap]
    | digitalOutput htype hcap => simp [htype, hcap, PinType.digitalOutput, PinType.digitalInput]
    | encoder htype hcap =>
      simp [htype, hcap, PinType.encoder, PinType.digitalOutput, PinType.digitalInput]
    | analogInput htype hcap =>
      rcases hcap with hcap | hcap <;>
        simp [htype, hcap, PinType.analogInput, PinType.encoder, PinType.digitalOutput,
          PinType.digitalInput, PinType.fastEncoder, PinType.ufastEncoder]
    | pwmInput htype hcap =>
      simp [htype, hcap, PinType.pwmInput, PinType.analogInput, PinType.encoder,
        PinType.digitalOutput, PinType.digitalInput, PinType.fastEncoder, PinType.ufastEncoder]
    | counter htype hcap =>
      simp [htype, hcap, PinType.counter, PinType.pwmInput, PinType.analogInput, PinType.encoder,
        PinType.digitalOutput, PinType.digitalInput, PinType.fastEncoder, PinType.ufastEncoder]
    | fastEncoder htype hpin =>
      simp only [List.mem_cons, List.not_mem_nil, or_false] at hpin
      rcases hpin with hpin | hpin | hpin | hpin | hpin | hpin <;>
        simp [htype, hpin, PinType.encoder, PinType.digitalOutput, PinType.digitalInput,
          PinType.fastEncoder]
    | ufastEncoder htype hpin =>
      simp only [List.mem_cons, List.not_mem_nil, or_false] at hpin
      rcases hpin with hpin | hpin | hpin <;>
        simp [htype, hpin, PinType.encoder, PinType.digitalOutput, PinType.digitalInput,
          PinType.fastEncoder, PinType.ufastEncoder]

/-- A record as validation leaves it: marked exactly when its pin is valid, and otherwise what it
was. -/
structure Checked (cap : ℤ → AllPinCap → ℤ) (p p' : DevicePort) : Prop where
  same : p' = { p with valid := p'.valid }
  valid : p'.valid ≠ pinInvalid ↔ ValidPin cap p

theorem checked_validated (lib : PoKeysLib) (pokey : PoKeysDevice) {p : DevicePort}
    (h : p.valid = pinInvalid) :
    Checked (lib.checkPinCapability pokey) p (validated lib pokey p) where
  same := validated_same lib pokey p
  valid := (validated_valid_iff lib pokey h).trans (passesCheck_iff lib pokey p)

theorem Checked.pin {cap : ℤ → AllPinCap → ℤ} {p p' : DevicePort} (h : Checked cap p p') :
    p'.pin = p.pin := by rw [h.same]

theorem Checked.type {cap : ℤ → AllPinCap → ℤ} {p p' : DevicePort} (h : Checked cap p p') :
    p'.type = p.type := by rw [h.same]

/-! ### The pass -/

/-- The function of a record's element after its turn. -/
theorem appliedPin_pinFunction (p : DevicePort) (data : PinData) :
    (appliedPin p data).pinFunction =
      if p.valid = pinInvalid then PinCap.reserved
      else if p.type = PinType.digitalOutput then PinCap.digitalOutput
      else if p.type = PinType.digitalInput then PinCap.digitalInput
      else data.pinFunction := by
  unfold appliedPin
  split_ifs <;> rfl

theorem map_pinIndex {ps : List DevicePort} {f : DevicePort → DevicePort}
    (hf : ∀ p ∈ ps, (f p).pin = p.pin) :
    (ps.map f).map pinIndex = (ps.map DevicePort.pin).map fun pin => pin - 1 := by
  rw [List.map_map, List.map_map]
  apply List.map_congr_left
  intro p hp
  show (f p).pin - 1 = p.pin - 1
  rw [hf p hp]

/-- Over distinct pins each element is rewritten by the one record that has its pin. -/
theorem pinImage_foldl {cap : ℤ → AllPinCap → ℤ} {ps : List DevicePort}
    {f : DevicePort → DevicePort} (hf : ∀ p ∈ ps, Checked cap p (f p))
    (hnodup : (ps.map DevicePort.pin).Nodup) (pins : ℤ → PinData) :
    PinImage cap ps (fun k => (pins k).pinFunction)
      fun k => ((ps.map f).foldl (write pinIndex appliedPin) pins k).pinFunction := by
  have hkeys := map_pinIndex fun p hp => (hf p hp).pin
  have hdistinct : ((ps.map f).map pinIndex).Nodup := by
    rw [hkeys]
    exact hnodup.map fun _ _ h => by simpa using h
  -- what the turn of the record made from `p` leaves in its element
  have hturn : ∀ p ∈ ps,
      ((ps.map f).foldl (write pinIndex appliedPin) pins (p.pin - 1)).pinFunction =
        if (f p).valid = pinInvalid then PinCap.reserved
        else if p.type = PinType.digitalOutput then PinCap.digitalOutput
        else if p.type = PinType.digitalInput then PinCap.digitalInput
        else (pins (p.pin - 1)).pinFunction := by
    intro p hp
    have hkey : pinIndex (f p) = p.pin - 1 := by rw [pinIndex, (hf p hp).pin]
    rw [← hkey, foldl_write_of_mem hdistinct (List.mem_map_of_mem hp), appliedPin_pinFunction,
      (hf p hp).type]
  refine ⟨fun p hp hinvalid => ?_, fun p hp hvalid hout => ?_, fun p hp hvalid hin => ?_,
    fun p hp hvalid hout hin => ?_, fun k hk => ?_⟩
  · have hzero : (f p).valid = pinInvalid :=
      not_not.1 fun hne => hinvalid ((hf p hp).valid.1 hne)
    rw [hturn p hp, if_pos hzero]
  · rw [hturn p hp, if_neg ((hf p hp).valid.2 hvalid), if_pos hout]
  · have hout : p.type ≠ PinType.digitalOutput := by rw [hin]; decide
    rw [hturn p hp, if_neg ((hf p hp).valid.2 hvalid), if_neg hout, if_pos hin]
  · rw [hturn p hp, if_neg ((hf p hp).valid.2 hvalid), if_neg hout, if_neg hin]
  · have hfree : k ∉ (ps.map f).map pinIndex := by
      rw [hkeys, List.map_map]
      rintro hmem
      obtain ⟨p, hp, hkey⟩ := List.mem_map.1 hmem
      exact hk p hp hkey
    rw [foldl_write_of_not_mem hfree]

/-- Validating and applying the table `ps`: the check writes no text past its block, marks exactly
the valid pins and changes nothing else; applying returns, and leaves exactly the declared
functions. -/
def ExactImage (lib : PoKeysLib) (junk : ℕ → PwmJunk) (m : Memory) (d : Device)
    (pokey : PoKeysDevice) (ps : List DevicePort) : Prop :=
  ∃ d₁ m₁ ps₁ pokey₂ m₂, (checkValidPinConfiguration lib d).run m = .ok (0, d₁) m₁ ∧
    TextsFit m m₁ ∧ tableOf m₁ d₁ = ps₁.map some ∧
    List.Forall₂ (Checked (lib.checkPinCapability (lib.readPinConfiguration pokey))) ps ps₁ ∧
    (applyPinConfigurationToDevice junk d₁).run m₁ = .ok { d₁ with pokey := some pokey₂ } m₂ ∧
    PinImage (lib.checkPinCapability (lib.readPinConfiguration pokey)) ps
      (lib.pinConfigurationGet pokey) fun k => (pokey₂.pins k).pinFunction

/-- Every record of a type that has a case is valid; a trigger never is. -/
def AllCasesValid (cap : ℤ → AllPinCap → ℤ) (ps : List DevicePort) : Prop :=
  ∀ p ∈ ps, (incorrectType p.type).isSome → ValidPin cap p

section Table

variable {lib : PoKeysLib} {m : Memory} {d : Device} {pokey : PoKeysDevice} {ps : List DevicePort}

/-- Whatever becomes of it, a table with a record that fails in its case is not checked without
writing past a text. -/
theorem ExactImage.allCasesValid {junk : ℕ → PwmJunk} (h : ExactImage lib junk m d pokey ps)
    (hcount : d.numberOfPins = ps.length) (htable : tableOf m d = ps.map some)
    (hdistinct : (ps.map DevicePort.pin).Nodup) (hhas : d.hasPokey = 1)
    (hpokey : d.pokey = some pokey) :
    AllCasesValid (lib.checkPinCapability (lib.readPinConfiguration pokey)) ps := by
  obtain ⟨d₁, m₁, _, _, _, hcheck, hfit, -⟩ := h
  obtain ⟨T, hholds, rfl⟩ := holds_of_tableOf hcount htable hdistinct
  obtain ⟨m₁', hcheck', -, hchecks⟩ :=
    checkValidPinConfiguration_holds lib hholds (by rw [hhas]; decide) hpokey
  cases hcheck.symm.trans hcheck'
  intro p hp hcase
  exact (passesCheck_iff ..).1 (hchecks.fit_iff.1 hfit p hp hcase)

/-- **Validating and applying a table gives the exact image, without writing past a text, exactly
when every record of a type that has a case is valid.** -/
theorem exactImage_iff (lib : PoKeysLib) (junk : ℕ → PwmJunk) {m : Memory} {d : Device}
    {pokey : PoKeysDevice} {ps : List DevicePort} (hcount : d.numberOfPins = ps.length)
    (htable : tableOf m d = ps.map some) (hdistinct : (ps.map DevicePort.pin).Nodup)
    (hzero : ∀ p ∈ ps, p.valid = pinInvalid)
    (hpwm : ∀ p ∈ ps, p.type = PinType.pwmInput → 0 < p.dutyCycle)
    (hhas : d.hasPokey = 1) (hpokey : d.pokey = some pokey) :
    ExactImage lib junk m d pokey ps ↔
      AllCasesValid (lib.checkPinCapability (lib.readPinConfiguration pokey)) ps := by
  constructor
  · exact fun h => h.allCasesValid hcount htable hdistinct hhas hpokey
  intro hall
  obtain ⟨T, hholds, rfl⟩ := holds_of_tableOf hcount htable hdistinct
  obtain ⟨m₁, hcheck, hholds₁, hchecks⟩ :=
    checkValidPinConfiguration_holds lib hholds (by rw [hhas]; decide) hpokey
  have hfit : TextsFit m m₁ :=
    hchecks.fit_iff.2 fun p hp hcase => (passesCheck_iff ..).2 (hall p hp hcase)
  have htable₁ := hholds₁.tableOf_eq
  rw [records_validatedTable] at htable₁
  have hchecked : ∀ p ∈ records T,
      Checked (lib.checkPinCapability (lib.readPinConfiguration pokey)) p
        (validated lib (lib.readPinConfiguration pokey) p) := fun p hp =>
    checked_validated lib _ (hzero p hp)
  obtain ⟨acc, happly⟩ := applyPinConfigurationToDevice_eq htable₁ rfl (by
    intro p₁ hp₁
    obtain ⟨p, hp, rfl⟩ := List.mem_map.1 hp₁
    have hduty : (validated lib (lib.readPinConfiguration pokey) p).dutyCycle = p.dutyCycle := by
      rw [(hchecked p hp).same]
    apply dividesByZero_eq_false
    rw [hduty, validated_type]
    exact fun htype => (hpwm p hp htype).ne') junk
  refine ⟨_, m₁, _, _, _, hcheck, hfit, htable₁, ?_, happly, ?_⟩
  · rw [List.forall₂_map_right_iff, List.forall₂_same]
    exact hchecked
  · rw [appliedTable_image]
    exact pinImage_foldl hchecked hdistinct (lib.readPinConfiguration pokey).pins

end Table

/-- An output, an input, and a pin of no known type. -/
def threePorts : List DevicePort :=
  [⟨"Lamp", 3, PinType.digitalOutput, 1, 0, 0, 0, 0⟩,
    ⟨"Key", 4, PinType.digitalInput, 0, 0, 0, 0, 0⟩,
    ⟨"Dial", 7, PinType.uknown, 0, 0, 0, 0, 0⟩]

theorem exactImage_iff_three :
    ∃ d₁ m₁ pokey₂ m₂, (checkValidPinConfiguration .capable
        (deviceOf threePorts (.cleared 55))).run (memoryOf threePorts) = .ok (0, d₁) m₁ ∧
      (applyPinConfigurationToDevice (fun _ => .cleared) d₁).run m₁ =
        .ok { d₁ with pokey := some pokey₂ } m₂ ∧
      (pokey₂.pins 2).pinFunction = PinCap.digitalOutput ∧
      (pokey₂.pins 3).pinFunction = PinCap.digitalInput ∧
      (pokey₂.pins 6).pinFunction = PinCap.reserved ∧ (pokey₂.pins 0).pinFunction = 0 := by
  have hcases : AllCasesValid (PoKeysLib.capable.checkPinCapability
      (PoKeysLib.capable.readPinConfiguration (.cleared 55))) threePorts := by
    intro p hp hcase
    have hpasses : ∀ p ∈ threePorts, (incorrectType p.type).isSome = true →
        passesCheck .capable (PoKeysLib.capable.readPinConfiguration (.cleared 55)) p = true := by
      decide
    exact (passesCheck_iff ..).1 (hpasses p hp hcase)
  obtain ⟨d₁, m₁, ps₁, pokey₂, m₂, hcheck, -, -, -, happly, himage⟩ :=
    (exactImage_iff .capable (fun _ => .cleared) rfl
      (tableOf_deviceOf threePorts (.cleared 55)) (by decide) (by decide) (by decide) rfl
        rfl).2 hcases
  refine ⟨d₁, m₁, pokey₂, m₂, hcheck, happly, ?_, ?_, ?_, ?_⟩
  · exact himage.output ⟨"Lamp", 3, PinType.digitalOutput, 1, 0, 0, 0, 0⟩ (by decide)
      (.digitalOutput rfl (by decide)) rfl
  · exact himage.input ⟨"Key", 4, PinType.digitalInput, 0, 0, 0, 0, 0⟩ (by decide)
      (.digitalInput rfl (by decide)) rfl
  · exact himage.invalid ⟨"Dial", 7, PinType.uknown, 0, 0, 0, 0, 0⟩ (by decide)
      ((passesCheck_iff ..).not.1 (by decide))
  · exact himage.free 0 (by decide)

/-- Two lamps on pins that can do nothing. -/
def twoLamps : List DevicePort :=
  [⟨"Lamp", 3, PinType.digitalOutput, 1, 0, 0, 0, 0⟩,
    ⟨"Fan", 4, PinType.digitalOutput, 1, 0, 0, 0, 0⟩]

theorem not_exactImage_incapable : ¬ ∀ (lib : PoKeysLib) (junk : ℕ → PwmJunk) (m : Memory)
    (d : Device) (pokey : PoKeysDevice) (ps : List DevicePort), d.numberOfPins = ps.length →
    tableOf m d = ps.map some → (ps.map DevicePort.pin).Nodup →
    (∀ p ∈ ps, 1 ≤ p.pin ∧ p.pin ≤ pokey.iPinCount) → (∀ p ∈ ps, p.valid = pinInvalid) →
    (∀ p ∈ ps, p.type = PinType.pwmInput → 17 ≤ p.pin ∧ p.pin ≤ 22 ∧ 0 < p.dutyCycle) →
    d.hasPokey = 1 → d.pokey = some pokey → ExactImage lib junk m d pokey ps := by
  intro h
  have hexact := h ⟨fun _ _ _ => 0, fun _ _ => 0⟩ (fun _ => .cleared) (memoryOf twoLamps)
    (deviceOf twoLamps (.cleared 55)) (.cleared 55) twoLamps rfl
    (tableOf_deviceOf twoLamps (.cleared 55)) (by decide) (by decide) (by decide) (by decide)
    rfl rfl
  have hall := hexact.allCasesValid rfl (tableOf_deviceOf twoLamps (.cleared 55)) (by decide) rfl
    rfl
  have hvalid := hall _ List.mem_cons_self (by decide)
  exact absurd ((passesCheck_iff ⟨fun _ _ _ => 0, fun _ _ => 0⟩ (.cleared 55) _).2 hvalid)
    (by decide)

end SimPokey
