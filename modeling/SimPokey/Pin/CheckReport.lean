import SimPokey.Pin.Validate

/-!
# The texts of the check

For every record `checkValidPinConfiguration` makes a text that names it, appends to it what is
wrong, and logs it if the record is not valid.  `asprintf` allocates a block for exactly the text it
prints, so `strcat` writes past the end of it: the texts stay in their blocks exactly when no record
of a type that has a case fails (`reports_fit_iff`).
-/

namespace SimPokey

open FaultState

/-- If the use is a write to a text, the text fits its block. -/
def FitsText (a : Access) : Prop := ∀ size length, a = .text size length → length < size

theorem fitsText_text_iff (size length : ℕ) : FitsText (.text size length) ↔ length < size :=
  ⟨fun h => h size length rfl, fun h size' length' heq => by cases heq; exact h⟩

theorem fitsText_pins (i : ℤ) : FitsText (.pins i) := fun _ _ h => by cases h

instance : DecidablePred FitsText := fun a =>
  match a with
  | .text size length => decidable_of_iff _ (fitsText_text_iff size length).symm
  | .devices _ | .pins _ | .pokeyPins _ _ | .block _ _ | .simConfig =>
    isTrue fun _ _ h => by cases h

/-- No text was written past the end of its block between the two memories. -/
def TextsFit (m m' : Memory) : Prop := UsesOnly FitsText m m'

instance : IsPreorder Memory TextsFit := inferInstanceAs (IsPreorder Memory (UsesOnly FitsText))

theorem usesOnly_iff {P : Access → Prop} {m m' : Memory} {new : List Access}
    (h : m'.accesses = m.accesses ++ new) : UsesOnly P m m' ↔ ∀ a ∈ new, P a := by
  constructor
  · rintro ⟨new', hnew', hall⟩
    obtain rfl : new = new' := List.append_cancel_left (h.symm.trans hnew')
    exact hall
  · exact fun hall => ⟨new, h, hall⟩

/-! ### One record -/

/-- A reason is never empty. -/
theorem length_incorrectType_pos {type : ℤ} {s : String} (h : incorrectType type = some s) :
    0 < s.length := by
  unfold incorrectType at h
  split_ifs at h <;> cases h <;> decide

/-- A type without a case never passes. -/
theorem passesCheck_of_no_case (lib : PoKeysLib) (pokey : PoKeysDevice) {port : DevicePort}
    (h : incorrectType port.type = none) : passesCheck lib pokey port = false := by
  unfold incorrectType at h
  split_ifs at h with hin hout henc hfast hufast hana hpwm hcount htrigger
  simp [passesCheck, hin, hout, henc, hfast, hufast, hana, hpwm, hcount]

theorem textUses_fit_iff (lib : PoKeysLib) (pokey : PoKeysDevice) (port : DevicePort) :
    (∀ a ∈ textUses lib pokey port, FitsText a) ↔
      ((incorrectType port.type).isSome → passesCheck lib pokey port = true) := by
  have hprinted : FitsText (.text ((reportText port).length + 1) (reportText port).length) :=
    (fitsText_text_iff ..).2 (Nat.lt_succ_self _)
  rw [textUses, List.forall_mem_cons, and_iff_right hprinted]
  by_cases hp : passesCheck lib pokey port = true
  · simp [hp]
  · rw [if_neg hp]
    cases hreason : incorrectType port.type with
    | none => simp
    | some s =>
      have hpos := length_incorrectType_pos hreason
      refine iff_of_false (fun hall => ?_) fun hpass => hp (hpass rfl)
      have hfits := (fitsText_text_iff ..).1 (hall _ (List.mem_singleton_self _))
      omega

/-- The writes to the text of a record are in bounds exactly when it fits. -/
theorem textUses_inBounds_iff (lib : PoKeysLib) (pokey : PoKeysDevice) (port : DevicePort) :
    (∀ a ∈ textUses lib pokey port, a.InBounds) ↔
      ((incorrectType port.type).isSome → passesCheck lib pokey port = true) := by
  have htext : ∀ a ∈ textUses lib pokey port, ∃ size length, a = .text size length := by
    intro a ha
    rcases List.mem_cons.1 ha with rfl | ha
    · exact ⟨_, _, rfl⟩
    · split_ifs at ha
      · cases ha
      · rw [Option.mem_toList, Option.map_eq_some_iff] at ha
        obtain ⟨s, -, rfl⟩ := ha
        exact ⟨_, _, rfl⟩
  rw [← textUses_fit_iff]
  refine forall₂_congr fun a ha => ?_
  obtain ⟨size, length, rfl⟩ := htext a ha
  exact (fitsText_text_iff size length).symm

/-! ### The table -/

theorem checkUses_fit_iff (lib : PoKeysLib) (pokey : PoKeysDevice) (ps : List DevicePort) :
    (∀ a ∈ checkUses lib pokey ps, FitsText a) ↔
      ∀ p ∈ ps, (incorrectType p.type).isSome → passesCheck lib pokey p = true := by
  simp only [mem_checkUses, ← textUses_fit_iff]
  constructor
  · exact fun hall p hp a ha => hall a (Or.inr ⟨p, hp, ha⟩)
  · rintro hall a (⟨k, -, rfl⟩ | ⟨p, hp, ha⟩)
    · exact fitsText_pins k
    · exact hall p hp a ha

/-- The texts of a check fit exactly when every record of a type that has a case passes. -/
theorem Checks.fit_iff {lib : PoKeysLib} {pokey : PoKeysDevice} {T : List (ℕ × DevicePort)}
    {ps : List DevicePort} {m m' : Memory} (h : Checks lib pokey T ps m m') :
    TextsFit m m' ↔
      ∀ p ∈ ps, (incorrectType p.type).isSome → passesCheck lib pokey p = true :=
  (usesOnly_iff h.accesses).trans (checkUses_fit_iff lib pokey ps)

/-- When they do, only records of other types are reported. -/
theorem filterMap_reportLine {lib : PoKeysLib} {pokey : PoKeysDevice} {ps : List DevicePort}
    (h : ∀ p ∈ ps, (incorrectType p.type).isSome → passesCheck lib pokey p = true) :
    ps.filterMap (reportLine lib pokey) =
      (ps.filter fun p => incorrectType p.type = none ∧ p.valid = pinInvalid).map reportText := by
  induction ps with
  | nil => rfl
  | cons p ps ih =>
    have hrest := ih fun q hq => h q (List.mem_cons_of_mem p hq)
    by_cases hcase : incorrectType p.type = none
    · have hsame : validated lib pokey p = p := by
        simp [validated, passesCheck_of_no_case lib pokey hcase]
      by_cases hvalid : p.valid = pinInvalid
      · rw [List.filter_cons_of_pos (by simp [hcase, hvalid]), List.map_cons, ← hrest,
          List.filterMap_cons_some]
        rw [reportLine, hsame, if_pos hvalid, hcase, Option.getD_none, String.append_empty]
      · rw [List.filter_cons_of_neg (by simp [hvalid]), ← hrest, List.filterMap_cons_none]
        rw [reportLine, hsame, if_neg hvalid]
    · have hpass := h p List.mem_cons_self (Option.isSome_iff_ne_none.2 hcase)
      rw [List.filter_cons_of_neg (by simp [hcase]), ← hrest, List.filterMap_cons_none]
      simp [reportLine, validated, hpass, pinInvalid]

/-- **The check writes past a text exactly when a record of a type that has a case fails.**  If
none does, the check returns, marks the records that pass, and logs, in the order of the slots, the
texts of the records whose type has no case. -/
theorem reports_fit_iff (lib : PoKeysLib) {pokey : PoKeysDevice} {m : Memory} {d : Device}
    {T : List (ℕ × DevicePort)} (h : Holds m d T) (hhas : d.hasPokey ≠ 0)
    (hpokey : d.pokey = some pokey) :
    ∃ d' m', (checkValidPinConfiguration lib d).run m = .ok (0, d') m' ∧
      (TextsFit m m' ↔ ∀ t ∈ T, (incorrectType t.2.type).isSome →
        passesCheck lib (lib.readPinConfiguration pokey) t.2 = true) ∧
      (TextsFit m m' → d' = { d with pokey := some (lib.readPinConfiguration pokey) } ∧
        Holds m' d' (validatedTable lib (lib.readPinConfiguration pokey) T) ∧
        m'.reports = m.reports ++ ((records T).filter fun p =>
          incorrectType p.type = none ∧ p.valid = pinInvalid).map fun p =>
            "- Error: " ++ p.name ++ " (" ++ getPinTypeString p.type ++ ") on pin " ++
              toString p.pin) := by
  obtain ⟨m', hrun, hholds, hchecks⟩ := checkValidPinConfiguration_holds lib h hhas hpokey
  refine ⟨_, m', hrun, ?_, fun hfit => ⟨rfl, hholds, ?_⟩⟩
  · rw [hchecks.fit_iff, records, List.forall_mem_map]
  · rw [hchecks.reports, filterMap_reportLine (hchecks.fit_iff.1 hfit)]
    rfl

/-- A lamp on a pin that can do nothing. -/
theorem reports_fit_iff_incapable : ∃ d' m',
    (checkValidPinConfiguration ⟨fun _ _ _ => 0, fun _ _ => 0⟩ (deviceOf
      [⟨"Lamp", 3, PinType.digitalOutput, 1, 0, 0, 0, 0⟩] (.cleared 55))).run
        (memoryOf [⟨"Lamp", 3, PinType.digitalOutput, 1, 0, 0, 0, 0⟩]) = .ok (0, d') m' ∧
      ¬ TextsFit (memoryOf [⟨"Lamp", 3, PinType.digitalOutput, 1, 0, 0, 0, 0⟩]) m' := by
  obtain ⟨d', m', hrun, hfit, -⟩ := reports_fit_iff
    ⟨fun _ _ _ => 0, fun _ _ => 0⟩ (holds_deviceOf
      [⟨"Lamp", 3, PinType.digitalOutput, 1, 0, 0, 0, 0⟩] (.cleared 55)) (by decide) rfl
  refine ⟨d', m', hrun, fun hall => ?_⟩
  exact absurd (hfit.1 hall _ List.mem_cons_self (by decide)) (by decide)

end SimPokey
