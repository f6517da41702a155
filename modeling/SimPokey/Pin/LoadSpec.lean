import SimPokey.Pin.Table

/-!
# The pin table, declared

Which records a `pins` list and a `pwm` list put into the table, said without the loaders: the
first entry of each pin, `pins` before `pwm` (`pinsPart`, `pwmPart`).  `loaders_build_table` shows
that `loadPinConfiguration` followed by `loadPWMConfiguration` builds exactly this table.
-/

namespace SimPokey

open FaultState FirstWins LibConfig

variable {Setting : Type} [LibConfig Setting]

/-! ### The declared table -/

/-- Pin and type of an entry of `pins` that has both keys. -/
def pinEntry (entry : Setting) : Option (ℤ × ℤ) :=
  (lookupInt entry "pin").bind fun pin => (lookupString entry "type").map fun type =>
    (pin,
      if "DIGITAL_INPUT" = type then PinType.digitalInput
      else if "DIGITAL_OUTPUT" = type then PinType.digitalOutput
      else PinType.uknown)

/-- Pin and type of an entry of `pwm` with a channel in `1..6`. -/
def pwmEntry (entry : Setting) : Option (ℤ × ℤ) :=
  (lookupInt entry "channel").bind fun c =>
    if 1 ≤ c ∧ c ≤ 6 then some (23 - c, PinType.pwmInput) else none

/-- The entries of `P` with both keys whose pin no earlier such entry has. -/
def pinsPart (P : List Setting) : List (ℤ × ℤ) :=
  firstWins Prod.fst [] (P.filterMap pinEntry)

/-- The entries of `W` with a channel whose pin is neither in `pinsPart P` nor that of an earlier
entry of `W`. -/
def pwmPart (P W : List Setting) : List (ℤ × ℤ) :=
  firstWins Prod.fst ((pinsPart P).map Prod.fst) (W.filterMap pwmEntry)

/-! ### It is what the loaders accept -/

theorem pwmPin_eq (c : ℤ) : pwmPin c = if 1 ≤ c ∧ c ≤ 6 then some (23 - c) else none := by
  unfold pwmPin
  split_ifs <;> first | omega | (simp only [Option.some.injEq]; omega) | rfl

theorem pinEntryPort_map (entry : Setting) :
    (pinEntryPort entry).map (fun p => (p.pin, p.type)) = pinEntry entry := by
  unfold pinEntryPort pinEntry
  cases lookupInt entry "pin" with
  | none => rfl
  | some pin => cases lookupString entry "type" <;> rfl

theorem pwmEntryPort_map (entry : Setting) :
    (pwmEntryPort entry).map (fun p => (p.pin, p.type)) = pwmEntry entry := by
  unfold pwmEntryPort pwmEntry
  cases lookupInt entry "channel" with
  | none => rfl
  | some c =>
    simp only [Option.bind_some, pwmPin_eq]
    split_ifs <;> rfl

theorem acceptedPins_map (P : List Setting) :
    (acceptedPins P).map (fun p => (p.pin, p.type)) = pinsPart P := by
  rw [acceptedPins, map_firstWins Prod.fst _ fun _ => rfl, List.map_filterMap]
  simp only [pinEntryPort_map]
  rfl

theorem acceptedPins_map_pin (P : List Setting) :
    (acceptedPins P).map DevicePort.pin = (pinsPart P).map Prod.fst := by
  rw [← acceptedPins_map, List.map_map]
  rfl

theorem acceptedTable_map (P W : List Setting) :
    (acceptedTable P W).map (fun p => (p.pin, p.type)) = pinsPart P ++ pwmPart P W := by
  rw [acceptedTable, List.map_append, acceptedPins_map, acceptedPwm,
    map_firstWins Prod.fst _ fun _ => rfl, List.map_filterMap, acceptedPins_map_pin]
  simp only [pwmEntryPort_map]
  rfl

/-! ### The records of the table -/

/-- What a record accepted from `pins` looks like. -/
theorem of_mem_acceptedPins {P : List Setting} {p : DevicePort} (h : p ∈ acceptedPins P) :
    (p.type = PinType.digitalInput ∨ p.type = PinType.digitalOutput ∨ p.type = PinType.uknown) ∧
      p.valid = pinInvalid ∧ p.value = 0 ∧ p.previousValue = 0 := by
  obtain ⟨entry, -, hport⟩ := List.mem_filterMap.1 (mem_of_mem_firstWins h)
  simp only [pinEntryPort, Option.bind_eq_some_iff, Option.map_eq_some_iff] at hport
  obtain ⟨pin, -, tempType, -, rfl⟩ := hport
  refine ⟨?_, rfl, rfl, rfl⟩
  show pinTypeOf tempType = _ ∨ pinTypeOf tempType = _ ∨ pinTypeOf tempType = _
  unfold pinTypeOf
  split_ifs
  · exact Or.inl rfl
  · exact Or.inr (Or.inl rfl)
  · exact Or.inr (Or.inr rfl)

/-- What a record accepted from `pwm` looks like. -/
theorem of_mem_acceptedPwm {taken : List ℤ} {W : List Setting} {p : DevicePort}
    (h : p ∈ acceptedPwm taken W) :
    p.pin ∉ taken ∧ p.type = PinType.pwmInput ∧ 17 ≤ p.pin ∧ p.pin ≤ 22 ∧
      p.valid = pinInvalid ∧ p.value = 0 ∧ p.previousValue = 0 := by
  have hfree : p.pin ∉ taken := (mem_map_firstWins.1 (List.mem_map_of_mem h)).2
  obtain ⟨entry, -, hport⟩ := List.mem_filterMap.1 (mem_of_mem_firstWins h)
  simp only [pwmEntryPort, Option.bind_eq_some_iff, Option.map_eq_some_iff, pwmPin_eq] at hport
  obtain ⟨c, -, pin, hpin, rfl⟩ := hport
  split_ifs at hpin with hc
  simp only [Option.some.injEq] at hpin
  have hpin' : (pwmPort entry pin).pin = 23 - c := hpin.symm
  exact ⟨hfree, rfl, by omega, by omega, rfl, rfl, rfl⟩

/-- No two records of the table have the same pin. -/
theorem nodup_acceptedTable_pin (P W : List Setting) :
    ((acceptedTable P W).map DevicePort.pin).Nodup := by
  rw [acceptedTable, List.map_append, List.nodup_append]
  refine ⟨nodup_map_firstWins _ _, nodup_map_firstWins _ _, ?_⟩
  rintro p hp q hq rfl
  exact (mem_map_firstWins.1 hq).2 hp

/-- Every record starts out not valid, with both levels zero. -/
theorem of_mem_acceptedTable {P W : List Setting} {p : DevicePort} (h : p ∈ acceptedTable P W) :
    p.valid = pinInvalid ∧ p.value = 0 ∧ p.previousValue = 0 := by
  rcases List.mem_append.1 h with h | h
  · exact (of_mem_acceptedPins h).2
  · obtain ⟨-, -, -, -, hrest⟩ := of_mem_acceptedPwm h
    exact hrest

/-- A `PWM_INPUT` record came from `pwm`. -/
theorem of_mem_acceptedTable_pwm {P W : List Setting} {p : DevicePort}
    (h : p ∈ acceptedTable P W) (htype : p.type = PinType.pwmInput) :
    p.pin ∉ (pinsPart P).map Prod.fst ∧ 17 ≤ p.pin ∧ p.pin ≤ 22 := by
  rcases List.mem_append.1 h with h | h
  · have htypes := (of_mem_acceptedPins h).1
    rw [htype] at htypes
    exact absurd htypes (by decide)
  · obtain ⟨hfree, -, hlo, hhi, -⟩ := of_mem_acceptedPwm h
    rw [acceptedPins_map_pin] at hfree
    exact ⟨hfree, hlo, hhi⟩

/-! ### Both loaders -/

/-- From an empty table both loaders return, and together they build `acceptedTable`. -/
theorem loaders_extends {m : Memory} {d : Device} (h : Holds m d []) (pins pwm : Option Setting) :
    ∃ r₁ d₁ m₁ r₂ d₂ m₂ T, (loadPinConfiguration pins d).run m = .ok (r₁, d₁) m₁ ∧
      (loadPWMConfiguration pwm d₁).run m₁ = .ok (r₂, d₂) m₂ ∧ Extends m d [] m₂ d₂ T ∧
      records T = acceptedTable (elemsOf pins) (elemsOf pwm) := by
  obtain ⟨r₁, d₁, m₁, T₁, hrun₁, hext₁, hrec₁⟩ := loadPinConfiguration_extends h pins
  obtain ⟨r₂, d₂, m₂, T₂, hrun₂, hext₂, hrec₂⟩ := loadPWMConfiguration_extends hext₁.holds pwm
  exact ⟨r₁, d₁, m₁, r₂, d₂, m₂, T₂, hrun₁, hrun₂, hext₁.trans hext₂,
    by rw [hrec₂, hrec₁, acceptedTable]⟩

/-- A table that fits is built without leaving the array. -/
theorem Extends.inBounds {m m' : Memory} {d d' : Device} {T T' : List (ℕ × DevicePort)}
    (h : Extends m d T m' d' T') (hfit : T'.length ≤ maxPins) {a : Access}
    (ha : a ∈ m'.accesses) : a ∈ m.accesses ∨ a.InBounds := by
  obtain ⟨new, hnew, hin, -⟩ := h.accesses
  rw [hnew] at ha
  rcases List.mem_append.1 ha with ha | ha
  · exact Or.inl ha
  · obtain ⟨i, hi, rfl⟩ := hin a ha
    exact Or.inr ⟨by omega, by omega⟩

/-- **The table after both loaders is the declared one.**  The pins are distinct, `pins` wins over
`pwm`, PWM pins are in `17..22`, no record is valid yet, and no slot outside `pins[]` was used. -/
theorem loaders_build_table (pins pwm : Option Setting) (d : Device) (m : Memory)
    (hempty : d.numberOfPins = 0)
    (hfit : (pinsPart (elemsOf pins) ++ pwmPart (elemsOf pins) (elemsOf pwm)).length ≤ maxPins) :
    ∃ r₁ d₁ m₁ r₂ d₂ m₂, ∃ table : List DevicePort,
      (loadPinConfiguration pins d).run m = .ok (r₁, d₁) m₁ ∧
      (loadPWMConfiguration pwm d₁).run m₁ = .ok (r₂, d₂) m₂ ∧
      tableOf m₂ d₂ = table.map some ∧
      table.map (fun p => (p.pin, p.type)) =
        pinsPart (elemsOf pins) ++ pwmPart (elemsOf pins) (elemsOf pwm) ∧
      (table.map DevicePort.pin).Nodup ∧
      (∀ p ∈ table, p.type = PinType.pwmInput →
        p.pin ∉ (pinsPart (elemsOf pins)).map Prod.fst ∧ 17 ≤ p.pin ∧ p.pin ≤ 22) ∧
      (∀ p ∈ table, p.valid = pinInvalid ∧ p.value = 0 ∧ p.previousValue = 0) ∧
      ∀ a ∈ m₂.accesses, a ∈ m.accesses ∨ a.InBounds := by
  obtain ⟨r₁, d₁, m₁, r₂, d₂, m₂, T, hrun₁, hrun₂, hext, hrec⟩ :=
    loaders_extends (holds_nil (m := m) hempty) pins pwm
  have hlen : T.length ≤ maxPins := by
    rw [← acceptedTable_map, List.length_map, ← hrec, List.length_map] at hfit
    exact hfit
  refine ⟨r₁, d₁, m₁, r₂, d₂, m₂, acceptedTable (elemsOf pins) (elemsOf pwm), hrun₁, hrun₂,
    by rw [hext.holds.tableOf_eq, hrec], acceptedTable_map _ _, nodup_acceptedTable_pin _ _,
    fun p hp => of_mem_acceptedTable_pwm hp, fun p hp => of_mem_acceptedTable hp,
    fun a ha => hext.inBounds hlen ha⟩

/-- A pin listed twice, an unknown type, and a PWM channel on a pin already taken. -/
theorem loaders_build_table_conflicts :
    ∃ r₁ d₁ m₁ r₂ d₂ m₂, ∃ table : List DevicePort,
      (loadPinConfiguration (some (Tree.list [Tree.port 3 "DIGITAL_OUTPUT",
        Tree.port 3 "DIGITAL_INPUT", Tree.port 19 "ANALOG_INPUT"])) .cleared).run .empty =
          .ok (r₁, d₁) m₁ ∧
      (loadPWMConfiguration (some (Tree.list [Tree.pwm 4 40, Tree.pwm 5 40, Tree.pwm 7 40]))
        d₁).run m₁ = .ok (r₂, d₂) m₂ ∧
      tableOf m₂ d₂ = table.map some ∧
      table.map (fun p => (p.pin, p.type)) = [(3, 2), (19, 0), (18, 8)] := by
  obtain ⟨r₁, d₁, m₁, r₂, d₂, m₂, table, h₁, h₂, htable, hmap, -⟩ :=
    loaders_build_table (some (Tree.list [Tree.port 3 "DIGITAL_OUTPUT",
      Tree.port 3 "DIGITAL_INPUT", Tree.port 19 "ANALOG_INPUT"]))
      (some (Tree.list [Tree.pwm 4 40, Tree.pwm 5 40, Tree.pwm 7 40])) .cleared .empty rfl
      (by decide)
  exact ⟨r₁, d₁, m₁, r₂, d₂, m₂, table, h₁, h₂, htable, hmap.trans (by decide)⟩

end SimPokey
