import SimPokey.Pin.LoadSpec

/-!
# The local variables of the loaders

A lookup that fails leaves the variable it was given as it was, and one `ret` serves several
lookups.  The loaders are written out here with their variables (`loadPinConfigurationWith`,
`loadPWMConfigurationWith`): those of `loadPinConfiguration` are new in every turn and start with
what the stack holds, those of `loadPWMConfiguration` live through the loop.  Both do what
`loadPinConfiguration` and `loadPWMConfiguration` do, whatever the variables hold.
-/

namespace SimPokey

open FaultState FirstWins LibConfig

/-! ### Variables -/

/-- A lookup into a variable: the result and what the variable holds afterwards. -/
def lookupInto {α : Type} (found : Option α) (var : α) : ℤ × α :=
  match found with
  | some v => (configTrue, v)
  | none => (configFalse, var)

@[simp] theorem lookupInto_none {α : Type} (var : α) :
    lookupInto none var = (configFalse, var) := rfl

@[simp] theorem lookupInto_some {α : Type} (v var : α) :
    lookupInto (some v) var = (configTrue, v) := rfl

@[simp] theorem configTrue_ne : configTrue ≠ configFalse := by decide

/-- The variables of a turn of `loadPinConfiguration` that are declared without a value. -/
structure PinLocals where
  pin : ℤ
  name : String
  tempType : String

/-- The variables of `loadPWMConfiguration`. -/
structure PwmLocals where
  pin : ℤ
  channel : ℤ
  dutyCycle : ℤ
  name : String

section Loaders

variable {Setting : Type} [LibConfig Setting]

/-- One turn of the loop of `loadPinConfiguration`. -/
def loadPinEntryWith (locals : PinLocals) (st : Device × ℤ) (entry : Setting) :
    MemRun (Device × ℤ) := do
  let (ret, pin) := lookupInto (lookupInt entry "pin") locals.pin
  if ret = configFalse then pure st
  else if (← checkPinExistsInConfig st.1 pin) = pinExists then pure st
  else
    let (ret, tempType) := lookupInto (lookupString entry "type") locals.tempType
    if ret = configFalse then pure st
    else
      let (ret, name) := lookupInto (lookupString entry "name") locals.name
      let name := if ret = configFalse then "Undefined" else name
      -- the result of this lookup is dropped, and `ret` is tested again
      let (_, defaultValue) := lookupInto (lookupInt entry "default") 0
      let defaultValue := if ret = configFalse then 0 else defaultValue
      let device ← storePort st.1 st.2
        { name := name
          pin := pin
          type := pinTypeOf tempType
          defaultValue := defaultValue
          valid := 0
          value := 0
          previousValue := 0
          dutyCycle := 0 }
      pure ({ device with numberOfPins := device.numberOfPins + 1 }, st.2 + 1)

/-- `loadPinConfiguration`, with the variables each turn starts with. -/
def loadPinConfigurationWith (locals : ℕ → PinLocals) (configuredPorts : Option Setting)
    (device : Device) : MemRun (ℤ × Device) :=
  match configuredPorts with
  | none => pure (noPins, device)
  | some ports =>
      if (elems ports).length = 0 then pure (noPins, device)
      else do
        let st ← (elems ports).zipIdx.foldlM
          (fun st e => loadPinEntryWith (locals e.2) st e.1) (device, 0)
        pure (0, st.1)

/-- One turn of the loop of `loadPWMConfiguration`. -/
def loadPWMEntryWith (st : Device × PwmLocals) (entry : Setting) : MemRun (Device × PwmLocals) := do
  let (ret, channel) := lookupInto (lookupInt entry "channel") st.2.channel
  let locals := { st.2 with channel := channel }
  if ret = configFalse then pure (st.1, locals)
  else
    match pwmPin channel with
    | none => pure (st.1, locals)
    | some pin => do
        let locals := { locals with pin := pin }
        if (← checkPinExistsInConfig st.1 pin) = pinExists then pure (st.1, locals)
        else
          let (ret, name) := lookupInto (lookupString entry "name") locals.name
          let name := if ret = configFalse then "Undefined" else name
          let (ret, dutyCycle) := lookupInto (lookupInt entry "dutyCycle") locals.dutyCycle
          let dutyCycle := if ret = configFalse then 100 else dutyCycle
          let device ← storePort st.1 st.1.numberOfPins
            { name := name
              pin := pin
              type := PinType.pwmInput
              defaultValue := 0
              valid := 0
              value := 0
              previousValue := 0
              dutyCycle := dutyCycle }
          pure ({ device with numberOfPins := device.numberOfPins + 1 },
            { locals with name := name, dutyCycle := dutyCycle })

/-- `loadPWMConfiguration`, with what its variables hold before the loop. -/
def loadPWMConfigurationWith (locals : PwmLocals) (configuredPorts : Option Setting)
    (device : Device) : MemRun (ℤ × Device) :=
  match configuredPorts with
  | none => pure (noPins, device)
  | some ports =>
      if (elems ports).length = 0 then pure (noPins, device)
      else do
        let st ← (elems ports).foldlM loadPWMEntryWith (device, locals)
        pure (0, st.1)

/-! ### They are the loaders -/

theorem loadPinEntryWith_eq (locals : PinLocals) (st : Device × ℤ) (entry : Setting) :
    loadPinEntryWith locals st entry = loadPinEntry st entry := by
  unfold loadPinEntryWith loadPinEntry
  cases lookupInt entry "pin" with
  | none => rfl
  | some pin =>
    simp only [lookupInto_some]
    cases lookupString entry "type" with
    | none => rfl
    | some tempType =>
      simp only [lookupInto_some, pinPort]
      cases lookupString entry "name" with
      | none => rfl
      | some name => cases lookupInt entry "default" <;> rfl

theorem loadPinConfigurationWith_eq (locals : ℕ → PinLocals) (pins : Option Setting) (d : Device) :
    loadPinConfigurationWith locals pins d = loadPinConfiguration pins d := by
  unfold loadPinConfigurationWith loadPinConfiguration
  cases pins with
  | none => rfl
  | some ports =>
    simp only [loadPinEntryWith_eq]
    have hloop : (elems ports).zipIdx.foldlM (fun st e => loadPinEntry st e.1) (d, 0) =
        (elems ports).foldlM loadPinEntry (d, (0 : ℤ)) := by
      rw [← List.foldlM_map (f := Prod.fst), List.zipIdx_map_fst]
    rw [hloop]

/-- The variables that live through the loop never reach the device. -/
theorem loadPWMEntryWith_eq (st : Device × PwmLocals) (entry : Setting) :
    loadPWMEntry st.1 entry = Prod.fst <$> loadPWMEntryWith st entry := by
  unfold loadPWMEntryWith loadPWMEntry
  cases lookupInt entry "channel" with
  | none => rfl
  | some channel =>
    simp only [lookupInto_some, if_neg configTrue_ne]
    cases pwmPin channel with
    | none => rfl
    | some pin =>
      simp only [map_bind]
      congr 1
      funext found
      by_cases hfound : found = pinExists
      · simp only [if_pos hfound, map_pure]
      · simp only [if_neg hfound, pwmPort]
        cases lookupString entry "name" <;> cases lookupInt entry "dutyCycle" <;>
          simp [pinInvalid]

theorem loadPWMConfigurationWith_eq (locals : PwmLocals) (pwm : Option Setting) (d : Device) :
    loadPWMConfigurationWith locals pwm d = loadPWMConfiguration pwm d := by
  unfold loadPWMConfigurationWith loadPWMConfiguration
  cases pwm with
  | none => rfl
  | some ports =>
    have hloop := foldlM_image Prod.fst loadPWMEntryWith_eq (elems ports) (d, locals)
    simp only at hloop
    simp only [hloop, bind_map_left]

/-! ### The entries a loader accepts -/

/-- The entries of `P` with both keys whose pin no earlier such entry has, each with its pin. -/
def acceptedPinEntries (P : List Setting) : List (Setting × ℤ) :=
  firstWins Prod.snd [] (P.filterMap fun entry => (pinEntry entry).map fun e => (entry, e.1))

/-- The entries of `W` with a channel whose pin is neither in `taken` nor that of an earlier such
entry, each with its pin. -/
def acceptedPwmEntries (taken : List ℤ) (W : List Setting) : List (Setting × ℤ) :=
  firstWins Prod.snd taken (W.filterMap fun entry => (pwmEntry entry).map fun e => (entry, e.1))

/-- The record of an accepted entry of `pins`. -/
def portOfEntry (x : Setting × ℤ) : DevicePort :=
  pinPort x.1 x.2 ((lookupString x.1 "type").getD "")

theorem acceptedPins_eq_map (P : List Setting) :
    acceptedPins P = (acceptedPinEntries P).map portOfEntry := by
  have hmap : ∀ l : List (Setting × ℤ), (firstWins Prod.snd [] l).map portOfEntry =
      firstWins DevicePort.pin [] (l.map portOfEntry) :=
    map_firstWins DevicePort.pin portOfEntry (fun _ => rfl) []
  rw [acceptedPins, acceptedPinEntries, hmap, List.map_filterMap]
  congr 1
  apply List.filterMap_congr
  intro entry _
  unfold pinEntryPort pinEntry portOfEntry
  cases lookupInt entry "pin" with
  | none => rfl
  | some pin => cases htype : lookupString entry "type" <;> simp [htype]

theorem acceptedPwm_eq_map (taken : List ℤ) (W : List Setting) :
    acceptedPwm taken W = (acceptedPwmEntries taken W).map fun x => pwmPort x.1 x.2 := by
  have hmap : ∀ l : List (Setting × ℤ),
      (firstWins Prod.snd taken l).map (fun x => pwmPort x.1 x.2) =
        firstWins DevicePort.pin taken (l.map fun x => pwmPort x.1 x.2) :=
    map_firstWins DevicePort.pin _ (fun _ => rfl) taken
  rw [acceptedPwm, acceptedPwmEntries, hmap, List.map_filterMap]
  congr 1
  apply List.filterMap_congr
  intro entry _
  unfold pwmEntryPort pwmEntry
  cases lookupInt entry "channel" with
  | none => rfl
  | some c =>
    simp only [Option.bind_some, pwmPin_eq]
    split_ifs <;> rfl

/-! ### Records and their own entries -/

/-- The record has its entry's own values. -/
structure OwnPin (x : Setting × ℤ) (p : DevicePort) : Prop where
  pin : p.pin = x.2
  name : p.name = (lookupString x.1 "name").getD "Undefined"
  defaultValue : p.defaultValue = (lookupInt x.1 "default").getD 0

/-- The record has its entry's own values. -/
structure OwnPwm (x : Setting × ℤ) (p : DevicePort) : Prop where
  pin : p.pin = x.2
  name : p.name = (lookupString x.1 "name").getD "Undefined"
  dutyCycle : p.dutyCycle = (lookupInt x.1 "dutyCycle").getD 100

/-- The records `ports` of `P` and `pwmPorts` of `W` are those of the accepted entries, in order,
with the entries' own values. -/
structure OwnRecords (P W : List Setting) (ports pwmPorts : List DevicePort) : Prop where
  pins : List.Forall₂ OwnPin (acceptedPinEntries P) ports
  pwm : List.Forall₂ OwnPwm (acceptedPwmEntries ((acceptedPinEntries P).map Prod.snd) W) pwmPorts

/-- The entry has a name, or no default other than 0. -/
def KeepsDefault (entry : Setting) : Prop :=
  (lookupString entry "name").isSome ∨ (lookupInt entry "default").getD 0 = 0

theorem ownPin_portOfEntry_iff (x : Setting × ℤ) :
    OwnPin x (portOfEntry x) ↔ KeepsDefault x.1 := by
  have hdefault : (portOfEntry x).defaultValue =
      if (lookupString x.1 "name").isNone then 0 else (lookupInt x.1 "default").getD 0 := rfl
  unfold KeepsDefault
  constructor
  · intro h
    have hown := h.defaultValue
    rw [hdefault] at hown
    cases hname : lookupString x.1 "name" with
    | none =>
      rw [hname] at hown
      exact Or.inr hown.symm
    | some name => exact Or.inl rfl
  · intro h
    refine ⟨rfl, rfl, ?_⟩
    rw [hdefault]
    cases hname : lookupString x.1 "name" with
    | none =>
      rw [hname] at h
      rcases h with h | h
      · cases h
      · exact h.symm
    | some name => rfl

theorem forall₂_ownPin_iff (P : List Setting) :
    List.Forall₂ OwnPin (acceptedPinEntries P) (acceptedPins P) ↔
      ∀ x ∈ acceptedPinEntries P, KeepsDefault x.1 := by
  rw [acceptedPins_eq_map, List.forall₂_map_right_iff, List.forall₂_same]
  simp only [ownPin_portOfEntry_iff]

/-- Nothing is lost or carried over by `loadPWMConfiguration`. -/
theorem forall₂_ownPwm (taken : List ℤ) (W : List Setting) :
    List.Forall₂ OwnPwm (acceptedPwmEntries taken W) (acceptedPwm taken W) := by
  rw [acceptedPwm_eq_map, List.forall₂_map_right_iff, List.forall₂_same]
  exact fun x _ => ⟨rfl, rfl, rfl⟩

theorem acceptedPins_map_snd (P : List Setting) :
    (acceptedPins P).map DevicePort.pin = (acceptedPinEntries P).map Prod.snd := by
  rw [acceptedPins_eq_map, List.map_map]
  rfl

/-- **When the records are their own entries'**: whatever the variables hold, `pwm` records always
are, and `pins` records exactly when no accepted entry has a nonzero default and no name.

This is about every index the loaders write, also those from `MAX_PINS` on, where the array has no
cell: `Config/Capacity` says which devices get that far. -/
theorem ownRecords_iff (locals : ℕ → PinLocals) (pwmLocals : PwmLocals)
    (pins pwm : Option Setting) (d : Device) (m : Memory) (hempty : d.numberOfPins = 0) :
    ∃ r₁ d₁ m₁ r₂ d₂ m₂ ports pwmPorts,
      (loadPinConfigurationWith locals pins d).run m = .ok (r₁, d₁) m₁ ∧
      (loadPWMConfigurationWith pwmLocals pwm d₁).run m₁ = .ok (r₂, d₂) m₂ ∧
      tableOf m₁ d₁ = ports.map some ∧ tableOf m₂ d₂ = (ports ++ pwmPorts).map some ∧
      (OwnRecords (elemsOf pins) (elemsOf pwm) ports pwmPorts ↔
        ∀ x ∈ acceptedPinEntries (elemsOf pins), KeepsDefault x.1) := by
  obtain ⟨r₁, d₁, m₁, T₁, hrun₁, hext₁, hrec₁⟩ :=
    loadPinConfiguration_extends (holds_nil (m := m) hempty) pins
  obtain ⟨r₂, d₂, m₂, T₂, hrun₂, hext₂, hrec₂⟩ := loadPWMConfiguration_extends hext₁.holds pwm
  rw [hrec₁] at hrec₂
  refine ⟨r₁, d₁, m₁, r₂, d₂, m₂, _, _, by rw [loadPinConfigurationWith_eq, hrun₁],
    by rw [loadPWMConfigurationWith_eq, hrun₂], by rw [hext₁.holds.tableOf_eq, hrec₁],
    by rw [hext₂.holds.tableOf_eq, hrec₂], ?_⟩
  constructor
  · intro hown
    exact (forall₂_ownPin_iff _).1 hown.pins
  · intro hkeeps
    refine ⟨(forall₂_ownPin_iff _).2 hkeeps, ?_⟩
    rw [← acceptedPins_map_snd]
    exact forall₂_ownPwm _ _

end Loaders

/-! ### Entries of a file -/

/-- An output that is on by default, without a name. -/
def unnamedOutput : Tree :=
  .group [("pin", .int 3), ("type", .string "DIGITAL_OUTPUT"), ("default", .int 1)]

/-- An output that is on by default, with a name. -/
def namedOutput : Tree :=
  .group [("pin", .int 3), ("type", .string "DIGITAL_OUTPUT"), ("name", .string "Lamp"),
    ("default", .int 1)]

/-- The nameless entry comes second and is skipped; a PWM entry after one with a name. -/
theorem ownRecords_named :
    ∃ r₁ d₁ m₁ r₂ d₂ m₂ ports pwmPorts,
      (loadPinConfigurationWith (fun _ => ⟨7, "stack", "stack"⟩)
        (some (Tree.list [namedOutput, unnamedOutput, .port 4 "DIGITAL_INPUT"]))
        .cleared).run .empty = .ok (r₁, d₁) m₁ ∧
      (loadPWMConfigurationWith ⟨7, 7, 7, "stack"⟩
        (some (Tree.list [.pwm 4 40, .group [("channel", .int 5)]])) d₁).run m₁ =
          .ok (r₂, d₂) m₂ ∧
      tableOf m₂ d₂ = (ports ++ pwmPorts).map some ∧
      OwnRecords [namedOutput, unnamedOutput, .port 4 "DIGITAL_INPUT"]
        [.pwm 4 40, .group [("channel", .int 5)]] ports pwmPorts := by
  obtain ⟨r₁, d₁, m₁, r₂, d₂, m₂, ports, pwmPorts, h₁, h₂, -, htable, hown⟩ :=
    ownRecords_iff (fun _ => ⟨7, "stack", "stack"⟩) ⟨7, 7, 7, "stack"⟩
      (some (Tree.list [namedOutput, unnamedOutput, .port 4 "DIGITAL_INPUT"]))
      (some (Tree.list [.pwm 4 40, .group [("channel", .int 5)]])) .cleared .empty rfl
  refine ⟨r₁, d₁, m₁, r₂, d₂, m₂, ports, pwmPorts, h₁, h₂, htable, hown.2 fun x hx => ?_⟩
  have haccepted : acceptedPinEntries [namedOutput, unnamedOutput, .port 4 "DIGITAL_INPUT"] =
      [(namedOutput, 3), (.port 4 "DIGITAL_INPUT", 4)] := rfl
  have hmem : x ∈ [(namedOutput, 3), (Tree.port 4 "DIGITAL_INPUT", 4)] := haccepted ▸ hx
  rcases List.mem_cons.1 hmem with rfl | hmem
  · exact Or.inl rfl
  · rw [List.mem_singleton.1 hmem]
    exact Or.inr rfl

/-- The output without a name loses its default. -/
theorem ownRecords_unnamed :
    ∃ r d m port, (loadPinConfigurationWith (fun _ => ⟨0, "", ""⟩)
        (some (Tree.list [unnamedOutput])) .cleared).run .empty = .ok (r, d) m ∧
      tableOf m d = [some port] ∧ port.pin = 3 ∧ port.defaultValue = 0 ∧
      lookupInt unnamedOutput "default" = some 1 ∧ ¬ OwnRecords [unnamedOutput] [] [port] [] := by
  obtain ⟨r, d, m, T, hrun, hext, hrec⟩ := loadPinConfiguration_extends
    (holds_nil (m := .empty) (d := .cleared) rfl) (some (Tree.list [unnamedOutput]))
  have haccepted : acceptedPins [unnamedOutput] = [portOfEntry (unnamedOutput, 3)] := rfl
  refine ⟨r, d, m, portOfEntry (unnamedOutput, 3), by rw [loadPinConfigurationWith_eq, hrun],
    ?_, rfl, rfl, rfl, fun hown => ?_⟩
  · rw [hext.holds.tableOf_eq, hrec]
    exact congrArg (List.map some) haccepted
  · have hpins := hown.pins
    rw [← haccepted, forall₂_ownPin_iff] at hpins
    rcases hpins (unnamedOutput, 3) List.mem_cons_self with h | h
    · exact absurd h (by decide)
    · exact absurd h (by decide)

end SimPokey
