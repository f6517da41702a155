import SimPokey.Config.Registry
import SimPokey.Main

/-!
# The turns of the startup loop

* `getDeviceBySerialNumber_cases`: the search ends at the first slot that is empty or has the
  serial number asked for;
* `beforeLoop_registered`: the registry as the loop finds it (`Registered`);
* `startupStep_cases`: what a turn that returned has done (`Turn`);
* `startupLoop_invariant`: what every turn keeps holds in every state the loop reaches.
-/

namespace SimPokey

open FaultState LibConfig

/-! ### The search -/

/-- The slot holds a record with the serial number. -/
def HasSerial (w : World) (j : ℕ) (s : String) : Prop :=
  ∃ d, w.devices j = some d ∧ d.serialNumber = s

/-- The slot holds a record with another serial number. -/
def HasOther (w : World) (j : ℕ) (s : String) : Prop :=
  ∃ d, w.devices j = some d ∧ d.serialNumber ≠ s

theorem HasOther.not_hasSerial {w : World} {j : ℕ} {s : String} (h : HasOther w j s) :
    ¬ HasSerial w j s := by
  obtain ⟨d, hd, hne⟩ := h
  rintro ⟨d', hd', heq⟩
  obtain rfl : d = d' := Option.some.inj (hd.symm.trans hd')
  exact hne heq

/-- Where the search stops: at an empty slot, or at one with the serial number. -/
def stopsAt (w : World) (s : String) (i : ℕ) : Bool :=
  (w.devices i).elim true fun d => s == d.serialNumber

theorem hasOther_of_not_stopsAt {w : World} {s : String} {i : ℕ} (h : stopsAt w s i = false) :
    HasOther w i s := by
  unfold stopsAt at h
  cases hd : w.devices i with
  | none => simp [hd] at h
  | some d =>
    rw [hd] at h
    simp only [Option.elim_some, beq_eq_false_iff_ne] at h
    exact ⟨d, hd, h.symm⟩

/-- The search is decided by the first slot it stops at. -/
theorem getDeviceFrom_run (addr : ℕ) (s : String) (is : List ℕ) (w : World) :
    (getDeviceFrom addr s is).run w =
      match is.find? (stopsAt w s) with
      | none => .ok none w
      | some i =>
          match w.devices i with
          | none => .error .nullDevice w
          | some d => .ok (some { d with addr := addr }) w := by
  induction is with
  | nil => rfl
  | cons i is ih =>
    rw [getDeviceFrom, List.find?_cons]
    cases hd : w.devices i with
    | none =>
      have hread : (deviceAt i).run w = .error .nullDevice w := by
        simp only [deviceAt, EStateM.run, hd]
      have hstop : stopsAt w s i = true := by simp [stopsAt, hd]
      rw [bind_of_error hread, hstop]
      simp only [hd]
    | some d =>
      have hread : (deviceAt i).run w = .ok d w := by simp only [deviceAt, EStateM.run, hd]
      rw [bind_of_ok hread, run_ite]
      by_cases hs : s = d.serialNumber
      · have hstop : stopsAt w s i = true := by simp [stopsAt, hd, hs]
        rw [if_pos hs, hstop]
        simp only [hd, run_pure]
      · have hpass : stopsAt w s i = false := by simp [stopsAt, hd, hs]
        rw [if_neg hs, hpass]
        exact ih

/-- The three ends of the search. -/
theorem getDeviceBySerialNumber_cases (addr : ℕ) (s : String) (w : World) :
    (∃ i < w.numberOfDevices, ∃ d, w.devices i = some d ∧ d.serialNumber = s ∧
        (getDeviceBySerialNumber addr s).run w = .ok (some { d with addr := addr }) w) ∨
      ((∀ i < w.numberOfDevices, HasOther w i s) ∧
        (getDeviceBySerialNumber addr s).run w = .ok none w) ∨
      ∃ i < w.numberOfDevices, w.devices i = none ∧ (∀ j < i, HasOther w j s) ∧
        (getDeviceBySerialNumber addr s).run w = .error .nullDevice w := by
  have hrun : (getDeviceBySerialNumber addr s).run w =
      (getDeviceFrom addr s (List.range w.numberOfDevices)).run w := rfl
  rw [hrun, getDeviceFrom_run]
  cases hfind : (List.range w.numberOfDevices).find? (stopsAt w s) with
  | none =>
    rw [List.find?_range_eq_none] at hfind
    refine Or.inr (Or.inl ⟨fun i hi => hasOther_of_not_stopsAt ?_, rfl⟩)
    simpa using hfind i hi
  | some i =>
    rw [List.find?_range_eq_some] at hfind
    obtain ⟨hstop, hi, hbefore⟩ := hfind
    rw [List.mem_range] at hi
    cases hd : w.devices i with
    | none =>
      refine Or.inr (Or.inr ⟨i, hi, hd, fun j hj => hasOther_of_not_stopsAt ?_, by simp only [hd]⟩)
      simpa using hbefore j hj
    | some d =>
      simp only [stopsAt, hd, Option.elim_some, beq_iff_eq] at hstop
      exact Or.inl ⟨i, hi, d, hd, hstop.symm, by simp only [hd]⟩

/-! ### Before the loop -/

variable {Setting : Type} [LibConfig Setting]

/-- The registry of the groups `gs` as the loop finds it, with `m` devices on the network. -/
structure Registered (junk : ℕ → DeviceJunk) (gs : List Setting) (m : ℕ) (w : World) : Prop where
  numberOfDevices : w.numberOfDevices = m
  activeDevices : w.activeDevices = gs.length
  threads : w.threads = []
  shutdown : w.shutdown = []
  slot : ∀ k g, gs[k]? = some g → ∃ d, w.devices k = some d ∧
    Grown (groupEntries g) (newDevice (junk k) k g) d
  empty : ∀ j, gs.length ≤ j → w.devices j = none

theorem loadSimulatorDetails_frame {configuration : ConfigState Setting} {simJunk : SimulatorJunk}
    {w w' : World} {r : ℤ} (h : (loadSimulatorDetails configuration simJunk).run w = .ok r w') :
    ∃ simConfig, w' = { w with simConfig := simConfig } := by
  have hfail : (pure exitFailure : WorldRun ℤ).run w = .ok r w' →
      ∃ simConfig, w' = { w with simConfig := simConfig } := by
    intro hfail
    cases hfail
    exact ⟨w.simConfig, rfl⟩
  unfold loadSimulatorDetails at h
  obtain ⟨found, w₁, h₁, h⟩ := bind_ok_iff.1 h
  cases configuration with
  | destroyed => cases h₁
  | loaded root =>
    cases h₁
    split at h
    · exact hfail h
    · split at h
      · exact hfail h
      · split at h
        · exact hfail h
        · split at h
          · exact hfail h
          · rw [run_ite] at h
            split_ifs at h with hport
            · exact hfail h
            · cases h
              exact ⟨_, rfl⟩

theorem afterSimulatorDetails_ok {env : Env} {ret : ℤ} {w w' : World}
    (h : (afterSimulatorDetails env ret).run w = .ok () w') :
    w' = { w.touch .simConfig with numberOfDevices := env.network.length } := by
  unfold afterSimulatorDetails EStateM.run at h
  dsimp only at h
  split at h
  · cases h
  · cases h
    rfl

theorem beforeLoop_registered {root : Setting} {junk : ℕ → DeviceJunk} {simJunk : SimulatorJunk}
    {env : Env} {w : World}
    (h : (beforeLoop (some root) junk simJunk env).run World.init = .ok () w) :
    Registered junk (devicesOf root) env.network.length w := by
  unfold beforeLoop at h
  obtain ⟨r, w₁, hload, h⟩ := bind_ok_iff.1 h
  obtain ⟨ret, w₂, hsim, hafter⟩ := bind_ok_iff.1 h
  obtain ⟨root, devices, w₀, hroot, hfound, -, hloads, rfl⟩ := loadConfiguredDevices_ok hload
  obtain ⟨simConfig, rfl⟩ := loadSimulatorDetails_frame hsim
  obtain rfl := afterSimulatorDetails_ok hafter
  cases hroot
  rw [devicesOf_eq hfound]
  refine ⟨rfl, rfl, ?_, ?_, fun k g hk => ?_, fun j hj => ?_⟩
  · show w₀.threads = []
    rw [hloads.world]
    rfl
  · show w₀.shutdown = []
    rw [hloads.world]
    rfl
  · obtain ⟨d, hslot, hgrown⟩ := hloads.slot k g hk
    rw [Nat.zero_add] at hslot hgrown
    refine ⟨d, hslot, ?_⟩
    have hbrk : World.init.brk + k = k := Nat.zero_add k
    rwa [hbrk] at hgrown
  · exact hloads.others j (by omega)

/-! ### One turn -/

theorem onMem_ok {α : Type} {x : MemRun α} {w w' : World} {a : α}
    (h : (onMem x).run w = .ok a w') : ∃ m, x.run w.mem = .ok a m ∧ w' = { w with mem := m } :=
  onPart_ok_iff.1 h

theorem syncDeviceName_ok {after : ℕ → Char} {ret : ℤ} {d : Device} {r : ℤ × Device} {m m' : Memory}
    (h : (syncDeviceName after ret d).run m = .ok r m') :
    ∃ pokey, r.2 = { d with pokey := some pokey } := by
  unfold syncDeviceName at h
  obtain ⟨pokey, m₁, hof, h⟩ := bind_ok_iff.1 h
  have hpokey : d.pokey = some pokey := by
    unfold pokeyOf EStateM.run at hof
    dsimp only at hof
    split at hof
    · cases hof
    · cases hof
      assumption
  dsimp only at h
  rw [run_ite] at h
  split_ifs at h with heq hret
  · cases h
    exact ⟨pokey, by rw [← hpokey]⟩
  · obtain ⟨_, m₂, -, h⟩ := bind_ok_iff.1 h
    cases h
    exact ⟨_, rfl⟩
  · obtain ⟨_, m₂, -, h⟩ := bind_ok_iff.1 h
    cases h
    exact ⟨_, rfl⟩

theorem checkValidPinConfiguration_ok {lib : PoKeysLib} {d : Device} {r : ℤ × Device}
    {m m' : Memory} (h : (checkValidPinConfiguration lib d).run m = .ok r m') :
    ∃ pokey, r.2 = { d with pokey := pokey } := by
  unfold checkValidPinConfiguration at h
  rw [run_ite] at h
  split_ifs at h with hhas
  · cases h
    exact ⟨d.pokey, rfl⟩
  · obtain ⟨pokey, m₁, -, h⟩ := bind_ok_iff.1 h
    obtain ⟨_, m₂, -, h⟩ := bind_ok_iff.1 h
    cases h
    exact ⟨_, rfl⟩

theorem applyConfiguration_ok {junk : ℕ → PwmJunk} {d : Device} {r : ℤ × Device} {m m' : Memory}
    (h : (applyConfiguration junk d).run m = .ok r m') :
    ∃ pokey, r.2 = { d with pokey := pokey } := by
  unfold applyConfiguration at h
  obtain ⟨d', m₁, happly, h⟩ := bind_ok_iff.1 h
  cases h
  unfold applyPinConfigurationToDevice at happly
  obtain ⟨pokey, m₂, -, happly⟩ := bind_ok_iff.1 happly
  obtain ⟨pokey', m₃, -, happly⟩ := bind_ok_iff.1 happly
  cases happly
  exact ⟨_, rfl⟩

theorem dumpDevices_ok {w w' : World} (h : dumpDevices.run w = .ok () w') :
    w' = { w with mem := w'.mem } := by
  refine foldlM_partial (fun _ (_ : Unit) w' => w' = { w with mem := w'.mem }) rfl ?_ h
  intro done i _ w₁ _ w₂ hI hstep
  obtain ⟨d, w₃, hread, hdump⟩ := bind_ok_iff.1 hstep
  obtain ⟨m, -, rfl⟩ := onMem_ok hdump
  have hw₃ : w₃ = w₁ := by
    unfold deviceAt EStateM.run at hread
    dsimp only at hread
    split at hread
    · cases hread
    · cases hread
      rfl
  rw [hw₃, hI]

/-- The threads started by a turn. -/
def startedBy (env : Env) (i : ℕ) : List ThreadArg :=
  if env.threadCreate i = 0 then [.localInt] else []

theorem bringUp_ok {env : Env} {i : ℕ} {d : Device} {pokey : PoKeysDevice} {w w' : World}
    (h : (bringUp env i d pokey).run w = .ok () w') :
    ∃ pokey' mem, w' = { w with
      mem := mem
      devices := Function.update w.devices i (some { d with pokey := pokey', hasPokey := 1 })
      threads := w.threads ++ startedBy env i } := by
  unfold bringUp at h
  obtain ⟨named, w₁, hnamed, h⟩ := bind_ok_iff.1 h
  obtain ⟨m₁, hsync, rfl⟩ := onMem_ok hnamed
  obtain ⟨checked, w₂, hchecked, h⟩ := bind_ok_iff.1 h
  obtain ⟨m₂, hcheck, rfl⟩ := onMem_ok hchecked
  obtain ⟨_, w₃, hstore, h⟩ := bind_ok_iff.1 h
  cases hstore
  obtain ⟨applied, w₄, happlied, h⟩ := bind_ok_iff.1 h
  obtain ⟨m₄, happly, rfl⟩ := onMem_ok happlied
  obtain ⟨_, w₅, hchange, h⟩ := bind_ok_iff.1 h
  cases hchange
  obtain ⟨_, w₆, hdump, hthread⟩ := bind_ok_iff.1 h
  have hw₆ := dumpDevices_ok hdump
  obtain ⟨p₁, hp₁⟩ := syncDeviceName_ok hsync
  obtain ⟨p₂, hp₂⟩ := checkValidPinConfiguration_ok hcheck
  obtain ⟨p₃, hp₃⟩ := applyConfiguration_ok happly
  have hrecord : applied.2 = { d with pokey := p₃, hasPokey := 1 } := by rw [hp₃, hp₂, hp₁]
  have hw' : w' = { w₆ with threads := w₆.threads ++ startedBy env i } := by
    unfold startThread EStateM.run at hthread
    unfold startedBy
    dsimp only at hthread
    split_ifs at hthread ⊢ <;> cases hthread
    · rfl
    · rw [List.append_nil]
  refine ⟨p₃, w₆.mem, ?_⟩
  rw [hw', hw₆, hrecord]
  simp [World.touch]

/-- What the turn `i` did when it asked for the serial number `s`. -/
inductive Turn (env : Env) (i : ℕ) (s : String) (w w' : World) : Prop
  /-- No record has the serial number. -/
  | missed (hmiss : ∀ j < w.numberOfDevices, HasOther w j s)
      (hw' : w' = { w with brk := w.brk + 1 })
  /-- The device refused the connection. -/
  | refused (hhit : ∃ j < w.numberOfDevices, HasSerial w j s) (hconnect : env.connect i = none)
      (hw' : w' = { w with brk := w.brk + 2 })
  /-- The device was connected, and its record stored in the slot `i`. -/
  | up (j : ℕ) (hj : j < w.numberOfDevices) (d : Device) (hslot : w.devices j = some d)
      (hs : d.serialNumber = s) (hconnect : (env.connect i).isSome)
      (pokey : Option PoKeysDevice) (mem : Memory)
      (hw' : w' = { w with
        mem := mem
        brk := w.brk + 2
        devices := Function.update w.devices i
          (some { d with addr := w.brk, pokey := pokey, hasPokey := 1 })
        threads := w.threads ++ startedBy env i })

/-- A turn leaves the other slots alone. -/
theorem Turn.devices_of_ne {env : Env} {i k : ℕ} {s : String} {w w' : World}
    (h : Turn env i s w w') (hk : k ≠ i) : w'.devices k = w.devices k := by
  cases h with
  | missed _ hw' => rw [hw']
  | refused _ _ hw' => rw [hw']
  | up _ _ _ _ _ _ _ _ hw' =>
    rw [hw']
    exact Function.update_of_ne hk ..

/-- In its own slot it leaves what was there, or a record with the serial number it asked for. -/
theorem Turn.devices_self {env : Env} {i : ℕ} {s : String} {w w' : World}
    (h : Turn env i s w w') : w'.devices i = w.devices i ∨
      ∃ j d pokey, w.devices j = some d ∧ d.serialNumber = s ∧
        w'.devices i = some { d with addr := w.brk, pokey := pokey, hasPokey := 1 } := by
  cases h with
  | missed _ hw' => exact .inl (by rw [hw'])
  | refused _ _ hw' => exact .inl (by rw [hw'])
  | up j _ d hslot hs _ pokey _ hw' =>
    refine .inr ⟨j, d, pokey, hslot, hs, ?_⟩
    rw [hw']
    exact Function.update_self ..

theorem startedBy_localInt {env : Env} {i : ℕ} {a : ThreadArg} (h : a ∈ startedBy env i) :
    a = .localInt := by
  unfold startedBy at h
  split_ifs at h
  · exact List.mem_singleton.1 h
  · cases h

/-- Every thread it starts gets the local variable. -/
theorem Turn.threads {env : Env} {i : ℕ} {s : String} {w w' : World} (h : Turn env i s w w')
    {a : ThreadArg} (ha : a ∈ w'.threads) : a ∈ w.threads ∨ a = .localInt := by
  cases h with
  | missed _ hw' =>
    rw [hw'] at ha
    exact .inl ha
  | refused _ _ hw' =>
    rw [hw'] at ha
    exact .inl ha
  | up _ _ _ _ _ _ _ _ hw' =>
    rw [hw'] at ha
    rcases List.mem_append.1 ha with ha | ha
    · exact .inl ha
    · exact .inr (startedBy_localInt ha)

/-- It keeps the counters, and sends no shutdown call. -/
theorem Turn.counters {env : Env} {i : ℕ} {s : String} {w w' : World} (h : Turn env i s w w') :
    w'.numberOfDevices = w.numberOfDevices ∧ w'.activeDevices = w.activeDevices ∧
      w'.shutdown = w.shutdown := by
  cases h with
  | missed _ hw' => rw [hw']; exact ⟨rfl, rfl, rfl⟩
  | refused _ _ hw' => rw [hw']; exact ⟨rfl, rfl, rfl⟩
  | up _ _ _ _ _ _ _ _ hw' => rw [hw']; exact ⟨rfl, rfl, rfl⟩

theorem Turn.hasSerial_of_ne {env : Env} {i k : ℕ} {s t : String} {w w' : World}
    (h : Turn env i s w w') (hk : k ≠ i) : HasSerial w' k t ↔ HasSerial w k t := by
  rw [HasSerial, HasSerial, h.devices_of_ne hk]

/-- A turn, from the slot its search stops at. -/
theorem startupStep_run (env : Env) (i : ℕ) (nd : NetworkDeviceSummary) (w : World) :
    (startupStep env i nd).run w =
      match (List.range w.numberOfDevices).find? (stopsAt w (snprintfD nd.serialNumber)) with
      | none => .ok () { w with brk := w.brk + 1 }
      | some j =>
          match w.devices j with
          | none => .error .nullDevice { w with brk := w.brk + 1 }
          | some d =>
              match env.connect i with
              | none => .ok () { w with brk := w.brk + 2 }
              | some pokey =>
                  (bringUp env i { d with addr := w.brk } { pokey with addr := w.brk + 1 }).run
                    { w with brk := w.brk + 2 } := by
  let afterMalloc : World := { w with brk := w.brk + 1 }
  have hlookup : (getDeviceBySerialNumber w.brk (snprintfD nd.serialNumber)).run afterMalloc =
      match (List.range w.numberOfDevices).find? (stopsAt w (snprintfD nd.serialNumber)) with
      | none => .ok none afterMalloc
      | some j =>
          match w.devices j with
          | none => .error .nullDevice afterMalloc
          | some d => .ok (some { d with addr := w.brk }) afterMalloc :=
    getDeviceFrom_run w.brk (snprintfD nd.serialNumber) (List.range w.numberOfDevices) afterMalloc
  unfold startupStep
  rw [bind_of_ok (show malloc.run w = .ok w.brk afterMalloc from rfl)]
  cases hfind : (List.range w.numberOfDevices).find?
      (stopsAt w (snprintfD nd.serialNumber)) with
  | none =>
    rw [hfind] at hlookup
    rw [bind_of_ok hlookup]
    rfl
  | some j =>
    rw [hfind] at hlookup
    cases hd : w.devices j with
    | none =>
      simp only [hd] at hlookup ⊢
      rw [bind_of_error hlookup]
    | some d =>
      simp only [hd] at hlookup ⊢
      rw [bind_of_ok hlookup]
      cases hconnect : env.connect i with
      | none => rfl
      | some pokey => rfl

theorem startupStep_cases {env : Env} {i : ℕ} {nd : NetworkDeviceSummary} {w w' : World}
    (h : (startupStep env i nd).run w = .ok () w') :
    Turn env i (snprintfD nd.serialNumber) w w' := by
  unfold startupStep at h
  obtain ⟨addr, w₁, h₁, h⟩ := bind_ok_iff.1 h
  cases h₁
  obtain ⟨found, w₂, hfound, h⟩ := bind_ok_iff.1 h
  rcases getDeviceBySerialNumber_cases w.brk (snprintfD nd.serialNumber)
    { w with brk := w.brk + 1 } with
    ⟨j, hj, d, hslot, hs, hrun⟩ | ⟨hmiss, hrun⟩ | ⟨j, hj, -, -, hrun⟩
  · rw [hrun] at hfound
    cases hfound
    obtain ⟨pokeyAddr, w₃, h₃, h⟩ := bind_ok_iff.1 h
    cases h₃
    cases hconnect : env.connect i with
    | none =>
      rw [hconnect] at h
      cases h
      exact .refused ⟨j, hj, d, hslot, hs⟩ hconnect rfl
    | some pokey =>
      rw [hconnect] at h
      obtain ⟨pokey', mem, hw'⟩ := bringUp_ok h
      exact .up j hj d hslot hs (by rw [hconnect]; rfl) pokey' mem hw'
  · rw [hrun] at hfound
    cases hfound
    cases h
    exact .missed hmiss rfl
  · rw [hrun] at hfound
    cases hfound

/-! ### The loop -/

theorem startupLoop_succ_ok {env : Env} {i : ℕ} {w w' : World} (hi : i < env.network.length)
    (h : (startupLoop env (i + 1)).run w = .ok () w') :
    ∃ w₁, (startupLoop env i).run w = .ok () w₁ ∧
      Turn env i (snprintfD (env.network[i]).serialNumber) w₁ w' := by
  rw [startupLoop] at h
  obtain ⟨_, w₁, h₁, h₂⟩ := bind_ok_iff.1 h
  rw [List.getElem?_eq_getElem hi] at h₂
  exact ⟨w₁, h₁, startupStep_cases h₂⟩

/-- What every turn keeps holds in every state the loop reaches. -/
theorem startupLoop_invariant {env : Env} {w₀ : World} (I : ℕ → World → Prop) (h0 : I 0 w₀)
    (hstep : ∀ i (hi : i < env.network.length) w w', I i w →
      Turn env i (snprintfD (env.network[i]).serialNumber) w w' → I (i + 1) w') :
    ∀ {i : ℕ} {w : World}, i ≤ env.network.length → (startupLoop env i).run w₀ = .ok () w →
      I i w := by
  intro i
  induction i with
  | zero =>
    intro w _ h
    cases h
    exact h0
  | succ i ih =>
    intro w hi h
    obtain ⟨w₁, h₁, hturn⟩ := startupLoop_succ_ok (by omega) h
    exact hstep i (by omega) w₁ w (ih (by omega) h₁) hturn

/-- A run of `main` that happens to find all its memory cleared. -/
def cleanRun (root : Setting) (env : Env) : EStateM.Result Fault World ℤ :=
  (main (some root) (fun _ => .cleared) ⟨none, none, 0, 0⟩ env).run World.init

/-- A `main` that returned 0 has gone through all turns, from the registry as it was loaded. -/
theorem main_registered {root : Setting} {junk : ℕ → DeviceJunk} {simJunk : SimulatorJunk}
    {env : Env} {w : World} (h : (main (some root) junk simJunk env).run World.init = .ok 0 w) :
    ∃ w₀, Registered junk (devicesOf root) env.network.length w₀ ∧
      (startupLoop env env.network.length).run w₀ = .ok () w := by
  unfold main at h
  obtain ⟨_, w₀, hbefore, h⟩ := bind_ok_iff.1 h
  rw [run_ite] at h
  split_ifs at h with hcli
  · cases h
  · obtain ⟨_, w₁, hloop, h⟩ := bind_ok_iff.1 h
    cases h
    exact ⟨w₀, beforeLoop_registered hbefore, hloop⟩

end SimPokey
