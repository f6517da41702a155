import SimPokey.Config
import SimPokey.Pin.LoadSpec

/-!
# The registry `loadConfiguredDevices` leaves

* Started on whatever the uninitialised memory holds, a load that returns has put the group `g`
  of the turn `i` into `devices[i]`: the fields `newDevice` takes from `g`, and a table
  (`loadDevicesFrom_ok`).
* Started with `numberOfPins = 0` in every new record, the load does return, each table is the
  declared one of its group (`groupTable`), and the slots used are known exactly
  (`loadDevicesFrom_builds`).
-/

namespace SimPokey

open FaultState FirstWins LibConfig

variable {Setting : Type} [LibConfig Setting]

/-- The groups of `configuration.devices`. -/
def devicesOf (root : Setting) : List Setting :=
  elemsOf (lookup root ["configuration", "devices"])

theorem devicesOf_eq {root devices : Setting}
    (h : lookup root ["configuration", "devices"] = some devices) :
    devicesOf root = elems devices := by
  rw [devicesOf, h]
  rfl

/-! ### What the loaders leave alone -/

/-- From `d` to `d'` only the table and its count changed, and the count grew by at most `k`. -/
structure Grown (k : ℕ) (d d' : Device) : Prop where
  device : d' = { d with numberOfPins := d'.numberOfPins, pins := d'.pins }
  count_le : d'.numberOfPins ≤ d.numberOfPins + k

theorem Grown.refl (d : Device) : Grown 0 d d := ⟨rfl, by simp⟩

theorem Grown.mono {k l : ℕ} {d d' : Device} (h : Grown k d d') (hkl : k ≤ l) : Grown l d d' :=
  ⟨h.device, by have := h.count_le; omega⟩

theorem Grown.trans {k l : ℕ} {d d' d'' : Device} (h : Grown k d d') (h' : Grown l d' d'') :
    Grown (k + l) d d'' where
  device := by rw [h'.device, h.device]
  count_le := by
    have h₁ := h.count_le
    have h₂ := h'.count_le
    push_cast
    omega

/-- Storing a record and counting it. -/
theorem grown_of_storePort {d d₁ : Device} {i : ℤ} {port : DevicePort} {m m' : Memory}
    (h : (storePort d i port).run m = .ok d₁ m') :
    Grown 1 d { d₁ with numberOfPins := d₁.numberOfPins + 1 } := by
  cases h
  exact ⟨rfl, le_rfl⟩

theorem loadPinEntry_grown {st st' : Device × ℤ} {entry : Setting} {m m' : Memory}
    (h : (loadPinEntry st entry).run m = .ok st' m') : Grown 1 st.1 st'.1 := by
  have hskip : ∀ {m : Memory}, (pure st : MemRun (Device × ℤ)).run m = .ok st' m' →
      Grown 1 st.1 st'.1 := by
    intro m hskip
    cases hskip
    exact (Grown.refl _).mono (by omega)
  unfold loadPinEntry at h
  split at h
  · exact hskip h
  · obtain ⟨found, m₁, -, h⟩ := bind_ok_iff.1 h
    rw [run_ite] at h
    split_ifs at h with hfound
    · exact hskip h
    · split at h
      · exact hskip h
      · obtain ⟨d₁, m₂, hstore, h⟩ := bind_ok_iff.1 h
        cases h
        exact grown_of_storePort hstore

theorem loadPWMEntry_grown {d d' : Device} {entry : Setting} {m m' : Memory}
    (h : (loadPWMEntry d entry).run m = .ok d' m') : Grown 1 d d' := by
  have hskip : ∀ {m : Memory}, (pure d : MemRun Device).run m = .ok d' m' → Grown 1 d d' := by
    intro m hskip
    cases hskip
    exact (Grown.refl _).mono (by omega)
  unfold loadPWMEntry at h
  split at h
  · exact hskip h
  · split at h
    · exact hskip h
    · obtain ⟨found, m₁, -, h⟩ := bind_ok_iff.1 h
      rw [run_ite] at h
      split_ifs at h with hfound
      · exact hskip h
      · obtain ⟨d₁, m₂, hstore, h⟩ := bind_ok_iff.1 h
        cases h
        exact grown_of_storePort hstore

theorem loadPinConfiguration_grown {pins : Option Setting} {d : Device} {r : ℤ × Device}
    {m m' : Memory} (h : (loadPinConfiguration pins d).run m = .ok r m') :
    Grown (elemsOf pins).length d r.2 := by
  unfold loadPinConfiguration at h
  cases pins with
  | none => cases h; exact Grown.refl _
  | some ports =>
    simp only [run_ite] at h
    split_ifs at h with hlen
    · cases h
      exact (Grown.refl _).mono (Nat.zero_le _)
    · obtain ⟨st, m₁, hloop, h⟩ := bind_ok_iff.1 h
      cases h
      exact foldlM_partial (fun done st _ => Grown done.length d st.1) (Grown.refl d)
        (fun done entry st m st' m' hI hstep => by
          rw [List.length_append, List.length_singleton]
          exact hI.trans (loadPinEntry_grown hstep)) hloop

theorem loadPWMConfiguration_grown {pwm : Option Setting} {d : Device} {r : ℤ × Device}
    {m m' : Memory} (h : (loadPWMConfiguration pwm d).run m = .ok r m') :
    Grown (elemsOf pwm).length d r.2 := by
  unfold loadPWMConfiguration at h
  cases pwm with
  | none => cases h; exact Grown.refl _
  | some ports =>
    simp only [run_ite] at h
    split_ifs at h with hlen
    · cases h
      exact (Grown.refl _).mono (Nat.zero_le _)
    · obtain ⟨d', m₁, hloop, h⟩ := bind_ok_iff.1 h
      cases h
      exact foldlM_partial (fun done d' _ => Grown done.length d d') (Grown.refl d)
        (fun done entry d m d' m' hI hstep => by
          rw [List.length_append, List.length_singleton]
          exact hI.trans (loadPWMEntry_grown hstep)) hloop

/-- The number of entries of a group's two lists. -/
def groupEntries (g : Setting) : ℕ :=
  (elemsOf (getMember g "pins")).length + (elemsOf (getMember g "pwm")).length

theorem loadPorts_grown {g : Setting} {d d' : Device} {m m' : Memory}
    (h : (loadPorts (getMember g "pins") (getMember g "pwm") d).run m = .ok d' m') :
    Grown (groupEntries g) d d' := by
  unfold loadPorts at h
  obtain ⟨r, m₁, h₁, h⟩ := bind_ok_iff.1 h
  obtain ⟨r', m₂, h₂, h⟩ := bind_ok_iff.1 h
  cases h
  exact (loadPinConfiguration_grown h₁).trans (loadPWMConfiguration_grown h₂)

/-! ### A load that returned -/

/-- What a load of `gs` from the slot `i` on leaves: the record of each group in its slot, and
everything but the memory, the slots and the allocation counter as it was. -/
structure Loads (junk : ℕ → DeviceJunk) (i : ℕ) (gs : List Setting) (w w' : World) : Prop where
  world : w' = { w with mem := w'.mem, brk := w.brk + gs.length, devices := w'.devices }
  slot : ∀ k g, gs[k]? = some g → ∃ d, w'.devices (i + k) = some d ∧
    Grown (groupEntries g) (newDevice (junk (i + k)) (w.brk + k) g) d
  others : ∀ j, j < i ∨ i + gs.length ≤ j → w'.devices j = w.devices j

theorem loadDevice_ok {junk : DeviceJunk} {i : ℕ} {g : Setting} {w w' : World}
    (h : (loadDevice junk i g).run w = .ok () w') :
    ∃ d, Grown (groupEntries g) (newDevice junk w.brk g) d ∧
      w' = { w with
        mem := w'.mem, brk := w.brk + 1, devices := Function.update w.devices i (some d) } := by
  unfold loadDevice at h
  obtain ⟨addr, w₁, h₁, h⟩ := bind_ok_iff.1 h
  cases h₁
  obtain ⟨d, w₂, h₂, h⟩ := bind_ok_iff.1 h
  obtain ⟨m', hports, rfl⟩ := onPart_ok_iff.1 h₂
  cases h
  exact ⟨d, loadPorts_grown hports, rfl⟩

theorem loadDevicesFrom_ok {junk : ℕ → DeviceJunk} {gs : List Setting} :
    ∀ {i : ℕ} {w w' : World}, (loadDevicesFrom junk i gs).run w = .ok () w' →
      Loads junk i gs w w' := by
  induction gs with
  | nil =>
    intro i w w' h
    cases h
    exact ⟨rfl, by simp, fun _ _ => rfl⟩
  | cons g gs ih =>
    intro i w w' h
    obtain ⟨_, w₁, h₁, h₂⟩ := bind_ok_iff.1 h
    obtain ⟨d, hd, hw₁⟩ := loadDevice_ok h₁
    have hrest := ih h₂
    have hbrk : w₁.brk = w.brk + 1 := by rw [hw₁]
    have hdevices : w₁.devices = Function.update w.devices i (some d) := by rw [hw₁]
    refine ⟨?_, fun k g' hk => ?_, fun j hj => ?_⟩
    · rw [hrest.world, hw₁]
      simp only [List.length_cons, World.mk.injEq, true_and, and_true]
      omega
    · cases k with
      | zero =>
        simp only [List.getElem?_cons_zero, Option.some.injEq] at hk
        subst hk
        refine ⟨d, ?_, hd⟩
        rw [Nat.add_zero, hrest.others i (by omega), hdevices, Function.update_self]
      | succ k =>
        rw [List.getElem?_cons_succ] at hk
        obtain ⟨d', hslot, hd'⟩ := hrest.slot k g' hk
        rw [hbrk] at hd'
        have hi : i + (k + 1) = i + 1 + k := by omega
        have ha : w.brk + (k + 1) = w.brk + 1 + k := by omega
        exact ⟨d', by rw [hi, hslot], by rw [hi, ha]; exact hd'⟩
    · rw [List.length_cons] at hj
      rw [hrest.others j (by omega), hdevices, Function.update_of_ne (by omega)]

/-- A `loadConfiguredDevices` that returned. -/
theorem loadConfiguredDevices_ok {configuration : ConfigState Setting} {junk : ℕ → DeviceJunk}
    {w w' : World} {r : ℤ}
    (h : (loadConfiguredDevices configuration junk).run w = .ok r w') :
    ∃ root devices w₁, configuration = .loaded root ∧
      lookup root ["configuration", "devices"] = some devices ∧ r = 0 ∧
      Loads junk 0 (elems devices) w w₁ ∧
      w' = { w₁ with activeDevices := (elems devices).length } := by
  unfold loadConfiguredDevices at h
  obtain ⟨found, w₁, h₁, h⟩ := bind_ok_iff.1 h
  cases configuration with
  | destroyed => cases h₁
  | loaded root =>
    cases h₁
    cases hfound : (lookup root ["configuration", "devices"] : Option Setting) with
    | none => rw [hfound] at h; cases h
    | some devices =>
      rw [hfound] at h
      obtain ⟨_, w₁, h₁, h⟩ := bind_ok_iff.1 h
      cases h
      exact ⟨root, devices, w₁, rfl, hfound, rfl, loadDevicesFrom_ok h₁, rfl⟩

/-! ### A load with empty tables -/

/-- The declared table of a group. -/
def groupTable (g : Setting) : List DevicePort :=
  acceptedTable (elemsOf (getMember g "pins")) (elemsOf (getMember g "pwm"))

/-- What a load of `gs` from the slot `i` on builds: the declared table of each group, by using
exactly these slots of `devices[]` and of the `pins[]` arrays. -/
structure Builds (i : ℕ) (gs : List Setting) (w w' : World) : Prop where
  tables : ∀ k g, gs[k]? = some g → ∃ d T, w'.devices (i + k) = some d ∧ Holds w'.mem d T ∧
    records T = groupTable g
  ports : w.mem.ports <+: w'.mem.ports
  uses : ∃ new, w'.mem.accesses = w.mem.accesses ++ new ∧
    ∀ a, a ∈ new ↔ (∃ k < gs.length, a = .devices (i + k : ℕ)) ∨
      ∃ g ∈ gs, ∃ k < (groupTable g).length, a = .pins k

theorem loadDevice_builds {junk : DeviceJunk} (hzero : junk.numberOfPins = 0) (i : ℕ) (g : Setting)
    (w : World) : ∃ w', (loadDevice junk i g).run w = .ok () w' ∧ Builds i [g] w w' := by
  have hempty : Holds w.mem (newDevice junk w.brk g) [] := holds_nil hzero
  obtain ⟨r₁, d₁, m₁, r₂, d₂, m₂, T, h₁, h₂, hext, hrec⟩ :=
    loaders_extends hempty (getMember g "pins") (getMember g "pwm")
  have hports : (loadPorts (getMember g "pins") (getMember g "pwm") (newDevice junk w.brk g)).run
      w.mem = .ok d₂ m₂ := by
    rw [loadPorts, bind_of_ok h₁, bind_of_ok h₂]
    rfl
  obtain ⟨new, hnew, hin, hall⟩ := hext.accesses
  have hlen : T.length = (groupTable g).length := by
    rw [groupTable, ← hrec, List.length_map]
  obtain ⟨w', hrun, hmem, hdevices⟩ : ∃ w', (loadDevice junk i g).run w = .ok () w' ∧
      w'.mem = m₂.touch (.devices i) ∧ w'.devices = Function.update w.devices i (some d₂) := by
    refine ⟨{ ({ w with brk := w.brk + 1, mem := m₂ } : World).touch (.devices i) with
      devices := Function.update w.devices i (some d₂) }, ?_, rfl, rfl⟩
    rw [loadDevice, bind_of_ok (rfl : malloc.run w = .ok w.brk { w with brk := w.brk + 1 })]
    exact bind_of_ok (onPart_of_ok hports)
  refine ⟨w', hrun, fun k g' hk => ?_, ?_, new ++ [.devices i], ?_, fun a => ?_⟩
  · rcases k with _ | k
    · simp only [List.getElem?_cons_zero, Option.some.injEq] at hk
      subst hk
      refine ⟨d₂, T, ?_, hext.holds.mono ?_, hrec⟩
      · rw [hdevices, Nat.add_zero, Function.update_self]
      · rw [hmem]
        exact List.prefix_refl _
    · simp at hk
  · rw [hmem]
    exact hext.ports
  · rw [hmem, Memory.touch_accesses, hnew, List.append_assoc]
  · simp only [List.mem_append, List.mem_singleton, List.length_singleton, exists_eq_left]
    constructor
    · rintro (ha | rfl)
      · obtain ⟨k, hk, rfl⟩ := hin a ha
        exact Or.inr ⟨k, hlen ▸ hk, rfl⟩
      · exact Or.inl ⟨0, by omega, rfl⟩
    · rintro (⟨k, hk, rfl⟩ | ⟨k, hk, rfl⟩)
      · obtain rfl : k = 0 := by omega
        exact Or.inr rfl
      · exact Or.inl (hall k (Nat.zero_le _) (hlen ▸ hk))

theorem loadDevicesFrom_builds {junk : ℕ → DeviceJunk} (hzero : ∀ j, (junk j).numberOfPins = 0)
    (gs : List Setting) : ∀ (i : ℕ) (w : World),
      ∃ w', (loadDevicesFrom junk i gs).run w = .ok () w' ∧ Builds i gs w w' := by
  induction gs with
  | nil => exact fun i w => ⟨w, rfl, by simp, List.prefix_refl _, [], by simp, by simp⟩
  | cons g gs ih =>
    intro i w
    obtain ⟨w₁, h₁, hfirst⟩ := loadDevice_builds (hzero i) i g w
    obtain ⟨w', h₂, hrest⟩ := ih (i + 1) w₁
    obtain ⟨new₁, hnew₁, huses₁⟩ := hfirst.uses
    obtain ⟨new₂, hnew₂, huses₂⟩ := hrest.uses
    refine ⟨w', by rw [loadDevicesFrom, bind_of_ok h₁, h₂], fun k g' hk => ?_,
      hfirst.ports.trans hrest.ports, new₁ ++ new₂, by rw [hnew₂, hnew₁, List.append_assoc],
      fun a => ?_⟩
    · cases k with
      | zero =>
        obtain ⟨d, T, hslot, hT, hrec⟩ := hfirst.tables 0 g' (by simpa using hk)
        refine ⟨d, T, ?_, hT.mono hrest.ports, hrec⟩
        rw [(loadDevicesFrom_ok h₂).others _ (by omega), hslot]
      | succ k =>
        have hi : i + (k + 1) = i + 1 + k := by omega
        rw [hi]
        exact hrest.tables k g' (by simpa using hk)
    · rw [List.mem_append, huses₁, huses₂]
      simp only [List.length_cons, List.length_nil, List.mem_cons, List.not_mem_nil, or_false]
      constructor
      · rintro ((⟨k, hk, rfl⟩ | ⟨_, rfl, ha⟩) | (⟨k, hk, rfl⟩ | ⟨g', hg', ha⟩))
        · exact Or.inl ⟨k, by omega, rfl⟩
        · exact Or.inr ⟨_, Or.inl rfl, ha⟩
        · exact Or.inl ⟨k + 1, by omega, by congr 2; omega⟩
        · exact Or.inr ⟨g', Or.inr hg', ha⟩
      · rintro (⟨k, hk, rfl⟩ | ⟨g', rfl | hg', ha⟩)
        · rcases k with _ | k
          · exact Or.inl (Or.inl ⟨0, by omega, rfl⟩)
          · exact Or.inr (Or.inl ⟨k, by omega, by congr 2; omega⟩)
        · exact Or.inl (Or.inr ⟨_, rfl, ha⟩)
        · exact Or.inr (Or.inr ⟨g', hg', ha⟩)

end SimPokey
