import SimPokey.Pin.ApplyUses
import SimPokey.Pin.LoopUses
import SimPokey.Startup.Polled
import SimPokey.Startup.Sent

/-!
# What a startup uses, and when all of it exists

A turn that brings up a device uses the slots of the tables, the texts of the check, the slot of
`devices[]` with the number of the turn, and what applying the table uses (`bringUp_uses`).  The
slots were all used by the load already, so the log of a whole startup is known up to these
(`startupLoop_uses`), and with it when the startup stays inside its arrays and blocks
(`main_inBounds_iff`).
-/

namespace SimPokey

open FaultState LibConfig Growth

/-! ### One turn -/

/-- What bringing up a device in the turn `i` uses besides slots of tables: the texts the check of
its records writes, the slot of `devices[]`, and what its records use when they are applied. -/
def turnUses (env : Env) (i : ℕ) (image : PoKeysDevice) (ports : List DevicePort) : Set Access :=
  {a | (∃ p ∈ ports, a ∈ textUses env.lib image p) ∨ a = .devices i ∨
    ∃ e ∈ ports.zipIdx, a ∈ portUses (env.junk i e.2) image.iPinCount e.1}

/-- The slots of the tables of `n` devices. -/
def tableSlots (n : ℕ) (ports : ℕ → List DevicePort) : Set Access :=
  {a | ∃ l < n, ∃ k : ℕ, k < (ports l).length ∧ a = .pins k}

section Turn

variable {m n : ℕ} {D : ℕ → Device} {ptr : ℕ → List ℕ} {w w' : World} {r r' : Site}

/-- The slots of a device in a registry are slots of the tables. -/
theorem Represents.slotsOf_subset (h : Represents m n D ptr w r) {k : ℕ} {d : Device}
    (hd : w.devices k = some d) : slotsOf d ⊆ tableSlots n r.ports := by
  rw [h.devices k, Option.map_eq_some_iff] at hd
  obtain ⟨t, ht, rfl⟩ := hd
  have hl := h.source k t ht
  obtain ⟨T, hT, -, hrec⟩ := h.table t.source hl
  rintro a ⟨j, hj, rfl⟩
  have hcount : (slotDevice D t).numberOfPins = T.length := hT.count
  have hlen : T.length = (r.ports t.source).length := by rw [← hrec, List.length_map]
  exact ⟨t.source, hl, j, by omega, rfl⟩

theorem tableSlots_congr {ports ports' : ℕ → List DevicePort}
    (h : ∀ l, (ports' l).length = (ports l).length) : tableSlots n ports' = tableSlots n ports := by
  simp only [tableSlots, h]

/-- What happens after `devices[i]` was set uses what applying the table uses, and slots of the
registry it leaves. -/
theorem applyAndStart_uses {env : Env} {i : ℕ} {device : Device} {pokey : PoKeysDevice}
    {ports : List DevicePort} (htable : tableOf w.mem device = ports.map some)
    (hpokey : device.pokey = some pokey) (hdiv : ∀ p ∈ ports, dividesByZero p = false)
    (hrun : (applyAndStart env i device).run w = .ok () w') :
    Grows {a | a ∈ tableUses (env.junk i) pokey.iPinCount ports.zipIdx}
      {a | ∃ k d, w'.devices k = some d ∧ a ∈ slotsOf d} w.mem.accesses w'.mem.accesses := by
  unfold applyAndStart at hrun
  obtain ⟨applied, w₁, happly, hrun⟩ := bind_ok_iff.1 hrun
  obtain ⟨_, w₂, hchange, hrun⟩ := bind_ok_iff.1 hrun
  obtain ⟨_, w₃, hdump, hthread⟩ := bind_ok_iff.1 hrun
  obtain ⟨mem, hmem, rfl⟩ := onPart_ok_iff.1 happly
  have hmem₂ : w₂.mem = mem := by cases hchange; rfl
  have happlied : mem.accesses =
      w.mem.accesses ++ tableUses (env.junk i) pokey.iPinCount ports.zipIdx := by
    rw [← applyPinConfigurationToDevice_accesses htable hpokey hdiv (env.junk i)]
    obtain ⟨d, mem', hrun₁, hret⟩ := bind_ok_iff.1 hmem
    cases hret
    rw [hrun₁, final_ok]
  have hdumps : Dumps w₂ w₃ := by
    have hframe := dumpDevices_frames w₂
    rwa [hdump] at hframe
  obtain ⟨hdevices, new, hnew, huses⟩ := hdumps
  have hsame : w'.mem = w₃.mem ∧ w'.devices = w₃.devices := by
    unfold startThread EStateM.run at hthread
    split_ifs at hthread <;> cases hthread <;> exact ⟨rfl, rfl⟩
  rw [hsame.1, hsame.2, hdevices]
  have hgrows := (Grows.of_append happlied {a | ∃ k d, w₂.devices k = some d ∧ a ∈ slotsOf d}).trans
    (.of_within (hmem₂ ▸ hnew) huses)
  rwa [Set.union_empty] at hgrows

/-- **What bringing up a device uses.** -/
theorem bringUp_uses (env : Env)
    (hapart : ∀ l < n, ∀ l' < n, l ≠ l' → List.Disjoint (ptr l) (ptr l'))
    (h : Represents m n D ptr w r) {i l : ℕ} (hl : l < n) {addr : ℕ} {pokey : PoKeysDevice}
    {old : Option PoKeysDevice} {hasPokey : ℤ}
    (hrun : (bringUp env i { D l with addr := addr, pokey := old, hasPokey := hasPokey }
      pokey).run w = .ok () w') :
    Grows (turnUses env i (checkedImage env (fun l => (D l).name) i l pokey)
        ((r.ports l).map (validated env.lib (checkedImage env (fun l => (D l).name) i l pokey))))
      (tableSlots n r.ports) w.mem.accesses w'.mem.accesses := by
  obtain ⟨T, hT, -, hrec⟩ := h.table l hl
  have hafter := bringUp_simulates env hapart h i hl addr pokey old hasPokey
  rw [hrun] at hafter
  obtain ⟨_, r', hsite, hrep⟩ := hafter.of_ok_left
  obtain ⟨ports, hports, hany, hr'⟩ := siteBringUp_ok hsite
  obtain ⟨image, device, mem, himage, hdevice, hbegin, hholds, hchecks⟩ :=
    bringUp_checked env hT i addr pokey old hasPokey
  rw [← himage] at hports ⊢
  rw [← hports]
  have hdiv : ∀ p ∈ ports, dividesByZero p = false := by simpa using hany
  have htable : tableOf (w.stored i device mem).mem device = ports.map some := by
    have hholds' : Holds (w.stored i device mem).mem device (validatedTable env.lib image T) :=
      hholds.mono (List.prefix_refl _)
    rw [hholds'.tableOf_eq, records_validatedTable, hrec, hports]
  rw [hbegin] at hrun
  have hstarted := applyAndStart_uses htable (by rw [hdevice]; rfl) hdiv hrun
  -- the slots of the tables are the same before and after
  have hslots : tableSlots n r'.ports = tableSlots n r.ports := by
    refine tableSlots_congr fun l' => ?_
    rw [hr']
    by_cases hl' : l' = l
    · simp [hl', hports]
    · simp [Function.update_of_ne hl']
  have hlen : T.length = (r.ports l).length := by rw [← hrec, List.length_map]
  -- the check writes the texts of the records, whatever their marks
  have htexts : ∀ a, (∃ p ∈ ports, a ∈ textUses env.lib image p) ↔
      ∃ p ∈ records T, a ∈ textUses env.lib image p := by
    intro a
    simp only [hports, hrec, List.mem_map, exists_exists_and_eq_and, textUses_validated]
  have hchecked : Grows {a | ∃ p ∈ ports, a ∈ textUses env.lib image p} (tableSlots n r.ports)
      w.mem.accesses mem.accesses := by
    refine (Grows.of_append hchecks.accesses (tableSlots n r.ports)).mono (fun a ha => ?_) ?_
    · exact mem_checkUses.2 (Or.inr ((htexts a).1 ha))
    · rintro a (ha | ha)
      · rcases mem_checkUses.1 ha with ⟨k, hk, rfl⟩ | ha
        · rw [records, List.length_map] at hk
          exact Or.inr ⟨l, hl, k, hlen ▸ hk, rfl⟩
        · exact Or.inl ((htexts a).2 ha)
      · exact Or.inr ha
  have hstored : Grows {a | a ∈ [.devices i]} (tableSlots n r.ports) mem.accesses
      (w.stored i device mem).mem.accesses := .of_append rfl _
  have happlied : Grows {a | a ∈ tableUses (env.junk i) image.iPinCount ports.zipIdx}
      (tableSlots n r.ports) (w.stored i device mem).mem.accesses w'.mem.accesses := by
    refine hstarted.mono subset_rfl (Set.union_subset_union_right _ ?_)
    rintro a ⟨k, d, hd, hslot⟩
    exact hslots ▸ hrep.slotsOf_subset hd hslot
  refine ((hchecked.trans hstored).trans happlied).mono ?_ ?_
  · rintro a (ha | rfl | ⟨e, he, ha⟩)
    · exact Or.inl (Or.inl ha)
    · exact Or.inl (Or.inr (List.mem_singleton_self _))
    · exact Or.inr (List.mem_flatMap.2 ⟨e, he, List.mem_cons_of_mem _ ha⟩)
  · rintro a (((ha | ha) | ha) | ha)
    · exact Or.inl (Or.inl ha)
    · exact Or.inl (Or.inr (Or.inl (List.mem_singleton.1 ha)))
    · obtain ⟨e, he, ha⟩ := List.mem_flatMap.1 ha
      rcases List.mem_cons.1 ha with rfl | ha
      · have hk := List.snd_lt_of_mem_zipIdx he
        refine Or.inr ⟨l, hl, e.2, ?_, rfl⟩
        simpa [hports] using hk
      · exact Or.inl (Or.inr (Or.inr ⟨e, he, ha⟩))
    · exact Or.inr ha

end Turn

/-! ### The loop -/

section Loop

variable {env : Env} {serial name : ℕ → String} {tables : ℕ → List DevicePort} {n i : ℕ}
  {r r' : Site}

/-- What the slot `k` used when it was brought up; the configured tables are `tables`. -/
def Site.uses (env : Env) (name : ℕ → String) (tables : ℕ → List DevicePort) (r : Site) (k : ℕ) :
    Set Access :=
  (r.slot k).elim ∅ fun t => (t.found env k).elim ∅ fun pokey =>
    turnUses env k (checkedImage env name k t.source pokey)
      ((tables t.source).map (r.marked env name (k + 1) t.source))

theorem Site.uses_congr (h : ∀ k < i, r'.slot k = r.slot k) {k : ℕ} (hk : k < i) :
    r'.uses env name tables k = r.uses env name tables k := by
  have hmarked : r'.marked env name (k + 1) = r.marked env name (k + 1) :=
    funext fun l => Site.marked_congr (fun k' hk' => h k' (by omega)) l
  rw [Site.uses, Site.uses, h k hk, hmarked]

/-- The slot of the next turn has used nothing yet. -/
theorem Explained.uses_next (h : Explained env name serial tables n i r) :
    r.uses env name tables i = ∅ := by
  rw [Site.uses]
  cases ht : r.slot i with
  | none => rfl
  | some t =>
    cases himage : t.image with
    | none => rw [Option.elim_some, Slot.found_of_idle himage]; rfl
    | some image =>
      have hlt := (h.up i t image ht himage).1
      omega

/-- A turn uses what its slot uses. -/
theorem startupStep_uses {D : ℕ → Device} {ptr : ℕ → List ℕ} {w w' : World}
    (hapart : ∀ l < n, ∀ l' < n, l ≠ l' → List.Disjoint (ptr l) (ptr l'))
    (hrep : Represents env.network.length n D ptr w r) (hname : name = fun l => (D l).name)
    (hserial : serial = fun l => (D l).serialNumber)
    (h : Explained env name serial tables n i r)
    (h' : Explained env name serial tables n (i + 1) r') {nd : NetworkDeviceSummary}
    (hrun : (startupStep env i nd).run w = .ok () w')
    (hsite : (siteStep env serial name i nd).run r = .ok () r') :
    Grows (r'.uses env name tables i) (tableSlots n r.ports) w.mem.accesses w'.mem.accesses := by
  subst hname hserial
  rw [startupStep_run, hrep.search] at hrun
  rw [siteStep_run] at hsite
  cases hsearch : r.search (fun l => (D l).serialNumber) env.network.length
      (snprintfD nd.serialNumber) with
  | none =>
    rw [hsearch] at hrun hsite
    cases hrun
    cases hsite
    have hnone : ({ r with brk := r.brk + 1 } : Site).uses env _ tables i = ∅ := h.uses_next
    rw [hnone]
    exact .refl _ _
  | some j =>
    rw [hsearch] at hrun hsite
    have hslot := hrep.devices j
    cases ht : r.slot j with
    | none =>
      simp only [ht] at hsite
      cases hsite
    | some t =>
      rw [ht, Option.map_some] at hslot
      simp only [ht] at hsite
      simp only [hslot] at hrun
      cases hconnect : env.connect i with
      | none =>
        rw [hconnect] at hrun hsite
        cases hrun
        cases hsite
        have hnone : ({ r with brk := r.brk + 2 } : Site).uses env _ tables i = ∅ := h.uses_next
        rw [hnone]
        exact .refl _ _
      | some pokey =>
        rw [hconnect] at hrun hsite
        have huses := bringUp_uses env hapart (hrep.allocated 2) (hrep.source j t ht) hrun
        rw [hrep.brk] at huses
        obtain ⟨ports, hports, -, hr'⟩ := siteBringUp_ok hsite
        have hown : ports = (tables t.source).map
            (r'.marked env (fun l => (D l).name) (i + 1) t.source) := by
          have hports' : r'.ports t.source = ports := by rw [hr']; exact Function.update_self ..
          rw [← hports', h'.ports]
        obtain ⟨image, hself⟩ : ∃ image, r'.slot i = some ⟨t.source, r.brk, some image⟩ := by
          rw [hr']
          exact ⟨_, Function.update_self ..⟩
        have hfound : (⟨t.source, r.brk, some image⟩ : Slot).found env i =
            some { pokey with addr := r.brk + 1 } := by
          rw [Slot.found, hconnect]
          rfl
        rw [Site.uses, hself, Option.elim_some, hfound, Option.elim_some, ← hown, hports]
        exact huses

/-- **What the startup loop uses**: slots of the tables, and what the slots that were brought up
use. -/
theorem startupLoop_uses {D : ℕ → Device} {ptr : ℕ → List ℕ} {w₀ : World} {r₀ : Site}
    (hapart : ∀ l < n, ∀ l' < n, l ≠ l' → List.Disjoint (ptr l) (ptr l'))
    (hrep : Represents env.network.length n D ptr w₀ r₀) (hname : name = fun l => (D l).name)
    (hserial : serial = fun l => (D l).serialNumber)
    (h : Explained env name serial tables n 0 r₀) :
    ∀ {i : ℕ} {w : World}, i ≤ env.network.length → (startupLoop env i).run w₀ = .ok () w →
      ∃ r, (siteLoop env serial name i).run r₀ = .ok () r ∧
        Represents env.network.length n D ptr w r ∧ Explained env name serial tables n i r ∧
        Grows {a | ∃ k < i, a ∈ r.uses env name tables k} (tableSlots n tables)
          w₀.mem.accesses w.mem.accesses := by
  intro i
  induction i with
  | zero =>
    intro w _ hrun
    cases hrun
    refine ⟨r₀, rfl, hrep, h, ?_⟩
    have hnone : {a | ∃ k < 0, a ∈ r₀.uses env name tables k} = ∅ := by
      ext a
      simp
    rw [hnone]
    exact .refl _ _
  | succ i ih =>
    intro w hi hrun
    rw [startupLoop] at hrun
    obtain ⟨_, w₁, hloop, hstep⟩ := bind_ok_iff.1 hrun
    rw [List.getElem?_eq_getElem hi] at hstep
    obtain ⟨r₁, hsite₁, hrep₁, h₁, hgrows₁⟩ := ih (by omega) hloop
    have hmatch := startupStep_simulates env hapart i env.network[i] w₁ r₁ hrep₁
    rw [hstep, ← hname, ← hserial] at hmatch
    obtain ⟨_, r, hsite, hrep'⟩ := hmatch.of_ok_left
    have h' := h₁.turn (List.getElem?_eq_getElem hi) (siteStep_cases hsite)
    refine ⟨r, ?_, hrep', h', ?_⟩
    · rw [siteLoop, bind_of_ok hsite₁, List.getElem?_eq_getElem hi]
      exact hsite
    · have hgrows := startupStep_uses hapart hrep₁ hname hserial h₁ h' hstep hsite
      have hslots : tableSlots n r₁.ports = tableSlots n tables := by
        refine tableSlots_congr fun l => ?_
        rw [h₁.ports, List.length_map]
      have hsame : ∀ k < i, r.slot k = r₁.slot k := fun k hk =>
        (siteStep_cases hsite).slot_of_ne (by omega)
      have hall : {a | ∃ k < i + 1, a ∈ r.uses env name tables k} =
          {a | ∃ k < i, a ∈ r₁.uses env name tables k} ∪ r.uses env name tables i := by
        ext a
        simp only [Set.mem_ofPred_eq, Set.mem_union, Nat.lt_succ_iff_lt_or_eq]
        constructor
        · rintro ⟨k, hk | rfl, ha⟩
          · exact Or.inl ⟨k, hk, Site.uses_congr hsame hk ▸ ha⟩
          · exact Or.inr ha
        · rintro (⟨k, hk, ha⟩ | ha)
          · exact ⟨k, Or.inl hk, (Site.uses_congr hsame hk).symm ▸ ha⟩
          · exact ⟨i, Or.inr rfl, ha⟩
      rw [hall]
      exact hgrows₁.trans (hslots ▸ hgrows)

end Loop

/-! ### The bounds -/

variable {Setting : Type} [LibConfig Setting]

/-- What is used before the loop. -/
theorem beforeLoop_accesses {root : Setting} {junk : ℕ → DeviceJunk}
    (hzero : ∀ j, (junk j).numberOfPins = 0) {simJunk : SimulatorJunk} {env : Env} {w : World}
    (h : (beforeLoop (some root) junk simJunk env).run World.init = .ok () w) (a : Access) :
    a ∈ w.mem.accesses ↔ ((∃ k < (devicesOf root).length, a = .devices k) ∨
      ∃ g ∈ devicesOf root, ∃ k < (groupTable g).length, a = .pins k) ∨ a = .simConfig := by
  unfold beforeLoop at h
  obtain ⟨ret, w₁, hload, h⟩ := bind_ok_iff.1 h
  obtain ⟨_, w₂, hsim, hafter⟩ := bind_ok_iff.1 h
  obtain ⟨simConfig, rfl⟩ := loadSimulatorDetails_frame hsim
  obtain rfl := afterSimulatorDetails_ok hafter
  have hloaded : (loadConfiguredDevices (.loaded root) junk).run World.init = .ok ret w₁ := hload
  have hw₁ : loadedWorld root junk = w₁ := by rw [loadedWorld, hloaded, final_ok]
  rw [← loadConfiguredDevices_accesses hzero, hw₁, ← List.mem_singleton, ← List.mem_append]
  rfl

/-- The log of a startup, up to its turn `i`. -/
theorem ReachesTurn.uses {root : Setting} {junk : ℕ → DeviceJunk} {simJunk : SimulatorJunk}
    {env : Env} {i : ℕ} {w : World} (h : ReachesTurn root junk simJunk env i w)
    (hzero : ∀ j, (junk j).numberOfPins = 0) :
    ∃ D ptr r, Reaches root junk env i D ptr w r ∧ ∀ P : Access → Prop,
      (∀ a ∈ w.mem.accesses, P a) ↔
        ((∀ k < (devicesOf root).length, P (.devices k)) ∧
          (∀ g ∈ devicesOf root, ∀ k < (groupTable g).length, P (.pins k)) ∧ P .simConfig) ∧
        ∀ k < i, ∀ a ∈ r.uses env (configuredName junk (devicesOf root))
          (Site.loaded (devicesOf root)).ports k, P a := by
  obtain ⟨hi, w₀, hbefore, hloop⟩ := h
  obtain ⟨D, ptr, hconf, hrep⟩ := beforeLoop_represents hzero hbefore
  obtain ⟨r, hsite, hrep', -, hgrows⟩ := startupLoop_uses hconf.apart hrep hconf.name hconf.serial
    (explained_loaded env _ _ (devicesOf root)) hi hloop
  have hbefore' := beforeLoop_accesses hzero hbefore
  have hslots : ∀ a ∈ tableSlots (devicesOf root).length (Site.loaded (devicesOf root)).ports,
      a ∈ w₀.mem.accesses := by
    rintro a ⟨l, hl, k, hk, rfl⟩
    rw [loaded_ports hl] at hk
    exact (hbefore' _).2 (Or.inl (Or.inr ⟨_, List.getElem_mem hl, k, hk, rfl⟩))
  refine ⟨D, ptr, r, ⟨hi, hsite, hconf, hrep'⟩, fun P => ?_⟩
  rw [hgrows.forall_iff hslots P]
  refine and_congr ?_ ⟨fun hall k hk a ha => hall a ⟨k, hk, ha⟩, fun hall a ⟨k, hk, ha⟩ =>
    hall k hk a ha⟩
  constructor
  · intro hall
    exact ⟨fun k hk => hall _ ((hbefore' _).2 (Or.inl (Or.inl ⟨k, hk, rfl⟩))),
      fun g hg k hk => hall _ ((hbefore' _).2 (Or.inl (Or.inr ⟨g, hg, k, hk, rfl⟩))),
      hall _ ((hbefore' _).2 (Or.inr rfl))⟩
  · rintro ⟨hdevices, hpins, hsim⟩ a ha
    rcases (hbefore' a).1 ha with (⟨k, hk, rfl⟩ | ⟨g, hg, k, hk, rfl⟩) | rfl
    · exact hdevices k hk
    · exact hpins g hg k hk
    · exact hsim

/-- What a turn used was in bounds exactly when its slot is one of `devices[]`, its records fit its
board, and those of a type with a case passed the check. -/
theorem turnUses_inBounds_iff (env : Env) (i : ℕ) (image : PoKeysDevice) {ports : List DevicePort}
    (hknown : ∀ p ∈ ports, IndexesPins p ∨ isPwm p = true)
    (hpin : ∀ p ∈ ports, isPwm p = true → 17 ≤ p.pin ∧ p.pin ≤ 22) :
    (∀ a ∈ turnUses env i image ports, a.InBounds) ↔
      (∀ p ∈ ports, (incorrectType p.type).isSome → passesCheck env.lib image p = true) ∧
        i < maxDevices ∧ ∀ p ∈ ports, FitsBoard image.iPinCount p := by
  have hdevices : (Access.devices i).InBounds ↔ i < maxDevices := by
    show 0 ≤ (i : ℤ) ∧ (i : ℤ) < maxDevices ↔ _
    omega
  have htexts := fun p => textUses_inBounds_iff env.lib image p
  have hport := fun p (hp : p ∈ ports) junk =>
    portUses_inBounds_iff (hknown p hp) (hpin p hp) junk image.iPinCount
  rw [← hdevices]
  constructor
  · intro hall
    refine ⟨fun p hp => (htexts p).1 fun a ha => hall a (Or.inl ⟨p, hp, ha⟩),
      hall _ (Or.inr (Or.inl rfl)), fun p hp => ?_⟩
    obtain ⟨k, hk⟩ := List.mem_iff_getElem?.1 hp
    exact (hport p hp (env.junk i k)).1 fun a ha =>
      hall a (Or.inr (Or.inr ⟨(p, k), List.mem_zipIdx_iff_getElem?.2 hk, ha⟩))
  · rintro ⟨hpassed, hslot, hports⟩ a (⟨p, hp, ha⟩ | rfl | ⟨e, he, ha⟩)
    · exact (htexts p).2 (hpassed p hp) a ha
    · exact hslot
    · have hp := List.fst_mem_of_mem_zipIdx he
      exact (hport e.1 hp (env.junk i e.2)).2 (hports e.1 hp) a ha

section Reaches

variable {root : Setting} {junk : ℕ → DeviceJunk} {env : Env} {i : ℕ} {D : ℕ → Device}
  {ptr : ℕ → List ℕ} {w : World} {r : Site}

theorem Site.uses_eq {k : ℕ} {t : Slot}
    (ht : r.slot k = some t) {pokey : PoKeysDevice} (hfound : t.found env k = some pokey)
    (hl : t.source < (devicesOf root).length) :
    r.uses env (configuredName junk (devicesOf root)) (Site.loaded (devicesOf root)).ports k =
      turnUses env k (checkedImage env (configuredName junk (devicesOf root)) k t.source pokey)
        ((groupTable (devicesOf root)[t.source]).map
          (r.marked env (configuredName junk (devicesOf root)) (k + 1) t.source)) := by
  rw [Site.uses, ht, Option.elim_some, hfound, Option.elim_some, loaded_ports hl]

/-- Checking and applying leave the number of pins. -/
theorem Reaches.iPinCount_eq (h : Reaches root junk env i D ptr w r) {k : ℕ} {t : Slot}
    {image pokey : PoKeysDevice} (ht : r.slot k = some t) (himage : t.image = some image)
    (hfound : t.found env k = some pokey) : image.iPinCount =
      (checkedImage env (configuredName junk (devicesOf root)) k t.source pokey).iPinCount := by
  obtain ⟨-, nd, pokey', -, -, hfound', hvalue⟩ := h.explained.up k t image ht himage
  cases hfound.symm.trans hfound'
  rw [hvalue, appliedImage, appliedTable_image]

/-- What a connected slot used was in bounds exactly when the slot and its records fit, and the
records of a type with a case are valid. -/
theorem Reaches.uses_inBounds_iff (h : Reaches root junk env i D ptr w r)
    (hserials : (env.network.map NetworkDeviceSummary.serialNumber).Nodup) {k : ℕ} {t : Slot}
    {image : PoKeysDevice} (ht : r.slot k = some t) (himage : t.image = some image) :
    (∀ a ∈ r.uses env (configuredName junk (devicesOf root))
        (Site.loaded (devicesOf root)).ports k, a.InBounds) ↔
      (∀ p, some p ∈ SimPokey.tableOf w.mem (slotDevice D t) → (incorrectType p.type).isSome →
        p.valid ≠ pinInvalid) ∧
      k < maxDevices ∧ ∀ p, some p ∈ SimPokey.tableOf w.mem (slotDevice D t) →
        FitsBoard image.iPinCount p := by
  have hl := h.represents.source k t ht
  obtain ⟨hki, -, pokey, -, -, hfound, -⟩ := h.explained.up k t image ht himage
  let checked := checkedImage env (configuredName junk (devicesOf root)) k t.source pokey
  have hown := fun i' (hk : k < i') => h.explained.marked_own hserials ht hfound hk
    (groupTable (devicesOf root)[t.source])
  rw [Site.uses_eq ht hfound hl, h.tableOf hl, hown i hki, hown (k + 1) (by omega),
    turnUses_inBounds_iff, h.iPinCount_eq ht himage hfound]
  · simp only [List.mem_map_of_injective (Option.some_injective _)]
    refine and_congr_left fun _ => forall₂_congr fun p' hp' => ?_
    obtain ⟨p, hp, rfl⟩ := List.mem_map.1 hp'
    rw [validated_valid_iff env.lib checked (of_mem_acceptedTable hp).1, passesCheck_validated]
  · intro p' hp'
    obtain ⟨p, hp, rfl⟩ := List.mem_map.1 hp'
    by_cases hvalid : (validated env.lib checked p).valid = pinInvalid
    · exact Or.inl (Or.inl hvalid)
    · have hmarked := List.map_inj_left.1 (hown (k + 1) (by omega)) p hp
      have htype := Site.marked_type hp (hmarked ▸ hvalid)
      rw [IndexesPins, isPwm_iff, validated_type]
      rcases htype with htype | htype | htype
      · exact Or.inl (Or.inr (Or.inr htype))
      · exact Or.inl (Or.inr (Or.inl htype))
      · exact Or.inr ⟨hvalid, htype⟩
  · intro p' hp' hpwm
    obtain ⟨p, hp, rfl⟩ := List.mem_map.1 hp'
    have htype := ((isPwm_iff _).1 hpwm).2
    rw [validated_type] at htype
    rw [validated_pin]
    exact (of_mem_acceptedTable_pwm hp htype).2

end Reaches

/-- The startup fits its arrays and its texts: the configuration does, and for every connected slot
the slot does, its records fit its board, and those of a type with a case are valid, so that no
reason was appended to their texts. -/
structure StartupFits (root : Setting) (w : World) : Prop where
  groups : (devicesOf root).length ≤ maxDevices
  tables : ∀ g ∈ devicesOf root, (groupTable g).length ≤ maxPins
  connected : ∀ k d image, w.devices k = some d → d.hasPokey = 1 → d.pokey = some image →
    k < maxDevices ∧ ∀ p, some p ∈ tableOf w.mem d → FitsBoard image.iPinCount p
  texts : ∀ k d, w.devices k = some d → d.hasPokey = 1 → ∀ p, some p ∈ tableOf w.mem d →
    (incorrectType p.type).isSome → p.valid ≠ pinInvalid

/-- **When a startup stays in bounds.**  In every turn, with serial numbers that differ on the
network, every access of the startup so far was in bounds exactly when the configuration fits
`devices[]` and `pins[]`, the slots of the connected devices are slots of `devices[]`, and of their
records the PWM pins that passed the check are all pin 22, the others pins of the board, and those
whose type has a case have all passed. -/
theorem main_inBounds_iff (root : Setting) (junk : ℕ → DeviceJunk) (simJunk : SimulatorJunk)
    (env : Env) (hzero : ∀ j, (junk j).numberOfPins = 0)
    (hserials : (env.network.map NetworkDeviceSummary.serialNumber).Nodup) (i : ℕ) (w : World)
    (hreach : ReachesTurn root junk simJunk env i w) :
    (∀ a ∈ w.mem.accesses, a.InBounds) ↔ StartupFits root w := by
  obtain ⟨D, ptr, r, h, hlog⟩ := hreach.uses hzero
  have hmax : ∀ n bound : ℕ, (∀ k < n, 0 ≤ (k : ℤ) ∧ (k : ℤ) < bound) ↔ n ≤ bound := by
    intro n bound
    constructor
    · intro hall
      by_contra hlt
      have hlast := hall bound (by omega)
      omega
    · intro hle k hk
      omega
  have hloaded : ((∀ k < (devicesOf root).length, (Access.devices k).InBounds) ∧
      (∀ g ∈ devicesOf root, ∀ k < (groupTable g).length, (Access.pins k).InBounds) ∧
        Access.simConfig.InBounds) ↔
      (devicesOf root).length ≤ maxDevices ∧
        ∀ g ∈ devicesOf root, (groupTable g).length ≤ maxPins := by
    refine and_congr (hmax _ _) ?_
    rw [and_iff_left (by trivial : Access.simConfig.InBounds)]
    exact forall₂_congr fun g _ => hmax _ _
  rw [hlog, hloaded]
  constructor
  · rintro ⟨⟨hgroups, htables⟩, hall⟩
    have hslots : ∀ k t image, r.slot k = some t → t.image = some image → _ :=
      fun k t image ht himage => (h.uses_inBounds_iff hserials ht himage).1
        (hall k (h.explained.up k t image ht himage).1)
    refine ⟨hgroups, htables, fun k d image hd hconnected himage => ?_, fun k d hd hconnected => ?_⟩
    · obtain ⟨t, ht, rfl, -⟩ := h.slot hd
      exact (hslots k t image ht himage).2
    · obtain ⟨t, ht, rfl, -⟩ := h.slot hd
      obtain ⟨image, himage⟩ := Option.isSome_iff_exists.1 (isSome_of_hasPokey hconnected)
      exact (hslots k t image ht himage).1
  · rintro ⟨hgroups, htables, hconnected, htexts⟩
    refine ⟨⟨hgroups, htables⟩, fun k _ => ?_⟩
    cases ht : r.slot k with
    | none =>
      rw [Site.uses, ht]
      exact fun a ha => ha.elim
    | some t =>
      cases himage : t.image with
      | none =>
        rw [Site.uses, ht, Option.elim_some, Slot.found_of_idle himage]
        exact fun a ha => ha.elim
      | some image =>
        have hd : w.devices k = some (slotDevice D t) := by rw [h.represents.devices, ht]; rfl
        have hup : (slotDevice D t).hasPokey = 1 := by simp [slotDevice, himage]
        exact (h.uses_inBounds_iff hserials ht himage).2
          ⟨htexts k _ hd hup, hconnected k _ image hd hup himage⟩

/-- The PWM channel 4 of the lamp is enabled in a block that has one cell. -/
theorem main_inBounds_iff_lamp :
    ¬ ∀ a ∈ (final (cleanRun lamp lampFound)).mem.accesses, a.InBounds := by
  intro hall
  have hfits := (main_inBounds_iff lamp (fun _ => .cleared) ⟨none, none, 0, 0⟩ lampFound
    (fun _ => rfl) (by decide) _ _ (reachesTurn_of_main lampFound_returns)).1 hall
  obtain ⟨d, hd, hconnected⟩ := lampFound_connected
  have hslot : ((final (cleanRun lamp lampFound)).devices 0).map (fun d =>
      (d.pokey.isSome, tableOf (final (cleanRun lamp lampFound)).mem d)) =
        some (true, [some ⟨"Undefined", 3, PinType.digitalOutput, 0, 1, 0, 0, 0⟩,
          some ⟨"Undefined", 19, PinType.pwmInput, 0, 1, 0, 0, 40⟩]) := by
    decide +kernel
  rw [hd, Option.map_some, Option.some.injEq, Prod.mk.injEq] at hslot
  obtain ⟨hpokey, htable⟩ := hslot
  obtain ⟨image, himage⟩ := Option.isSome_iff_exists.1 hpokey
  have hport := (hfits.connected 0 d image hd hconnected himage).2
    ⟨"Undefined", 19, PinType.pwmInput, 0, 1, 0, 0, 40⟩
    (by rw [htable]; exact List.mem_cons_of_mem _ List.mem_cons_self)
  exact absurd (show (19 : ℤ) = 22 from hport) (by decide)

/-! ### Polling -/

/-- A connected slot has used the element of `Pins[]` of each of its inputs. -/
theorem Reaches.uses_input {root : Setting} {junk : ℕ → DeviceJunk} {env : Env} {i : ℕ}
    {D : ℕ → Device} {ptr : ℕ → List ℕ} {w : World} {r : Site}
    (h : Reaches root junk env i D ptr w r) {k : ℕ} {t : Slot} {image : PoKeysDevice}
    (ht : r.slot k = some t) (himage : t.image = some image)
    (hl : t.source < (devicesOf root).length) {p : DevicePort}
    (hp : p ∈ groupTable (devicesOf root)[t.source]) (htype : p.type = PinType.digitalInput) :
    .pokeyPins image.iPinCount (p.pin - 1) ∈
      r.uses env (configuredName junk (devicesOf root)) (Site.loaded (devicesOf root)).ports k := by
  let p' := r.marked env (configuredName junk (devicesOf root)) (k + 1) t.source p
  have hsame : p' = { p with valid := p'.valid } := Site.marked_same ..
  obtain ⟨j, hj⟩ := List.mem_iff_getElem?.1 (List.mem_map_of_mem (f := r.marked env
    (configuredName junk (devicesOf root)) (k + 1) t.source) hp)
  have hindexes : IndexesPins p' := Or.inr (Or.inr (by rw [hsame]; exact htype))
  obtain ⟨-, nd, pokey, -, -, hfound, -⟩ := h.explained.up k t image ht himage
  rw [Site.uses_eq ht hfound hl, h.iPinCount_eq ht himage hfound]
  refine Or.inr (Or.inr ⟨(p', j), List.mem_zipIdx_iff_getElem?.2 hj, ?_⟩)
  rw [portUses_of_indexes hindexes, hsame]
  exact List.mem_singleton_self _

/-- **Polling uses nothing new.**  With serial numbers that differ on the network, loops on the
connected slots run under every schedule, and all they use was used by the startup: if that stayed
in bounds, so do they. -/
theorem main_polls_uses (root : Setting) (junk : ℕ → DeviceJunk) (simJunk : SimulatorJunk)
    (env : Env) (hzero : ∀ j, (junk j).numberOfPins = 0)
    (hserials : (env.network.map NetworkDeviceSummary.serialNumber).Nodup) (i : ℕ) (w : World)
    (hreach : ReachesTurn root junk simJunk env i w) (readings : ℕ → List Reading)
    (schedule : List ℕ) (hschedule : ∀ k ∈ schedule, k ∈ w.connected) :
    ∃ loops' m', (runLoops schedule (w.loopAt readings)).run w.mem = .ok loops' m' ∧
      ∀ a ∈ m'.accesses, a ∈ w.mem.accesses := by
  obtain ⟨D, ptr, r, h, hlog⟩ := hreach.uses hzero
  obtain ⟨t, T, hc⟩ := h.connectedTables hserials
  obtain ⟨⟨-, hpins, -⟩, hslots⟩ := (hlog (· ∈ w.mem.accesses)).1 fun _ ha => ha
  have hstart : Watches w.connected w.mem fun k => ⟨w.loopAt readings k, T k⟩ :=
    ⟨fun k hk => ⟨(hc.loopAt hk readings).symm ▸ hc.holds k hk,
      (hc.loopAt hk readings).symm ▸ hc.image k hk⟩, hc.apart⟩
  obtain ⟨m', hrun, -⟩ := hstart.run hschedule
  have hwithin : ∀ k ∈ w.connected, Watch.Within {a | a ∈ w.mem.accesses}
      (((t k).image.map PoKeysDevice.iPinCount).getD 0) ⟨w.loopAt readings k, T k⟩ := by
    intro k hk
    obtain ⟨image, himage⟩ := Option.isSome_iff_exists.1 (hc.image k hk)
    obtain ⟨hl, hlen⟩ := hc.length hk
    obtain ⟨_, hrecords⟩ := hc.records k hk
    have hki := (h.explained.up k (t k) image (hc.slot k hk) himage).1
    refine ⟨fun pokey hpokey => ?_, fun pokey j hlocals => ?_, fun j hj => ?_, fun e he htype => ?_⟩
    · rw [hc.loopAt hk readings] at hpokey
      have hpokey' : (t k).image = some pokey := hpokey
      rw [hpokey']
      rfl
    · cases hlocals
    · exact hpins _ (List.getElem_mem hl) j (hlen ▸ hj)
    · have hmem : e.2 ∈ records (T k) := List.mem_map_of_mem he
      rw [hrecords] at hmem
      obtain ⟨p, hp, hsame⟩ := List.mem_map.1 hmem
      rw [← hsame, Site.marked_same] at htype ⊢
      have hused := h.uses_input (hc.slot k hk) himage hl hp htype
      rw [himage]
      exact hslots k hki _ hused
  have huses := hstart.run_uses hwithin hschedule
  rw [hrun, final_ok] at huses
  obtain ⟨new, hnew, hall⟩ := huses
  refine ⟨_, m', hrun, fun a ha => ?_⟩
  rw [hnew] at ha
  exact (List.mem_append.1 ha).elim id (hall a)

instance (a : Access) : Decidable a.InBounds :=
  match a with
  | .devices _ | .pins _ | .pokeyPins _ _ | .block _ _ => inferInstanceAs (Decidable (_ ∧ _))
  | .text _ _ => inferInstanceAs (Decidable (_ < _))
  | .simConfig => inferInstanceAs (Decidable True)

/-- The two keys are polled within bounds. -/
theorem main_polls_uses_keys : ∃ loops' m',
    (runLoops [0, 1, 1, 0, 0, 1] ((final (cleanRun keys keysFound)).loopAt
      fun _ => [readingOf 1])).run (final (cleanRun keys keysFound)).mem = .ok loops' m' ∧
      ∀ a ∈ m'.accesses, a.InBounds := by
  have hmain := ok_of_value (by decide +kernel : value (cleanRun keys keysFound) = some 0)
  have hconnected : ∀ k ∈ [0, 1, 1, 0, 0, 1], k ∈ (final (cleanRun keys keysFound)).connected := by
    have hup : ∀ k ∈ [0, 1, 1, 0, 0, 1],
        ((final (cleanRun keys keysFound)).devices k).map Device.hasPokey = some 1 := by
      decide +kernel
    exact fun k hk => Option.map_eq_some_iff.1 (hup k hk)
  obtain ⟨loops', m', hrun, hused⟩ := main_polls_uses keys (fun _ => .cleared)
    ⟨none, none, 0, 0⟩ keysFound (fun _ => rfl) (by decide) _ _ (reachesTurn_of_main hmain)
    (fun _ => [readingOf 1]) _ hconnected
  have hstartup : ∀ a ∈ (final (cleanRun keys keysFound)).mem.accesses, a.InBounds := by
    decide +kernel
  exact ⟨loops', m', hrun, fun a ha => hstartup a (hused a ha)⟩

end SimPokey
