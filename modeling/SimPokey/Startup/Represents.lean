import SimPokey.Lib.Simulation
import SimPokey.Startup.Site
import SimPokey.Startup.Texts
import SimPokey.Startup.Turns

/-!
# The startup loop on the heap does what it does on a site

`Represents` relates a world to a site: each slot holds the record its `Slot` stands for, and the
tables of the configured devices, whose pointers never change, lead to the site's records.  As
long as no two configured devices share a pointer, a turn of the startup loop on the world is
simulated by the turn on the site, fault for fault (`startupLoop_simulates`).
-/

namespace SimPokey

open FaultState

/-! ### Dumping -/

/-- Reading slots keeps the table. -/
theorem Holds.read {m : Memory} {d : Device} {T : List (ℕ × DevicePort)} (h : Holds m d T)
    (acc : List Access) : Holds { m with accesses := acc } d T :=
  h.mono (List.prefix_refl _)

/-- `dumpDevice` on a table reads its slots, and nothing else happens. -/
theorem dumpDevice_of_holds {m : Memory} {d : Device} {T : List (ℕ × DevicePort)}
    (h : Holds m d T) (hpokey : d.hasPokey = 0 ∨ d.pokey.isSome) :
    ∃ acc, (dumpDevice d).run m = .ok () { m with accesses := acc } := by
  have hrows : ∃ b' m', ((List.range d.numberOfPins.toNat).foldlM
      (fun (_ : Unit) (y : ℕ) => do let _ ← portAt d y; pure ()) ()).run m = .ok b' m' ∧
        ∃ acc, m' = { m with accesses := acc } := by
    rw [h.count, Int.toNat_natCast]
    refine rangeM_total (fun _ _ m' => ∃ acc, m' = { m with accesses := acc })
      ⟨m.accesses, rfl⟩ ?_
    rintro i hi _ _ ⟨acc, rfl⟩
    have hread := portAt_of_holds (h.read acc) (List.getElem?_eq_getElem hi)
    exact ⟨(), _, bind_of_ok hread, _, rfl⟩
  obtain ⟨_, m', hrun, acc, rfl⟩ := hrows
  refine ⟨acc, ?_⟩
  unfold dumpDevice
  dsimp only
  rw [run_ite]
  split_ifs with hzero
  · exact hrun
  · obtain ⟨pokey, hsome⟩ := Option.isSome_iff_exists.1 (hpokey.resolve_left hzero)
    rw [bind_of_ok (pokeyOf_run hsome m)]
    exact hrun

/-- So does `dumpDevices` on a registry whose active slots are filled. -/
theorem dumpDevices_of_holds {w : World}
    (h : ∀ i < w.activeDevices, ∃ d T, w.devices i = some d ∧ Holds w.mem d T ∧
      (d.hasPokey = 0 ∨ d.pokey.isSome)) :
    ∃ acc, dumpDevices.run w = .ok () { w with mem := { w.mem with accesses := acc } } := by
  have hloop : ∃ b' w', ((List.range w.activeDevices).foldlM (fun (_ : Unit) i => do
      let device ← deviceAt i
      onMem (dumpDevice device)) ()).run w = .ok b' w' ∧
        ∃ acc, w' = { w with mem := { w.mem with accesses := acc } } := by
    refine rangeM_total
      (fun _ _ w' => ∃ acc, w' = { w with mem := { w.mem with accesses := acc } })
      ⟨w.mem.accesses, rfl⟩ ?_
    rintro i hi _ _ ⟨acc, rfl⟩
    obtain ⟨d, T, hd, hT, hpokey⟩ := h i hi
    obtain ⟨acc', hdump⟩ := dumpDevice_of_holds (hT.read acc) hpokey
    have hread : (deviceAt i).run { w with mem := { w.mem with accesses := acc } } =
        .ok d { w with mem := { w.mem with accesses := acc } } := by
      simp only [deviceAt, EStateM.run, hd]
    refine ⟨(), { w with mem := { w.mem with accesses := acc' } }, ?_, acc', rfl⟩
    rw [bind_of_ok hread]
    exact onPart_of_ok hdump
  obtain ⟨_, w', hrun, acc, rfl⟩ := hloop
  exact ⟨acc, hrun⟩

/-! ### Worlds and sites -/

/-- The record a slot stands for; `D` are the records of the configured devices. -/
def slotDevice (D : ℕ → Device) (t : Slot) : Device :=
  { D t.source with
    addr := t.addr
    pokey := t.image
    hasPokey := if t.image.isSome then 1 else 0 }

/-- A copy of a record has its table. -/
theorem Holds.copy {m : Memory} {d : Device} {T : List (ℕ × DevicePort)} (h : Holds m d T)
    (addr : ℕ) (pokey : Option PoKeysDevice) (hasPokey : ℤ) :
    Holds m { d with addr := addr, pokey := pokey, hasPokey := hasPokey } T :=
  ⟨h.count, h.slot, h.port, h.nodup⟩

/-- With `m` devices on the network and `n` configured ones, whose tables have the pointers `ptr`,
the world `w` is the site `r`. -/
structure Represents (m n : ℕ) (D : ℕ → Device) (ptr : ℕ → List ℕ) (w : World) (r : Site) :
    Prop where
  numberOfDevices : w.numberOfDevices = m
  activeDevices : w.activeDevices = n
  shutdown : w.shutdown = []
  brk : w.brk = r.brk
  sent : w.mem.sent = r.sent
  messages : w.mem.messages = []
  devices : ∀ k, w.devices k = (r.slot k).map (slotDevice D)
  filled : ∀ k < n, ∃ t, r.slot k = some t
  source : ∀ k t, r.slot k = some t → t.source < n
  table : ∀ l < n, ∃ T, Holds w.mem (D l) T ∧ T.map Prod.fst = ptr l ∧ records T = r.ports l
  texts : w.mem.AllTextsFit ↔ r.textsFit = true

/-- Where a world and a site stop, the texts written so far fit in both or in neither. -/
def SameTexts (w : World) (r : Site) : Prop := w.mem.AllTextsFit ↔ r.textsFit = true

section Simulation

variable (env : Env) {m n : ℕ} {D : ℕ → Device} {ptr : ℕ → List ℕ}

theorem Represents.dumpDevices {w : World} {r : Site} (h : Represents m n D ptr w r) :
    ∃ acc, dumpDevices.run w = .ok () { w with mem := { w.mem with accesses := acc } } := by
  refine dumpDevices_of_holds fun i hi => ?_
  obtain ⟨t, ht⟩ := h.filled i (h.activeDevices ▸ hi)
  obtain ⟨T, hT, -, -⟩ := h.table t.source (h.source i t ht)
  refine ⟨slotDevice D t, T, by rw [h.devices, ht]; rfl, hT.copy .., ?_⟩
  cases himage : t.image with
  | none => exact Or.inl (by simp [slotDevice, himage])
  | some image => exact Or.inr (by simp [slotDevice, himage])

/-- The tables after the records of the configured device `l` were checked: those of the others
are where they were. -/
theorem Represents.table_checked {w : World} {r : Site} (h : Represents m n D ptr w r)
    (hapart : ∀ l < n, ∀ l' < n, l ≠ l' → List.Disjoint (ptr l) (ptr l')) {l : ℕ} (hl : l < n)
    {T : List (ℕ × DevicePort)} (hptr : T.map Prod.fst = ptr l) (hrec : records T = r.ports l)
    {lib : PoKeysLib} {image : PoKeysDevice} {m' : Memory}
    (hholds : Holds m' (D l) (validatedTable lib image T))
    (hothers : ∀ p, p ∉ T.map Prod.fst → m'.ports[p]? = w.mem.ports[p]?) :
    ∀ k < n, ∃ T', Holds m' (D k) T' ∧ T'.map Prod.fst = ptr k ∧
      records T' = Function.update r.ports l ((r.ports l).map (validated lib image)) k := by
  intro k hk
  by_cases hkl : k = l
  · subst hkl
    refine ⟨validatedTable lib image T, hholds, ?_, ?_⟩
    · rw [← hptr, validatedTable, List.map_map]
      rfl
    · rw [Function.update_self, records_validatedTable, hrec]
  · obtain ⟨T', hT', hptr', hrec'⟩ := h.table k hk
    refine ⟨T', ⟨hT'.count, hT'.slot, fun t ht => ?_, hT'.nodup⟩, hptr', ?_⟩
    · -- a pointer of another device is none of the pointers of `T`
      have hmem : t.1 ∈ ptr k := hptr' ▸ List.mem_map_of_mem ht
      have hnot : t.1 ∉ T.map Prod.fst := fun hin => hapart k hk l hl hkl hmem (hptr ▸ hin)
      rw [hothers t.1 hnot]
      exact hT'.port t ht
    · rw [Function.update_of_ne hkl, hrec']

/-- What the check and the writes to a table leave of the site: the slot `i` holds the copy, and
the records of the configured device are the checked ones. -/
theorem Represents.stored {w : World} {r : Site} (h : Represents m n D ptr w r)
    (hapart : ∀ l < n, ∀ l' < n, l ≠ l' → List.Disjoint (ptr l) (ptr l')) (i : ℕ) {l : ℕ}
    (hl : l < n) {T : List (ℕ × DevicePort)} (hptr : T.map Prod.fst = ptr l)
    (hrec : records T = r.ports l) {lib : PoKeysLib} {image : PoKeysDevice} {mem : Memory}
    (hholds : Holds mem (D l) (validatedTable lib image T))
    (hothers : ∀ p, p ∉ T.map Prod.fst → mem.ports[p]? = w.mem.ports[p]?)
    (hmessages : mem.messages = w.mem.messages) (addr : ℕ)
    (applied : PoKeysDevice × List LibCall) (accesses : List Access) (threads : List ThreadArg)
    {textsFit : Bool} (htexts : (∀ a ∈ accesses, FitsText a) ↔ textsFit = true) :
    Represents m n D ptr
      { w with
        mem := { mem with accesses := accesses, sent := applied.2 }
        devices := Function.update w.devices i (some (slotDevice D ⟨l, addr, some applied.1⟩))
        threads := threads }
      { r with
        slot := Function.update r.slot i (some ⟨l, addr, some applied.1⟩)
        ports := Function.update r.ports l ((r.ports l).map (validated lib image))
        sent := applied.2
        textsFit := textsFit } where
  numberOfDevices := h.numberOfDevices
  activeDevices := h.activeDevices
  shutdown := h.shutdown
  brk := h.brk
  sent := rfl
  messages := hmessages.trans h.messages
  devices := fun k => by
    by_cases hki : k = i
    · simp only [hki, Function.update_self, Option.map_some]
    · simp only [Function.update_of_ne hki]
      exact h.devices k
  filled := fun k hk => by
    by_cases hki : k = i
    · exact ⟨_, by rw [hki]; exact Function.update_self ..⟩
    · obtain ⟨t, ht⟩ := h.filled k hk
      exact ⟨t, (Function.update_of_ne hki ..).trans ht⟩
  source := fun k t ht => by
    by_cases hki : k = i
    · rw [hki] at ht
      simp only [Function.update_self, Option.some.injEq] at ht
      rw [← ht]
      exact hl
    · simp only [Function.update_of_ne hki] at ht
      exact h.source k t ht
  table := fun k hk => by
    obtain ⟨T', hT', hrest⟩ := h.table_checked hapart hl hptr hrec hholds hothers k hk
    exact ⟨T', hT'.mono (List.prefix_refl _), hrest⟩
  texts := htexts

/-- `bringUp` after `devices[i]` was set. -/
def applyAndStart (i : ℕ) (device : Device) : WorldRun Unit := do
  let applied ← onMem (applyConfiguration (env.junk i) device)
  change fun w => { w with devices := Function.update w.devices i (some applied.2) }
  dumpDevices
  startThread (env.threadCreate i) .localInt

/-- The world in which `devices[i]` was set, and the memory is `mem`. -/
def World.stored (w : World) (i : ℕ) (device : Device) (mem : Memory) : World :=
  { ({ w with mem := mem } : World).touch (.devices i) with
    devices := Function.update w.devices i (some device) }

/-- The copy of a configured device is named, its records are checked, and it is stored. -/
theorem bringUp_checked {w : World} {l : ℕ} {T : List (ℕ × DevicePort)}
    (hT : Holds w.mem (D l) T) (i addr : ℕ) (pokey : PoKeysDevice) (old : Option PoKeysDevice)
    (hasPokey : ℤ) : ∃ image device mem, image = checkedImage env (fun l => (D l).name) i l pokey ∧
      device = slotDevice D ⟨l, addr, some image⟩ ∧
      (bringUp env i { D l with addr := addr, pokey := old, hasPokey := hasPokey } pokey).run w =
        (applyAndStart env i device).run (w.stored i device mem) ∧
      Holds mem device (validatedTable env.lib image T) ∧
      Checks env.lib image T (records T) { w.mem with
        sent := w.mem.sent ++ nameCalls (env.afterName i) (D l).name pokey } mem := by
  let named := namedImage (env.afterName i) (D l).name pokey
  obtain ⟨ret, hname⟩ := syncDeviceName_run (d := slotDevice D ⟨l, addr, some pokey⟩) rfl
    (env.afterName i) (env.nameSet i) w.mem
  let sentName : World := { w with mem := { w.mem with
    sent := w.mem.sent ++ nameCalls (env.afterName i) (D l).name pokey } }
  have hnamed : Holds sentName.mem (slotDevice D ⟨l, addr, some named⟩) T :=
    (hT.copy addr (some named) 1).mono (List.prefix_refl _)
  obtain ⟨mem, hcheck, hholds, hchecks⟩ := checkValidPinConfiguration_holds env.lib hnamed
    one_ne_zero rfl
  exact ⟨_, _, mem, rfl, rfl, (bind_of_ok (onMem_of_ok hname)).trans
    (bind_of_ok (onMem_of_ok (w := sentName) hcheck)), hholds, hchecks⟩

theorem casesPass_iff (lib : PoKeysLib) (image : PoKeysDevice) (ps : List DevicePort) :
    casesPass lib image ps = true ↔
      ∀ p ∈ ps, (incorrectType p.type).isSome → passesCheck lib image p = true := by
  rw [casesPass, List.all_eq_true]
  refine forall₂_congr fun p _ => ?_
  cases incorrectType p.type <;> simp

/-- Bringing up the copy of a configured device. -/
theorem bringUp_simulates (hapart : ∀ l < n, ∀ l' < n, l ≠ l' → List.Disjoint (ptr l) (ptr l'))
    {w : World} {r : Site} (h : Represents m n D ptr w r) (i : ℕ) {l : ℕ} (hl : l < n) (addr : ℕ)
    (pokey : PoKeysDevice) (old : Option PoKeysDevice) (hasPokey : ℤ) :
    Matches SameTexts (fun _ _ => Represents m n D ptr)
      ((bringUp env i { D l with addr := addr, pokey := old, hasPokey := hasPokey } pokey).run w)
      ((siteBringUp env (fun l => (D l).name) i l addr pokey).run r) := by
  obtain ⟨T, hT, hptr, hrec⟩ := h.table l hl
  obtain ⟨image, device, mem, himage, rfl, hbegin, hholds, hchecks⟩ :=
    bringUp_checked env hT i addr pokey old hasPokey
  let calls := nameCalls (env.afterName i) (D l).name pokey
  let copy : PoKeysDevice → Device := fun pokey => slotDevice D ⟨l, addr, some pokey⟩
  let stored := w.stored i (copy image) mem
  let fit := r.textsFit && casesPass env.lib image (r.ports l)
  have hsent : mem.sent = r.sent ++ calls := by rw [hchecks.sent, ← h.sent]
  have hstored : tableOf stored.mem (copy image) =
      ((r.ports l).map (validated env.lib image)).map some := by
    rw [← hrec, ← records_validatedTable]
    have hholds' : Holds stored.mem _ _ := hholds.mono (List.prefix_refl _)
    exact hholds'.tableOf_eq
  -- the texts of the check
  have hfit : stored.mem.AllTextsFit ↔ fit = true := by
    have htouch : TextsFit mem stored.mem := .touch (fun _ _ h => by cases h) mem
    rw [htouch.all_iff, hchecks.all_iff, hrec, ← casesPass_iff, Bool.and_eq_true, ← h.texts]
    rfl
  rw [hbegin, siteBringUp_run, ← himage]
  -- its records are applied
  have happlied := applyConfiguration_texts (env.junk i) (copy image) stored.mem
  by_cases hany : ((r.ports l).map (validated env.lib image)).any dividesByZero = true
  · obtain ⟨mem', happly⟩ := applyPinConfigurationToDevice_stops hstored rfl hany (env.junk i)
    have hstop : (applyConfiguration (env.junk i) (copy image)).run stored.mem =
        .error .divisionByZero mem' := bind_of_error happly
    rw [hstop, final_error] at happlied
    unfold applyAndStart
    dsimp only
    rw [if_pos hany, bind_of_error (onMem_of_error (w := stored) hstop)]
    exact .error _ (happlied.all_iff.trans hfit)
  · have hdiv : ∀ p ∈ (r.ports l).map (validated env.lib image), dividesByZero p = false := by
      simpa using hany
    obtain ⟨acc, happly⟩ := applyPinConfigurationToDevice_eq hstored rfl hdiv (env.junk i)
    let applied := appliedTable (env.junk i) ((r.ports l).map (validated env.lib image))
      (image, r.sent ++ calls)
    have hret : (applyConfiguration (env.junk i) (copy image)).run stored.mem =
        .ok (0, copy applied.1) { mem with accesses := acc, sent := applied.2 } := by
      simp only [applied, ← hsent]
      exact bind_of_ok happly
    rw [hret, final_ok] at happlied
    have hfitApplied : (∀ a ∈ acc, FitsText a) ↔ fit = true := happlied.all_iff.trans hfit
    -- whatever else was recorded, and whether the thread starts, the site is represented
    have hfinal := fun acc threads (hacc : (∀ a ∈ acc, FitsText a) ↔ fit = true) =>
      h.stored hapart i hl hptr hrec (hholds.copy (D l).addr (D l).pokey (D l).hasPokey)
        hchecks.others hchecks.messages addr applied acc threads hacc
    obtain ⟨acc', hdump⟩ := (hfinal acc w.threads hfitApplied).dumpDevices
    have hfitDumped : (∀ a ∈ acc', FitsText a) ↔ fit = true :=
      (dumpDevices_texts hdump).all_iff.trans hfitApplied
    have hdevices : Function.update stored.devices i (some (copy applied.1)) =
        Function.update w.devices i (some (copy applied.1)) := Function.update_idem ..
    have hrun : (applyAndStart env i (copy image)).run stored =
      (startThread (env.threadCreate i) .localInt).run { w with
        mem := { mem with accesses := acc', sent := applied.2 }
        devices := Function.update w.devices i (some (copy applied.1)) } := by
      rw [← hdevices] at hdump ⊢
      exact (bind_of_ok (onMem_of_ok (w := stored) hret)).trans
        ((bind_of_ok rfl).trans (bind_of_ok hdump))
    dsimp only
    rw [if_neg hany, hrun]
    unfold startThread EStateM.run
    dsimp only
    split_ifs
    · exact .ok (hfinal acc' (w.threads ++ [.localInt]) hfitDumped)
    · exact .ok (hfinal acc' w.threads hfitDumped)

/-- More blocks are allocated. -/
theorem Represents.allocated {w : World} {r : Site} (h : Represents m n D ptr w r) (k : ℕ) :
    Represents m n D ptr { w with brk := w.brk + k } { r with brk := r.brk + k } :=
  ⟨h.numberOfDevices, h.activeDevices, h.shutdown, congrArg (· + k) h.brk, h.sent, h.messages,
    h.devices, h.filled, h.source, h.table, h.texts⟩

/-- The search for a serial number stops at the same slot. -/
theorem Represents.search {w : World} {r : Site} (h : Represents m n D ptr w r) (s : String) :
    (List.range w.numberOfDevices).find? (stopsAt w s) =
      r.search (fun l => (D l).serialNumber) m s := by
  rw [h.numberOfDevices, Site.search]
  congr 1
  funext j
  rw [stopsAt, h.devices]
  cases r.slot j with
  | none => rfl
  | some t => rfl

/-- A turn of the startup loop. -/
theorem startupStep_simulates (hapart : ∀ l < n, ∀ l' < n, l ≠ l' → List.Disjoint (ptr l) (ptr l'))
    (i : ℕ) (nd : NetworkDeviceSummary) :
    Simulates SameTexts (Represents env.network.length n D ptr)
      (fun _ _ => Represents env.network.length n D ptr) (startupStep env i nd)
      (siteStep env (fun l => (D l).serialNumber) (fun l => (D l).name) i nd) := by
  intro w r h
  rw [startupStep_run, siteStep_run, h.search]
  cases r.search (fun l => (D l).serialNumber) env.network.length (snprintfD nd.serialNumber) with
  | none => exact .ok (h.allocated 1)
  | some j =>
    have hslot := h.devices j
    cases ht : r.slot j with
    | none =>
      rw [ht, Option.map_none] at hslot
      simp only [ht, hslot]
      exact .error _ h.texts
    | some t =>
      rw [ht, Option.map_some] at hslot
      simp only [ht, hslot]
      cases env.connect i with
      | none => exact .ok (h.allocated 2)
      | some pokey =>
        have hup := bringUp_simulates env hapart (h.allocated 2) i (h.source j t ht)
          w.brk { pokey with addr := w.brk + 1 } t.image (if t.image.isSome then 1 else 0)
        simp only [h.brk] at hup ⊢
        exact hup

/-- **The startup loop does on the heap what it does on the site.** -/
theorem startupLoop_simulates (hapart : ∀ l < n, ∀ l' < n, l ≠ l' → List.Disjoint (ptr l) (ptr l'))
    (i : ℕ) :
    Simulates SameTexts (Represents env.network.length n D ptr)
      (fun _ _ => Represents env.network.length n D ptr) (startupLoop env i)
      (siteLoop env (fun l => (D l).serialNumber) (fun l => (D l).name) i) := by
  induction i with
  | zero => exact Simulates.pure fun w r h => h
  | succ i ih =>
    apply ih.bind
    intro _ _
    cases env.network[i]? with
    | none => exact Simulates.pure fun w r h => h
    | some nd => exact startupStep_simulates env hapart i nd

end Simulation

end SimPokey
