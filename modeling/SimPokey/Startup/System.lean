import SimPokey.Pin.PinImage
import SimPokey.Startup.Explained
import SimPokey.Startup.Registry

/-!
# The startup of a configured system

What holds of a whole run of `main`, for every configuration, network and library:

* it does on the heap what the startup loop does on the configured site, as long as the texts of
  the checks fit their blocks (`main_simulates`);
* it returns, or stops at one of two faults, each with its cause, or the check of some turn writes
  past a text (`main_outcome`);
* a record is valid when some copy of its device passed the check for it, and stays so
  (`main_marks`);
* with serial numbers that differ on the network, every connected slot has the declared functions
  of its own table (`main_pinImage`).

The network is what the enumeration has found: `env.network`.
-/

namespace SimPokey

open FaultState LibConfig

variable {Setting : Type} [LibConfig Setting]

/-! ### The refinement -/

section Faults

variable {env : Env} {serial name : ℕ → String}

end Faults

/-- The configured table of a device is its group's. -/
theorem loaded_ports {gs : List Setting} {l : ℕ} (hl : l < gs.length) :
    (Site.loaded gs).ports l = groupTable gs[l] := by
  simp only [Site.loaded, List.getElem?_eq_getElem hl, Option.elim_some]

theorem Site.marked_same (env : Env) (name : ℕ → String) (r : Site) (i l : ℕ) (p : DevicePort) :
    r.marked env name i l p = { p with valid := (r.marked env name i l p).valid } := by
  unfold Site.marked
  split_ifs <;> rfl

/-- The image the check was handed for the record in the slot `k`, if it is connected. -/
def checkedFor (env : Env) (k : ℕ) (d : Device) : Option PoKeysDevice :=
  if d.hasPokey = 1 then
    (env.connect k).map fun (pokey : PoKeysDevice) => env.lib.readPinConfiguration
      (namedImage (env.afterName k) d.name { pokey with addr := d.addr + 1 })
  else none

theorem checkedFor_slotDevice (env : Env) {name : ℕ → String} {D : ℕ → Device}
    (hname : name = fun l => (D l).name) (k : ℕ) (t : Slot) :
    checkedFor env k (slotDevice D t) =
      (t.found env k).map (checkedImage env name k t.source) := by
  subst hname
  unfold checkedFor Slot.found slotDevice
  cases t.image with
  | none => rfl
  | some image =>
    simp only [Option.isSome_some, if_true, Option.map_map]
    rfl

/-- The world `w` of the turn `i` represents the site `r` of that turn. -/
structure Reaches (root : Setting) (junk : ℕ → DeviceJunk) (env : Env) (i : ℕ) (D : ℕ → Device)
    (ptr : ℕ → List ℕ) (w : World) (r : Site) : Prop where
  le : i ≤ env.network.length
  run : (siteStartup junk env (devicesOf root) i).run (.loaded (devicesOf root)) = .ok () r
  configured : Configured junk (devicesOf root) D ptr
  represents : Represents env.network.length (devicesOf root).length D ptr w r

/-- The worlds of all turns of a run are made of the same configured devices. -/
theorem ReachesTurn.allReach {root : Setting} {junk : ℕ → DeviceJunk} {simJunk : SimulatorJunk}
    {env : Env} {i : ℕ} {w : World} (h : ReachesTurn root junk simJunk env i w)
    (hzero : ∀ j, (junk j).numberOfPins = 0) : ∃ D ptr, ∀ i' w',
      ReachesTurn root junk simJunk env i' w' → ∃ r, Reaches root junk env i' D ptr w' r := by
  obtain ⟨D, ptr, hconf, hsites⟩ := h.sites hzero
  refine ⟨D, ptr, fun i' w' h' => ?_⟩
  obtain ⟨r, hsite, hrep⟩ := hsites i' w' h'
  exact ⟨r, h'.1, hsite, hconf, hrep⟩

theorem ReachesTurn.reaches {root : Setting} {junk : ℕ → DeviceJunk} {simJunk : SimulatorJunk}
    {env : Env} {i : ℕ} {w : World} (h : ReachesTurn root junk simJunk env i w)
    (hzero : ∀ j, (junk j).numberOfPins = 0) : ∃ D ptr r, Reaches root junk env i D ptr w r := by
  obtain ⟨D, ptr, hreach⟩ := h.allReach hzero
  obtain ⟨r, hr⟩ := hreach i w h
  exact ⟨D, ptr, r, hr⟩

section Reaches

variable {root : Setting} {junk : ℕ → DeviceJunk} {env : Env} {i : ℕ} {D : ℕ → Device}
  {ptr : ℕ → List ℕ} {w : World} {r : Site}

theorem Reaches.explained (h : Reaches root junk env i D ptr w r) :
    Explained env (configuredName junk (devicesOf root)) (configuredSerial junk (devicesOf root))
      (Site.loaded (devicesOf root)).ports (devicesOf root).length i r :=
  siteLoop_explained h.le h.run

/-- The slot behind a record. -/
theorem Reaches.slot (h : Reaches root junk env i D ptr w r) {k : ℕ} {d : Device}
    (hd : w.devices k = some d) : ∃ t, r.slot k = some t ∧ d = slotDevice D t ∧
      t.source < (devicesOf root).length := by
  rw [h.represents.devices k, Option.map_eq_some_iff] at hd
  obtain ⟨t, ht, rfl⟩ := hd
  exact ⟨t, ht, rfl, h.represents.source k t ht⟩

/-- The table of a record, with the marks made so far. -/
theorem Reaches.holds (h : Reaches root junk env i D ptr w r) {t : Slot}
    (hl : t.source < (devicesOf root).length) : ∃ T, Holds w.mem (slotDevice D t) T ∧
      T.map Prod.fst = ptr t.source ∧ records T = (groupTable (devicesOf root)[t.source]).map
        (r.marked env (configuredName junk (devicesOf root)) i t.source) := by
  obtain ⟨T, hT, hptr, hrec⟩ := h.represents.table t.source hl
  rw [h.explained.ports, loaded_ports hl] at hrec
  exact ⟨T, hT.copy .., hptr, hrec⟩

theorem Reaches.tableOf (h : Reaches root junk env i D ptr w r) {t : Slot}
    (hl : t.source < (devicesOf root).length) :
    SimPokey.tableOf w.mem (slotDevice D t) =
      ((groupTable (devicesOf root)[t.source]).map
        (r.marked env (configuredName junk (devicesOf root)) i t.source)).map some := by
  obtain ⟨T, hT, -, hrec⟩ := h.holds hl
  rw [hT.tableOf_eq, hrec]

/-- Devices with the same pointers are copies of one configured device, if there are pointers. -/
theorem Reaches.source_eq (h : Reaches root junk env i D ptr w r) {t t' : Slot}
    (hl : t.source < (devicesOf root).length) (hl' : t'.source < (devicesOf root).length)
    (hne : groupTable (devicesOf root)[t.source] ≠ [])
    (hsame : pointersOf (slotDevice D t') = pointersOf (slotDevice D t)) :
    t'.source = t.source := by
  by_contra hsource
  obtain ⟨T, hT, hptr, hrec⟩ := h.holds hl
  obtain ⟨T', hT', hptr', -⟩ := h.holds hl'
  rw [hT.pointersOf_eq, hT'.pointersOf_eq, hptr, hptr'] at hsame
  have hdisjoint := h.configured.apart _ hl' _ hl hsource
  rw [hsame] at hdisjoint
  have hnil : ptr t.source = [] :=
    List.eq_nil_iff_forall_not_mem.2 fun q hq => hdisjoint hq hq
  rw [← hptr, List.map_eq_nil_iff] at hnil
  rw [hnil] at hrec
  exact hne (List.map_eq_nil_iff.1 hrec.symm)

/-- What has passed the check in some turn so far is what the check of a connected device with the
same pointers let pass. -/
theorem Reaches.passed_iff (h : Reaches root junk env i D ptr w r) {t : Slot}
    (hl : t.source < (devicesOf root).length) {p : DevicePort}
    (hp : p ∈ groupTable (devicesOf root)[t.source]) :
    r.passed env (configuredName junk (devicesOf root)) i t.source p = true ↔
      ∃ k' d' image, w.devices k' = some d' ∧ pointersOf d' = pointersOf (slotDevice D t) ∧
        checkedFor env k' d' = some image ∧ passesCheck env.lib image p = true := by
  rw [Site.passed, List.any_eq_true]
  constructor
  · rintro ⟨k', -, hpass⟩
    cases ht' : r.slot k' with
    | none => rw [ht'] at hpass; cases hpass
    | some t' =>
      rw [ht', Option.elim_some, Bool.and_eq_true, beq_iff_eq] at hpass
      obtain ⟨hsource, hpass⟩ := hpass
      cases hfound : t'.found env k' with
      | none => rw [hfound] at hpass; cases hpass
      | some pokey =>
        rw [hfound, Option.elim_some] at hpass
        refine ⟨k', slotDevice D t', checkedImage env (configuredName junk (devicesOf root)) k'
          t'.source pokey, ?_, ?_, ?_, ?_⟩
        · rw [h.represents.devices, ht']
          rfl
        · unfold slotDevice
          rw [hsource]
          rfl
        · rw [checkedFor_slotDevice env h.configured.name, hfound]
          rfl
        · rw [hsource]
          exact hpass
  · rintro ⟨k', d', image, hd', hsame, hchecked, hpass⟩
    obtain ⟨t', ht', rfl, hl'⟩ := h.slot hd'
    have hsource := h.source_eq hl hl' (List.ne_nil_of_mem hp) hsame
    rw [checkedFor_slotDevice env h.configured.name, Option.map_eq_some_iff] at hchecked
    obtain ⟨pokey, hfound, rfl⟩ := hchecked
    -- only slots of earlier turns are connected
    have hlt : k' < i := by
      cases himage : t'.image with
      | none => rw [Slot.found_of_idle himage] at hfound; cases hfound
      | some image => exact (h.explained.up k' t' image ht' himage).1
    refine ⟨k', List.mem_range.2 hlt, ?_⟩
    rw [ht', Option.elim_some, hfound, Option.elim_some, hsource, beq_self_eq_true,
      Bool.true_and, ← hsource]
    exact hpass

end Reaches

/-- A declared record is valid once it has passed. -/
theorem Site.marked_valid_iff {env : Env} {name : ℕ → String} {r : Site} {i l : ℕ}
    {P W : List Setting} {p : DevicePort} (hp : p ∈ acceptedTable P W) :
    (r.marked env name i l p).valid ≠ pinInvalid ↔ r.passed env name i l p = true := by
  unfold Site.marked
  split_ifs with hpass
  · exact iff_of_true one_ne_zero hpass
  · exact iff_of_false (not_not.2 (of_mem_acceptedTable hp).1) hpass

/-- **When a record is valid.**  In every turn, the table of every device is the declared one of
its group, and a record of it is valid exactly when one of the connected devices with the same
table passed the check for it: the marks of all copies are made in the same records.  In every
later turn the same pointers lead to the same table, and what was valid is valid. -/
theorem main_marks (root : Setting) (junk : ℕ → DeviceJunk) (simJunk : SimulatorJunk) (env : Env)
    (hzero : ∀ j, (junk j).numberOfPins = 0) (i : ℕ) (w : World)
    (hreach : ReachesTurn root junk simJunk env i w) (k : ℕ) (d : Device)
    (hd : w.devices k = some d) :
    ∃ g ∈ devicesOf root, ∃ mark : DevicePort → ℤ,
      tableOf w.mem d = (groupTable g).map (fun p => some { p with valid := mark p }) ∧
      (∀ p ∈ groupTable g, mark p ≠ pinInvalid ↔ ∃ k' d' image, w.devices k' = some d' ∧
        pointersOf d' = pointersOf d ∧ checkedFor env k' d' = some image ∧
        passesCheck env.lib image p = true) ∧
      ∀ i' w', i ≤ i' → ReachesTurn root junk simJunk env i' w' → ∃ mark' : DevicePort → ℤ,
        tableOf w'.mem d = (groupTable g).map (fun p => some { p with valid := mark' p }) ∧
        ∀ p ∈ groupTable g, mark p ≠ pinInvalid → mark' p ≠ pinInvalid := by
  obtain ⟨D, ptr, hreaches⟩ := hreach.allReach hzero
  obtain ⟨r, h⟩ := hreaches i w hreach
  obtain ⟨t, ht, rfl, hl⟩ := h.slot hd
  let name := configuredName junk (devicesOf root)
  have htable : ∀ i' w' r', Reaches root junk env i' D ptr w' r' →
      tableOf w'.mem (slotDevice D t) = (groupTable (devicesOf root)[t.source]).map fun p =>
        some { p with valid := (r'.marked env name i' t.source p).valid } := by
    intro i' w' r' h'
    rw [h'.tableOf hl, List.map_map]
    refine List.map_congr_left fun p _ => ?_
    rw [Function.comp_apply, Site.marked_same]
  refine ⟨_, List.getElem_mem hl, fun p => (r.marked env name i t.source p).valid,
    htable i w r h, fun p hp => ?_, fun i' w' hle hreach' => ?_⟩
  · rw [Site.marked_valid_iff hp]
    exact h.passed_iff hl hp
  · obtain ⟨r', h'⟩ := hreaches i' w' hreach'
    refine ⟨_, htable i' w' r' h', fun p hp hvalid => ?_⟩
    rw [Site.marked_valid_iff hp] at hvalid ⊢
    exact Site.passed_mono hle (siteLoop_slot hle h.run h'.run) hvalid

/-- One device with an output and a PWM channel. -/
def lamp : Tree :=
  Tree.file [Tree.device "17" [Tree.port 3 "DIGITAL_OUTPUT"] [Tree.pwm 4 40]] [Tree.simulator 8091]

/-- It is found, and can do everything. -/
def lampFound : Env := { Env.ofSerials [17] fun _ => some (.cleared 55) with lib := .capable }

theorem lampFound_returns :
    cleanRun lamp lampFound = .ok 0 (final (cleanRun lamp lampFound)) :=
  ok_of_value (by decide +kernel : value (cleanRun lamp lampFound) = some 0)

theorem lampFound_connected : ∃ d, (final (cleanRun lamp lampFound)).devices 0 = some d ∧
    d.hasPokey = 1 :=
  Option.map_eq_some_iff.1 (by decide +kernel :
    ((final (cleanRun lamp lampFound)).devices 0).map Device.hasPokey = some 1)

/-- The image the check is handed has as many pins as the one that was found. -/
theorem lampFound_iPinCount {d : Device} (hup : d.hasPokey = 1) {checked : PoKeysDevice}
    (hchecked : checkedFor lampFound 0 d = some checked) : checked.iPinCount = 55 := by
  rw [checkedFor, if_pos hup] at hchecked
  rw [← Option.some.inj hchecked]
  exact namedImage_iPinCount ..

theorem main_marks_lamp : ∃ d, (final (cleanRun lamp lampFound)).devices 0 = some d ∧
    ∃ g ∈ devicesOf lamp, ∃ mark : DevicePort → ℤ,
      tableOf (final (cleanRun lamp lampFound)).mem d =
        (groupTable g).map fun p => some { p with valid := mark p } := by
  obtain ⟨d, hd, -⟩ := lampFound_connected
  obtain ⟨g, hg, mark, htable, -⟩ := main_marks lamp (fun _ => .cleared) ⟨none, none, 0, 0⟩
    lampFound (fun _ => rfl) _ _ (reachesTurn_of_main lampFound_returns) 0 d hd
  exact ⟨d, hd, g, hg, mark, htable⟩

/-! ### The pin functions -/

theorem snprintfD_injective {a b : ℕ} (ha : a < 2 ^ 32) (hb : b < 2 ^ 32)
    (h : snprintfD a = snprintfD b) : a = b := by
  have hvalue := Int.repr_injective h
  split_ifs at hvalue <;> omega

/-- With serial numbers that differ on the network, no device is brought up twice. -/
theorem Explained.slot_eq {env : Env} {serial name : ℕ → String}
    {tables : ℕ → List DevicePort} {n i : ℕ} {r : Site}
    (h : Explained env name serial tables n i r)
    (hserials : (env.network.map NetworkDeviceSummary.serialNumber).Nodup) {k k' : ℕ} {t t' : Slot}
    (ht : r.slot k = some t) (ht' : r.slot k' = some t') (hup : t.image.isSome = true)
    (hup' : t'.image.isSome = true) (hsource : t'.source = t.source) : k = k' := by
  obtain ⟨image, himage⟩ := Option.isSome_iff_exists.1 hup
  obtain ⟨image', himage'⟩ := Option.isSome_iff_exists.1 hup'
  obtain ⟨-, nd, -, hnd, hserial, -⟩ := h.up k t image ht himage
  obtain ⟨-, nd', -, hnd', hserial', -⟩ := h.up k' t' image' ht' himage'
  -- both were asked for by the same number
  rw [hsource, hserial] at hserial'
  have hnumber := snprintfD_injective nd.serialNumber_lt nd'.serialNumber_lt hserial'
  have hget : (env.network.map NetworkDeviceSummary.serialNumber)[k]? =
      (env.network.map NetworkDeviceSummary.serialNumber)[k']? := by
    rw [List.getElem?_map, List.getElem?_map, hnd, hnd', Option.map_some, Option.map_some, hnumber]
  have hlt : k < (env.network.map NetworkDeviceSummary.serialNumber).length := by
    rw [List.length_map]
    exact (List.getElem?_eq_some_iff.1 hnd).1
  exact (List.getElem?_inj hlt hserials).1 hget

theorem Slot.isSome_of_found {env : Env} {k : ℕ} {t : Slot} {pokey : PoKeysDevice}
    (h : t.found env k = some pokey) : t.image.isSome = true := by
  cases himage : t.image with
  | none => rw [Slot.found_of_idle himage] at h; cases h
  | some image => rfl

/-- So the marks of its records are those of its own check. -/
theorem Explained.passed_own {env : Env} {serial name : ℕ → String}
    {tables : ℕ → List DevicePort} {n i : ℕ} {r : Site}
    (h : Explained env name serial tables n i r)
    (hserials : (env.network.map NetworkDeviceSummary.serialNumber).Nodup) {k : ℕ} {t : Slot}
    (ht : r.slot k = some t) {pokey : PoKeysDevice} (hfound : t.found env k = some pokey) {i' : ℕ}
    (hk : k < i') (p : DevicePort) :
    r.passed env name i' t.source p =
      passesCheck env.lib (checkedImage env name k t.source pokey) p := by
  rw [Bool.eq_iff_iff, Site.passed, List.any_eq_true]
  constructor
  · rintro ⟨k', -, hpass⟩
    cases ht' : r.slot k' with
    | none => rw [ht'] at hpass; cases hpass
    | some t' =>
      rw [ht', Option.elim_some, Bool.and_eq_true, beq_iff_eq] at hpass
      obtain ⟨hsource, hpass⟩ := hpass
      cases hfound' : t'.found env k' with
      | none => rw [hfound'] at hpass; cases hpass
      | some pokey' =>
        obtain rfl := h.slot_eq hserials ht ht' (Slot.isSome_of_found hfound)
          (Slot.isSome_of_found hfound') hsource
        obtain rfl : t = t' := Option.some.inj (ht.symm.trans ht')
        obtain rfl : pokey = pokey' := Option.some.inj (hfound.symm.trans hfound')
        rw [hfound', Option.elim_some] at hpass
        exact hpass
  · intro hpass
    refine ⟨k, List.mem_range.2 hk, ?_⟩
    rw [ht, Option.elim_some, hfound, Option.elim_some, beq_self_eq_true, Bool.true_and]
    exact hpass

theorem Explained.marked_own {env : Env} {serial name : ℕ → String}
    {tables : ℕ → List DevicePort} {n i : ℕ} {r : Site}
    (h : Explained env name serial tables n i r)
    (hserials : (env.network.map NetworkDeviceSummary.serialNumber).Nodup) {k : ℕ} {t : Slot}
    (ht : r.slot k = some t) {pokey : PoKeysDevice} (hfound : t.found env k = some pokey) {i' : ℕ}
    (hk : k < i') (ps : List DevicePort) :
    ps.map (r.marked env name i' t.source) =
      ps.map (validated env.lib (checkedImage env name k t.source pokey)) := by
  refine List.map_congr_left fun p _ => ?_
  rw [Site.marked, validated, h.passed_own hserials ht hfound hk]

/-- **The pin functions of a started system.**  When no two devices on the network have the same
serial number, every connected slot holds a table that is the declared one of a group as its own
check marks it, and an image with exactly the pin functions that table declares. -/
theorem main_pinImage (root : Setting) (junk : ℕ → DeviceJunk) (simJunk : SimulatorJunk)
    (env : Env) (hzero : ∀ j, (junk j).numberOfPins = 0)
    (hserials : (env.network.map NetworkDeviceSummary.serialNumber).Nodup) (i : ℕ) (w : World)
    (hreach : ReachesTurn root junk simJunk env i w) (k : ℕ) (d : Device)
    (hd : w.devices k = some d) (hconnected : d.hasPokey = 1) :
    ∃ g ∈ devicesOf root, ∃ checked image, checkedFor env k d = some checked ∧
      d.pokey = some image ∧
      tableOf w.mem d = ((groupTable g).map (validated env.lib checked)).map some ∧
      PinImage (env.lib.checkPinCapability checked) (groupTable g)
        (fun j => (checked.pins j).pinFunction) fun j => (image.pins j).pinFunction := by
  obtain ⟨D, ptr, r, h⟩ := hreach.reaches hzero
  obtain ⟨t, ht, rfl, hl⟩ := h.slot hd
  let name := configuredName junk (devicesOf root)
  cases himage : t.image with
  | none => simp [slotDevice, himage] at hconnected
  | some image =>
    obtain ⟨hki, nd, pokey, hnd, -, hfound, hvalue⟩ := h.explained.up k t image ht himage
    let checked := checkedImage env name k t.source pokey
    -- whenever after its turn, the marks are those of the own check
    have hmarked := fun i' (hk : k < i') => h.explained.marked_own hserials ht hfound hk
      (groupTable (devicesOf root)[t.source])
    refine ⟨_, List.getElem_mem hl, checked, image, ?_, himage, ?_, ?_⟩
    · rw [checkedFor_slotDevice env h.configured.name, hfound]
      rfl
    · rw [h.tableOf hl, hmarked i hki]
    · rw [hvalue, appliedImage, loaded_ports hl, hmarked (k + 1) (by omega), appliedTable_image]
      exact pinImage_foldl
        (fun p hp => checked_validated env.lib checked (of_mem_acceptedTable hp).1)
        (nodup_acceptedTable_pin _ _) checked.pins

/-- The output of the lamp is an output of its image. -/
theorem main_pinImage_lamp : ∃ d image, (final (cleanRun lamp lampFound)).devices 0 = some d ∧
    d.pokey = some image ∧ (image.pins 2).pinFunction = PinCap.digitalOutput := by
  obtain ⟨d, hd, hconnected⟩ := lampFound_connected
  obtain ⟨g, hg, checked, image, hchecked, himage, -, hfunctions⟩ := main_pinImage lamp
    (fun _ => .cleared) ⟨none, none, 0, 0⟩ lampFound (fun _ => rfl) (by decide) _ _
    (reachesTurn_of_main lampFound_returns) 0 d hd hconnected
  have hgroup : devicesOf lamp =
    [Tree.device "17" [Tree.port 3 "DIGITAL_OUTPUT"] [Tree.pwm 4 40]] := rfl
  rw [hgroup, List.mem_singleton] at hg
  refine ⟨d, image, hd, himage, hfunctions.output ⟨"Undefined", 3, 2, 0, 0, 0, 0, 0⟩
    (by rw [hg]; decide) (.digitalOutput rfl ?_) rfl⟩
  show (if (1 : ℤ) ≤ 3 ∧ (3 : ℤ) ≤ checked.iPinCount then (1 : ℤ) else 0) ≠ 0
  rw [lampFound_iPinCount hconnected hchecked]
  decide

end SimPokey
