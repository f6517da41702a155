import SimPokey.Startup.Sent

/-!
# Starting twice

The program is run again with the same configuration file, on the same network.  A device has kept
the name the first run left it with: the one that was sent if `PK_DeviceNameSet` returned `PK_OK`,
and otherwise its own (`nameHeld`).  The second run sends a name to exactly the devices for which
the first run failed to set it (`restart_renames_iff`).
-/

namespace SimPokey

open FaultState LibConfig

/-! ### The name in one slot -/

/-- The calls rename the device. -/
def Renames (calls : List LibCall) : Prop := ∃ image, LibCall.deviceNameSet image ∈ calls

/-- The name a device holds only changes if it is sent one. -/
theorem foldl_nameHeld {calls : List LibCall} (h : ¬ Renames calls) (ret : ℤ) (held : ℕ → Char) :
    calls.foldl (nameHeld ret) held = held := by
  induction calls with
  | nil => rfl
  | cons c calls ih =>
    have hrest := ih fun ⟨image, hmem⟩ => h ⟨image, List.mem_cons_of_mem _ hmem⟩
    cases c with
    | deviceNameSet image => exact absurd ⟨image, List.mem_cons_self⟩ h
    | _ => exact hrest

section Calls

variable {pwms : List LibCall} {addr : ℕ}
  (hpwms : ∀ c ∈ pwms, ∃ image, c = LibCall.pwmConfigurationSet image ∧ image.addr = addr)
include hpwms

theorem not_renames_pwms : ¬ Renames pwms := by
  rintro ⟨image, hmem⟩
  obtain ⟨image', heq, -⟩ := hpwms _ hmem
  cases heq

/-- The name is sent when it differs. -/
theorem renames_iff (after : ℕ → Char) (name : String) (pokey : PoKeysDevice) :
    Renames (nameCalls after name pokey ++ pwms) ↔ ¬ Agrees name pokey.deviceName := by
  by_cases h : Agrees name pokey.deviceName
  · rw [nameCalls_of_agrees h, List.nil_append]
    exact iff_of_false (not_renames_pwms hpwms) (not_not.2 h)
  · rw [nameCalls_of_differs h]
    exact iff_of_true ⟨_, List.mem_cons_self⟩ h

/-- Afterwards the device has the name, unless setting it failed. -/
theorem agrees_held_iff (after : ℕ → Char) (name : String) (pokey : PoKeysDevice) (ret : ℤ) :
    Agrees name ((nameCalls after name pokey ++ pwms).foldl (nameHeld ret) pokey.deviceName) ↔
      (Renames (nameCalls after name pokey ++ pwms) → ret = pkOk) := by
  rw [renames_iff hpwms, List.foldl_append, foldl_nameHeld (not_renames_pwms hpwms)]
  by_cases h : Agrees name pokey.deviceName
  · rw [nameCalls_of_agrees h]
    exact iff_of_true h fun hnot => absurd h hnot
  · rw [nameCalls_of_differs h, List.foldl_cons, List.foldl_nil, nameHeld]
    split_ifs with hret
    · exact iff_of_true (agrees_renamed pokey name after) fun _ => hret
    · exact iff_of_false h fun hall => hret (hall h)

end Calls

/-! ### Two runs -/

variable {Setting : Type} [LibConfig Setting]

/-- Every group has a name, and a serial number of its own. -/
structure Identified (root : Setting) : Prop where
  name : ∀ g ∈ devicesOf root, (lookupString g "name").isSome = true
  serial : ∀ g ∈ devicesOf root, (lookupString g "serialNumber").isSome = true
  apart : ((devicesOf root).map fun g => lookupString g "serialNumber").Nodup

/-- The configured name and serial number are those of the group, whatever was in memory. -/
theorem Identified.configured {root : Setting} (h : Identified root) (junk : ℕ → DeviceJunk)
    {l : ℕ} (hl : l < (devicesOf root).length) :
    some (configuredName junk (devicesOf root) l) = lookupString (devicesOf root)[l] "name" ∧
      some (configuredSerial junk (devicesOf root) l) =
        lookupString (devicesOf root)[l] "serialNumber" := by
  obtain ⟨name, hname⟩ := Option.isSome_iff_exists.1 (h.name _ (List.getElem_mem hl))
  obtain ⟨serial, hserial⟩ := Option.isSome_iff_exists.1 (h.serial _ (List.getElem_mem hl))
  rw [configuredName, configuredSerial, configuredDevice, List.getElem?_eq_getElem hl,
    Option.elim_some, newDevice, hname, hserial]
  exact ⟨rfl, rfl⟩

/-- Groups with one serial number are one group. -/
theorem Identified.source_eq {root : Setting} (h : Identified root) (junk junk' : ℕ → DeviceJunk)
    {l l' : ℕ} (hl : l < (devicesOf root).length) (hl' : l' < (devicesOf root).length)
    (hserial : configuredSerial junk (devicesOf root) l =
      configuredSerial junk' (devicesOf root) l') : l = l' := by
  have hlookup := congrArg some hserial
  rw [(h.configured junk hl).2, (h.configured junk' hl').2] at hlookup
  have hget : ((devicesOf root).map fun g => lookupString g "serialNumber")[l]? =
      ((devicesOf root).map fun g => lookupString g "serialNumber")[l']? := by
    rw [List.getElem?_map, List.getElem?_map, List.getElem?_eq_getElem hl,
      List.getElem?_eq_getElem hl', Option.map_some, Option.map_some, hlookup]
  refine (List.getElem?_inj ?_ h.apart).1 hget
  rwa [List.length_map]

/-- **A restart repeats exactly the renames that failed.**  Of two runs with one configuration, in
which every device has a name and a serial number of its own, and one network, each in any turn:
a device that both have connected, and that the second found with the name the first left it,
is renamed by the second exactly when the first tried to and `PK_DeviceNameSet` failed. -/
theorem restart_renames_iff (root : Setting) (hroot : Identified root) (junk junk' : ℕ → DeviceJunk)
    (simJunk simJunk' : SimulatorJunk) (env env' : Env)
    (hzero : ∀ j, (junk j).numberOfPins = 0) (hzero' : ∀ j, (junk' j).numberOfPins = 0)
    (hnetwork : env'.network = env.network) (i i' : ℕ) (w w' : World)
    (hreach : ReachesTurn root junk simJunk env i w)
    (hreach' : ReachesTurn root junk' simJunk' env' i' w') :
    ∀ k d d' pokey pokey', w.devices k = some d → d.hasPokey = 1 →
      w'.devices k = some d' → d'.hasPokey = 1 →
      env.connect k = some pokey → env'.connect k = some pokey' →
      pokey'.deviceName = (w.sentTo k).foldl (nameHeld (env.nameSet k)) pokey.deviceName →
      (Renames (w'.sentTo k) ↔ Renames (w.sentTo k) ∧ env.nameSet k ≠ pkOk) := by
  obtain ⟨D, ptr, r, h⟩ := hreach.reaches hzero
  obtain ⟨D', ptr', r', h'⟩ := hreach'.reaches hzero'
  intro k d d' pokey pokey' hd hup hd' hup' hconnect hconnect' hkept
  obtain ⟨t, nd, found, ht, rfl, hl, hnd, hserial, hsome, hfound⟩ := h.found hd hup
  obtain ⟨t', nd', found', ht', rfl, hl', hnd', hserial', hsome', hfound'⟩ := h'.found hd' hup'
  cases hconnect.symm.trans hsome
  cases hconnect'.symm.trans hsome'
  -- the slot holds a copy of the same group in both runs
  obtain rfl : nd = nd' := by
    rw [hnetwork] at hnd'
    exact Option.some.inj (hnd.symm.trans hnd')
  have hsource := hroot.source_eq junk junk' hl hl' (hserial.trans hserial'.symm)
  have hname : configuredName junk' (devicesOf root) t'.source =
      configuredName junk (devicesOf root) t.source := by
    rw [← hsource]
    exact Option.some.inj ((hroot.configured junk' hl).1.trans (hroot.configured junk hl).1.symm)
  obtain ⟨pwms, hcalls, -, hpwms⟩ := h.calls_eq ht hfound
  obtain ⟨pwms', hcalls', -, hpwms'⟩ := h'.calls_eq ht' hfound'
  rw [h.sentTo_eq, hcalls] at hkept
  rw [h.sentTo_eq, h'.sentTo_eq, hcalls, hcalls', renames_iff hpwms', hname]
  show ¬ Agrees _ pokey'.deviceName ↔ _
  have hheld := agrees_held_iff hpwms (env.afterName k)
    (configuredName junk (devicesOf root) t.source) { pokey with addr := t.addr + 1 }
    (env.nameSet k)
  rw [hkept, hheld, Classical.not_imp]

/-- A device that is to be called `Panel`. -/
def panel : Tree :=
  Tree.file [.group [("name", .string "Panel"), ("serialNumber", .string "17")]]
    [Tree.simulator 8091]

/-- It is found, and `PK_DeviceNameSet` returns `ret`. -/
def panelFound (ret : ℤ) : Env :=
  { Env.ofSerials [17] fun _ => some (.cleared 55) with nameSet := fun _ => ret }

/-- Two runs in which setting the name fails: the second tries again. -/
theorem restart_renames_iff_panel :
    Renames ((final (cleanRun panel (panelFound 1))).sentTo 0) := by
  have hmain := ok_of_value (by decide +kernel : value (cleanRun panel (panelFound 1)) = some 0)
  obtain ⟨d, hd, hup⟩ := Option.map_eq_some_iff.1 (by decide +kernel :
    ((final (cleanRun panel (panelFound 1))).devices 0).map Device.hasPokey = some 1)
  have hroot : Identified panel := ⟨by decide, by decide, by decide⟩
  have hboth := restart_renames_iff panel hroot (fun _ => .cleared) (fun _ => .cleared)
    ⟨none, none, 0, 0⟩ ⟨none, none, 0, 0⟩ (panelFound 1) (panelFound 1) (fun _ => rfl)
    (fun _ => rfl) rfl _ _ _ _ (reachesTurn_of_main hmain) (reachesTurn_of_main hmain) 0 d d _ _
    hd hup hd hup rfl rfl
  have hheld : ∀ (calls : List LibCall) (held : ℕ → Char),
      calls.foldl (nameHeld 1) held = held := by
    intro calls
    induction calls with
    | nil => exact fun held => rfl
    | cons c calls ih => exact fun held => (ih _).trans (by cases c <;> rfl)
  refine (hboth (hheld _ _).symm).2 ⟨?_, by decide⟩
  -- a call that sets the name took effect, so one was sent
  by_contra hnot
  exact absurd (congrFun (foldl_nameHeld hnot 0 fun _ => ' ') 0) (by decide +kernel)

end SimPokey
