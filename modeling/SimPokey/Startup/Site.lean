import SimPokey.Main
import SimPokey.Pin.ApplyImage
import SimPokey.Startup.Name

/-!
# The startup loop without a heap

`Site` is what the startup loop works on, told without pointers: which configured device each slot
of `devices[]` holds a copy of, the image of each connected one, and for each configured device
its records.  Copies of one device share its records, so these belong to the configured device and
not to the slot.  `siteLoop` is the startup loop on a site; it stops where the program would
follow an empty slot or divide by zero.
-/

namespace SimPokey

open FaultState

/-- A slot of the registry: a copy, at the address `addr`, of the record of the configured device
`source`, with its image once it is connected. -/
structure Slot where
  source : ℕ
  addr : ℕ
  image : Option PoKeysDevice

/-- The registry, the records of the configured devices, what has been sent, the number of blocks
allocated, and whether every text of the checks has fitted its block so far. -/
structure Site where
  slot : ℕ → Option Slot
  ports : ℕ → List DevicePort
  sent : List LibCall
  brk : ℕ
  textsFit : Bool

/-- A computation on a site. -/
abbrev SiteRun := Run Fault Site

/-! ### The name -/

/-- The image after `syncDeviceName`. -/
def namedImage (after : ℕ → Char) (name : String) (pokey : PoKeysDevice) : PoKeysDevice :=
  if strncmpEq pokey.deviceName (cMemory name after) maxDeviceNameLength then pokey
  else pokey.renamed name after

/-- What `syncDeviceName` sends. -/
def nameCalls (after : ℕ → Char) (name : String) (pokey : PoKeysDevice) : List LibCall :=
  if strncmpEq pokey.deviceName (cMemory name after) maxDeviceNameLength then []
  else [.deviceNameSet (pokey.renamed name after)]

@[simp] theorem namedImage_addr (after : ℕ → Char) (name : String) (pokey : PoKeysDevice) :
    (namedImage after name pokey).addr = pokey.addr := by
  unfold namedImage; split_ifs <;> rfl

@[simp] theorem namedImage_iPinCount (after : ℕ → Char) (name : String) (pokey : PoKeysDevice) :
    (namedImage after name pokey).iPinCount = pokey.iPinCount := by
  unfold namedImage; split_ifs <;> rfl

theorem syncDeviceName_run {d : Device} {pokey : PoKeysDevice} (hpokey : d.pokey = some pokey)
    (after : ℕ → Char) (ret : ℤ) (m : Memory) :
    ∃ r, (syncDeviceName after ret d).run m =
      .ok (r, { d with pokey := some (namedImage after d.name pokey) })
        { m with sent := m.sent ++ nameCalls after d.name pokey } := by
  unfold namedImage nameCalls
  by_cases h : Agrees d.name pokey.deviceName
  · refine ⟨1, ?_⟩
    rw [syncDeviceName_of_agrees hpokey h, if_pos ((strncmpEq_iff_agrees ..).2 h),
      if_pos ((strncmpEq_iff_agrees ..).2 h), List.append_nil, ← hpokey]
  · have hne : ¬ strncmpEq pokey.deviceName (cMemory d.name after) maxDeviceNameLength = true :=
      fun heq => h ((strncmpEq_iff_agrees ..).1 heq)
    rw [syncDeviceName_of_differs hpokey h, if_neg hne, if_neg hne]
    exact ⟨_, rfl⟩

/-! ### The loop -/

/-- The slot the search for the serial number `s` among the first `m` slots stops at: an empty
one, or a copy of a device with that serial number. -/
def Site.search (serial : ℕ → String) (m : ℕ) (s : String) (r : Site) : Option ℕ :=
  (List.range m).find? fun j => (r.slot j).elim true fun t => s == serial t.source

section Loop

variable (env : Env) (serial name : ℕ → String)

/-- The image handed to the check, in the turn `i` for the configured device `l`. -/
def checkedImage (i l : ℕ) (pokey : PoKeysDevice) : PoKeysDevice :=
  env.lib.readPinConfiguration (namedImage (env.afterName i) (name l) pokey)

/-- The texts of a check of the records `ps` fit: each of a type that has a case passes. -/
def casesPass (lib : PoKeysLib) (image : PoKeysDevice) (ps : List DevicePort) : Bool :=
  ps.all fun p => (incorrectType p.type).isNone || passesCheck lib image p

/-- What a turn does with a connected device: the copy of the configured device `l` is named,
its records are checked, and they are applied to the image. -/
def siteBringUp (i l addr : ℕ) (pokey : PoKeysDevice) : SiteRun Unit := fun r =>
  let image := checkedImage env name i l pokey
  let r := { r with textsFit := r.textsFit && casesPass env.lib image (r.ports l) }
  let ports := (r.ports l).map (validated env.lib image)
  if ports.any dividesByZero then .error .divisionByZero r
  else
    let applied := appliedTable (env.junk i) ports
      (image, r.sent ++ nameCalls (env.afterName i) (name l) pokey)
    .ok () { r with
      slot := Function.update r.slot i (some ⟨l, addr, some applied.1⟩)
      ports := Function.update r.ports l ports
      sent := applied.2 }

theorem siteBringUp_run (i l addr : ℕ) (pokey : PoKeysDevice) (r : Site) :
    (siteBringUp env name i l addr pokey).run r =
      let image := checkedImage env name i l pokey
      let r := { r with textsFit := r.textsFit && casesPass env.lib image (r.ports l) }
      let ports := (r.ports l).map (validated env.lib image)
      let applied := appliedTable (env.junk i) ports
        (image, r.sent ++ nameCalls (env.afterName i) (name l) pokey)
      if ports.any dividesByZero then .error .divisionByZero r
      else .ok () { r with
        slot := Function.update r.slot i (some ⟨l, addr, some applied.1⟩)
        ports := Function.update r.ports l ports
        sent := applied.2 } := rfl

/-- The turn for the network device `i`. -/
def siteStep (i : ℕ) (networkDevice : NetworkDeviceSummary) : SiteRun Unit := fun r =>
  match r.search serial env.network.length (snprintfD networkDevice.serialNumber) with
  | none => .ok () { r with brk := r.brk + 1 }
  | some j =>
      match r.slot j with
      | none => .error .nullDevice r
      | some t =>
          match env.connect i with
          | none => .ok () { r with brk := r.brk + 2 }
          | some pokey =>
              (siteBringUp env name i t.source r.brk { pokey with addr := r.brk + 1 }).run
                { r with brk := r.brk + 2 }

theorem siteStep_run (i : ℕ) (nd : NetworkDeviceSummary) (r : Site) :
    (siteStep env serial name i nd).run r =
      match r.search serial env.network.length (snprintfD nd.serialNumber) with
      | none => .ok () { r with brk := r.brk + 1 }
      | some j =>
          match r.slot j with
          | none => .error .nullDevice r
          | some t =>
              match env.connect i with
              | none => .ok () { r with brk := r.brk + 2 }
              | some pokey =>
                  (siteBringUp env name i t.source r.brk { pokey with addr := r.brk + 1 }).run
                    { r with brk := r.brk + 2 } := rfl

/-- The first `i` turns. -/
def siteLoop : ℕ → SiteRun Unit
  | 0 => pure ()
  | i + 1 => do
      siteLoop i
      match env.network[i]? with
      | none => pure ()
      | some networkDevice => siteStep env serial name i networkDevice

end Loop

end SimPokey
