import SimPokey.World
import SimPokey.Pin.Apply

/-!
# `pokey.c`: looking up, naming and polling devices

* `getDeviceBySerialNumber` searches `devices[0..numberOfDevices)` and copies the record it finds;
* `syncDeviceName` compares and copies the first `maxDeviceNameLength` characters of the name;
* `digitalIOTimerCallback` is one tick of the polling timer of a device;
* `startDeviceLoop` is the body of the thread that owns that timer.
-/

namespace SimPokey

open FaultState

/-! ### Characters

A `Char` stands for one byte (a C `char`), and the length of a `String` for what `strlen` counts:
here, and for the text blocks of `checkValidPinConfiguration`. -/

/-- The terminator of a C string. -/
def nul : Char := Char.ofNat 0

/-- What is found from the pointer to the string `s` on: its characters, the terminator, and
whatever follows. -/
def cMemory (s : String) (after : ℕ → Char) (k : ℕ) : Char :=
  match s.toList[k]? with
  | some c => c
  | none => if k = s.toList.length then nul else after (k - s.toList.length - 1)

/-- `strncmp(a, b, n) == 0`. -/
def strncmpEq (a b : ℕ → Char) : ℕ → Bool
  | 0 => true
  | n + 1 =>
      if a 0 ≠ b 0 then false
      else if a 0 = nul then true
      else strncmpEq (fun k => a (k + 1)) (fun k => b (k + 1)) n

/-- `snprintf(…, "%d", (unsigned int)n)` for a 32-bit `n`: the conversion reads the bits as a
signed number. -/
def snprintfD (n : ℕ) : String := Int.repr (if n < 2 ^ 31 then n else n - 2 ^ 32)

/-! ### The registry -/

/-- The search over the slots `is`; the copy of the record found goes to the address `addr`. -/
def getDeviceFrom (addr : ℕ) (serialNumber : String) : List ℕ → WorldRun (Option Device)
  | [] => pure none
  | i :: is => do
      let searchDevice ← deviceAt i
      if serialNumber = searchDevice.serialNumber then
        pure (some { searchDevice with addr := addr })
      else getDeviceFrom addr serialNumber is

/-- `getDeviceBySerialNumber`: the copy (with result 1), or `none` (result 0). -/
def getDeviceBySerialNumber (addr : ℕ) (serialNumber : String) : WorldRun (Option Device) :=
  fun w => (getDeviceFrom addr serialNumber (List.range w.numberOfDevices)).run w

/-! ### The name -/

/-- `syncDeviceName`, with the characters found after the configured name and the result `ret` of
`PK_DeviceNameSet`. -/
def syncDeviceName (after : ℕ → Char) (ret : ℤ) (device : Device) : MemRun (ℤ × Device) := do
  let pokey ← pokeyOf device
  let name := cMemory device.name after
  if strncmpEq pokey.deviceName name maxDeviceNameLength then pure (1, device)
  else do
    let pokey :=
      { pokey with
        deviceName := fun k => if k < maxDeviceNameLength then name k else pokey.deviceName k }
    send (.deviceNameSet pokey)
    pure (if ret = pkOk then 1 else -1, { device with pokey := some pokey })

/-- `applyConfiguration`. -/
def applyConfiguration (junk : ℕ → PwmJunk) (device : Device) : MemRun (ℤ × Device) := do
  let device ← applyPinConfigurationToDevice junk device
  pure (0, device)

/-! ### Dumping -/

/-- `dumpDevice` follows the image pointer of a connected device and every pointer of its table;
what it prints is not modelled. -/
def dumpDevice (device : Device) : MemRun Unit := do
  if device.hasPokey = 0 then pure ()
  else do
    let _ ← pokeyOf device
    pure ()
  (List.range device.numberOfPins.toNat).foldlM
    (fun _ (y : ℕ) => do let _ ← portAt device y; pure ()) ()

/-- `dumpDevices`. -/
def dumpDevices : WorldRun Unit := fun w =>
  ((List.range w.activeDevices).foldlM
    (fun _ i => do let device ← deviceAt i; onMem (dumpDevice device)) ()).run w

/-! ### Polling -/

/-- The turn of the polling loop for the slot `i`. -/
def pollSlot (device : Device) (pokey : PoKeysDevice) (i : ℕ) : MemRun Unit := do
  let port ← portAt device i
  let devicePin := port.2.pin - 1
  if port.2.type ≠ PinType.digitalInput then pure ()
  else do
    touch (.pokeyPins pokey.iPinCount devicePin)
    let sample := (pokey.pins devicePin).digitalValueGet
    if port.2.value ≠ sample then do
      writePort port.1 { port.2 with previousValue := port.2.value, value := sample }
      emit ⟨device.name, port.2.name, port.2.value, sample⟩
    else pure ()

/-- `digitalIOTimerCallback` on the device `timer->data`, with what `PK_DigitalIOGet` did. -/
def digitalIOTimerCallback (device : Device) (reading : Reading) : MemRun Device := do
  let pokey ← pokeyOf device
  let pokey :=
    { pokey with
      pins := fun k => { pokey.pins k with digitalValueGet := reading.digitalValueGet k } }
  if reading.ret = pkOk then
    (List.range device.numberOfPins.toNat).foldlM (fun _ i => pollSlot device pokey i) ()
  else pure ()
  pure { device with pokey := some pokey }

/-- `startDeviceLoop(device)` up to `uv_run`: a new loop is put into the record the argument points
at. -/
def startDeviceLoop : ThreadArg → WorldRun Unit
  | .device i => do
      let device ← deviceAt i
      let loop ← malloc
      storeDevice i { device with loop := some loop }
  | .localInt => stop .wildDevice

end SimPokey
