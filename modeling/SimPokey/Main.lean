import SimPokey.Config
import SimPokey.Pokey

/-!
# `main.c`: startup and shutdown

`main` reads the configuration, loads the devices and the simulator details, counts the devices on
the network, hands `simConfig` to the simulator connection, and then goes through the network
devices: one that is configured is connected, named, validated, stored in `devices[]`, applied,
and gets a polling thread.  `intHandler` is the handler of an interrupt.
-/

namespace SimPokey

open FaultState

/-- What the surroundings of a run do: the library, the devices on the network in the order they
were found, and for the turn `i` of the startup loop the outcome of `PK_ConnectToNetworkDevice`,
the result of `PK_DeviceNameSet`, the characters after the configured name, the uninitialised
memory of the PWM branch and the result of `pthread_create`. -/
structure Env where
  lib : PoKeysLib
  network : List NetworkDeviceSummary
  connect : ℕ → Option PoKeysDevice
  nameSet : ℕ → ℤ
  afterName : ℕ → ℕ → Char
  junk : ℕ → ℕ → PwmJunk
  threadCreate : ℕ → ℤ
  cliThreadCreate : ℤ

/-- No device on the network. -/
def Env.empty : Env where
  lib := ⟨fun _ _ _ => 0, fun _ _ => 0⟩
  network := []
  connect := fun _ => none
  nameSet := fun _ => pkOk
  afterName := fun _ _ => nul
  junk := fun _ _ => ⟨0, fun _ => 0, fun _ => 0⟩
  threadCreate := fun _ => 0
  cliThreadCreate := 0

/-- The devices with these serial numbers on the network. -/
def Env.ofSerials (serials : List UInt32) (connect : ℕ → Option PoKeysDevice) : Env :=
  { Env.empty with
    network := serials.map fun (s : UInt32) => ⟨s.toNat, s.toNat_lt⟩
    connect := connect }

/-- `pthread_create(&device->pThread, NULL, startDeviceLoop, &y)`. -/
def startThread (ret : ℤ) (arg : ThreadArg) : WorldRun Unit := fun w =>
  if ret = 0 then .ok () { w with threads := w.threads ++ [arg] } else .ok () w

/-- What `main` does with the device found by the search once it is connected to `pokey`. -/
def bringUp (env : Env) (i : ℕ) (device : Device) (pokey : PoKeysDevice) : WorldRun Unit := do
  let device := { device with pokey := some pokey, hasPokey := 1 }
  let named ← onMem (syncDeviceName (env.afterName i) (env.nameSet i) device)
  let checked ← onMem (checkValidPinConfiguration env.lib named.2)
  storeDevice i checked.2
  let applied ← onMem (applyConfiguration (env.junk i) checked.2)
  -- `devices[i]` points at the record that was just edited
  change fun w => { w with devices := Function.update w.devices i (some applied.2) }
  dumpDevices
  startThread (env.threadCreate i) .localInt

/-- The turn of the startup loop for the network device `i`. -/
def startupStep (env : Env) (i : ℕ) (networkDevice : NetworkDeviceSummary) : WorldRun Unit := do
  let addr ← malloc
  match ← getDeviceBySerialNumber addr (snprintfD networkDevice.serialNumber) with
  | none => pure ()
  | some device => do
      let pokeyAddr ← malloc
      match env.connect i with
      | none => pure ()
      | some pokey => bringUp env i device { pokey with addr := pokeyAddr }

/-- The first `i` turns of the startup loop. -/
def startupLoop (env : Env) : ℕ → WorldRun Unit
  | 0 => pure ()
  | i + 1 => do
      startupLoop env i
      match env.network[i]? with
      | none => pure ()
      | some networkDevice => startupStep env i networkDevice

variable {Setting : Type} [LibConfig Setting]

/-- What `main` does with `simConfig` after `loadSimulatorDetails` returned `ret`, which it does
not look at: `numberOfDevices = PK_EnumerateNetworkDevices(…)`, then
`initSimConnection(simConfig->ipAddress, simConfig->port, …)`. -/
def afterSimulatorDetails (env : Env) (_ret : ℤ) : WorldRun Unit := fun w =>
  let w := { w.touch .simConfig with numberOfDevices := env.network.length }
  match w.simConfig with
  | none => .error .nullSimConfig w
  | some _ => .ok () w

/-- `main` from `loadSimulatorDetails()` up to the startup loop. -/
def simulatorStartup (configuration : ConfigState Setting) (simJunk : SimulatorJunk) (env : Env) :
    WorldRun Unit := do
  let ret ← loadSimulatorDetails configuration simJunk
  afterSimulatorDetails env ret

/-- `main` up to the startup loop. -/
def beforeLoop (file : Option Setting) (junk : ℕ → DeviceJunk) (simJunk : SimulatorJunk)
    (env : Env) : WorldRun Unit := do
  -- the result of `initConfiguration` is dropped
  let configuration := (initConfiguration file).2
  let _ ← loadConfiguredDevices configuration junk
  simulatorStartup configuration simJunk env

/-- `main` up to `startSimLoop()`. -/
def main (file : Option Setting) (junk : ℕ → DeviceJunk) (simJunk : SimulatorJunk) (env : Env) :
    WorldRun ℤ := do
  beforeLoop file junk simJunk env
  if env.cliThreadCreate ≠ 0 then pure 1
  else do
    startupLoop env env.network.length
    pure 0

/-- The threads of a run, up to the `uv_run` of each. -/
def runThreads (threads : List ThreadArg) : WorldRun Unit :=
  threads.foldlM (fun _ arg => startDeviceLoop arg) ()

/-! ### `intHandler` -/

def shutdownCall (c : ShutdownCall) : WorldRun Unit := fun w =>
  .ok () { w with shutdown := w.shutdown ++ [c] }

/-- The turn of the loop of `intHandler` for `devices[i]`.  `uv_stop` and `PK_DisconnectDevice`
follow the pointer they are handed. -/
def shutdownDevice (i : ℕ) : WorldRun Unit := do
  let device ← deviceAt i
  match device.loop with
  | none => stop .wildLoop
  | some loop => do
      shutdownCall (.uvStop loop)
      match device.pokey with
      | none => stop .wildPokey
      | some pokey => do
          shutdownCall (.disconnectDevice pokey.addr)
          shutdownCall (.free device.addr)

/-- `intHandler`, with the character that `getchar` returned. -/
def intHandler (c : Char) : WorldRun Unit := fun w =>
  if c = 'y' ∨ c = 'Y' then
    (do
      (List.range w.numberOfDevices).foldlM (fun _ i => shutdownDevice i) ()
      shutdownCall .freeSimConfig : WorldRun Unit).run w
  else .ok () w

end SimPokey
