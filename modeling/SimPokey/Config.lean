import SimPokey.World
import SimPokey.Pin.Load

/-!
# `config.c`: reading the configuration

* `initConfiguration` reads the file; a file that cannot be read leaves a destroyed configuration;
* `loadConfiguredDevices` fills `devices[]` from `configuration.devices`;
* `loadSimulatorDetails` fills `simConfig` from the first entry of `configuration.simulator`.

The locals the two loaders do not initialise, and the bytes `malloc` returns, are parameters.
-/

namespace SimPokey

open FaultState LibConfig

variable {Setting : Type} [LibConfig Setting]

/-- `initConfiguration`, given what reading the file gave: the result code and the global
`configuration`. -/
def initConfiguration (file : Option Setting) : ℤ × ConfigState Setting :=
  match file with
  | none => (exitFailure, .destroyed)
  | some root => (configTrue, .loaded root)

/-- `config_lookup(&configuration, path)`. -/
def configLookup (configuration : ConfigState Setting) (path : List String) :
    WorldRun (Option Setting) :=
  match configuration with
  | .loaded root => pure (lookup root path)
  | .destroyed => stop .destroyedConfig

theorem configLookup_loaded (root : Setting) (path : List String) (w : World) :
    (configLookup (.loaded root) path).run w = .ok (lookup root path) w := rfl

/-! ### `loadConfiguredDevices` -/

/-- What one turn of the loop finds in its uninitialised locals and in the fields of the new
`device_t` that it does not set.  `name` and `serialNumber` are the characters at the place the
uninitialised pointer leads to: the loader logs both with `%s`, so a turn that goes on has read
them.  A setting that has the member never looks at them. -/
structure DeviceJunk where
  name : String
  serialNumber : String
  dhcp : ℤ
  uid : ℤ
  numberOfPins : ℤ
  pins : ℤ → Option ℕ

/-- Numbers that happen to be cleared, and pointers that happen to lead to a zero byte. -/
def DeviceJunk.cleared : DeviceJunk := ⟨"", "", 0, 0, 0, fun _ => none⟩

/-- The record before its pins are loaded. -/
def newDevice (junk : DeviceJunk) (addr : ℕ) (configurationDevice : Setting) : Device where
  addr := addr
  name := (lookupString configurationDevice "name").getD junk.name
  serialNumber := (lookupString configurationDevice "serialNumber").getD junk.serialNumber
  dhcp := (lookupBool configurationDevice "dhcp").getD junk.dhcp
  uid := (lookupInt configurationDevice "uid").getD junk.uid
  hasPokey := 0
  numberOfPins := junk.numberOfPins
  pins := junk.pins
  pokey := none
  loop := none

/-- Both loaders, on the groups of one device. -/
def loadPorts (pins pwm : Option Setting) (device : Device) : MemRun Device := do
  let r ← loadPinConfiguration pins device
  let r ← loadPWMConfiguration pwm r.2
  pure r.2

/-- The turn of the loop for `devices[i]`. -/
def loadDevice (junk : DeviceJunk) (i : ℕ) (configurationDevice : Setting) : WorldRun Unit := do
  let addr ← malloc
  let device ← onMem (loadPorts (getMember configurationDevice "pins")
    (getMember configurationDevice "pwm") (newDevice junk addr configurationDevice))
  storeDevice i device

/-- The turns from `devices[i]` on. -/
def loadDevicesFrom (junk : ℕ → DeviceJunk) (i : ℕ) : List Setting → WorldRun Unit
  | [] => pure ()
  | g :: gs => do
      loadDevice (junk i) i g
      loadDevicesFrom junk (i + 1) gs

/-- `loadConfiguredDevices`.  `config_setting_length` of a missing section follows `NULL`. -/
def loadConfiguredDevices (configuration : ConfigState Setting) (junk : ℕ → DeviceJunk) :
    WorldRun ℤ := do
  match ← configLookup configuration ["configuration", "devices"] with
  | none => stop .nullSetting
  | some configurationDevices => do
      loadDevicesFrom junk 0 (elems configurationDevices)
      change fun w => { w with activeDevices := (elems configurationDevices).length }
      pure 0

/-! ### `loadSimulatorDetails` -/

/-- What `loadSimulatorDetails` finds in its uninitialised locals (`none` is `NULL`), and what a
caller finds as its result when it ends without a `return`. -/
structure SimulatorJunk where
  simType : Option String
  simIPAddress : Option String
  simPort : ℤ
  ret : ℤ

/-- `loadSimulatorDetails`. -/
def loadSimulatorDetails (configuration : ConfigState Setting) (junk : SimulatorJunk) :
    WorldRun ℤ := do
  match ← configLookup configuration ["configuration", "simulator"] with
  | none => pure exitFailure
  | some simulator =>
      match elems simulator with
      | [] => pure exitFailure
      | simulatorConfig :: _ =>
          match (lookupString simulatorConfig "type").or junk.simType with
          | none => pure exitFailure
          | some simType =>
              match (lookupString simulatorConfig "ipAddress").or junk.simIPAddress with
              | none => pure exitFailure
              | some simIPAddress =>
                  let simPort := (lookupInt simulatorConfig "port").getD junk.simPort
                  -- `simPort == NULL`
                  if simPort = 0 then pure exitFailure
                  else do
                    change fun w => { w with simConfig := some ⟨simType, simIPAddress, simPort⟩ }
                    pure junk.ret

end SimPokey
