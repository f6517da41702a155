import SimPokey.LibConfig
import SimPokey.Device

/-!
# `pin.c`: the pin table and the two loaders

`loadPinConfiguration` and `loadPWMConfiguration` go through the entries of a `pins` and a `pwm`
list and append one port record for each entry they accept.  Each entry is one turn of the loop;
what a turn skips, it skips by `continue`, that is by returning the state it was given.
-/

namespace SimPokey

open FaultState LibConfig

/-! ### `pin.h` -/

/-- `PIN_FREE`. -/
def pinFree : ℤ := 0

/-- `PIN_EXISTS`. -/
def pinExists : ℤ := 1

/-- `PIN_INVALID`. -/
def pinInvalid : ℤ := 0

/-- `NO_PINS`. -/
def noPins : ℤ := 1

namespace PinType

/-- `UKNOWN_PIN_TYPE`. -/
def uknown : ℤ := 0

/-- `DIGITAL_INPUT`. -/
def digitalInput : ℤ := 1

/-- `DIGITAL_OUTPUT`. -/
def digitalOutput : ℤ := 2

/-- `ANALOG_INPUT`. -/
def analogInput : ℤ := 3

/-- `ENCODER`. -/
def encoder : ℤ := 5

/-- `FAST_ENCODER`. -/
def fastEncoder : ℤ := 6

/-- `UFAST_ENCODER`. -/
def ufastEncoder : ℤ := 7

/-- `PWM_INPUT`. -/
def pwmInput : ℤ := 8

/-- `COUNTER`. -/
def counter : ℤ := 9

end PinType

/-! ### `checkPinExistsInConfig` -/

/-- The search over the slots `is`. -/
def checkPinExistsFrom (device : Device) (pin : ℤ) : List ℕ → MemRun ℤ
  | [] => pure pinFree
  | i :: is => do
      let port ← portAt device i
      if pin = port.2.pin then pure pinExists else checkPinExistsFrom device pin is

/-- Whether a record of the table has the pin. -/
def checkPinExistsInConfig (device : Device) (pin : ℤ) : MemRun ℤ :=
  checkPinExistsFrom device pin (List.range device.numberOfPins.toNat)

variable {Setting : Type} [LibConfig Setting]

/-! ### `loadPinConfiguration` -/

/-- The type code of a `type` string. -/
def pinTypeOf (tempType : String) : ℤ :=
  if "DIGITAL_INPUT" = tempType then PinType.digitalInput
  else if "DIGITAL_OUTPUT" = tempType then PinType.digitalOutput
  else PinType.uknown

/-- The record filled in for an accepted entry of `pins`.  The test after the lookup of
`"default"` looks at `ret`, which still holds the result of the lookup of `"name"`. -/
def pinPort (entry : Setting) (pin : ℤ) (tempType : String) : DevicePort :=
  let name := lookupString entry "name"
  { name := name.getD "Undefined"
    pin := pin
    type := pinTypeOf tempType
    defaultValue := if name.isNone then 0 else (lookupInt entry "default").getD 0
    valid := pinInvalid
    value := 0
    previousValue := 0
    dutyCycle := 0 }

/-- One turn of the loop of `loadPinConfiguration`, on the device and `pinIndex`. -/
def loadPinEntry (st : Device × ℤ) (entry : Setting) : MemRun (Device × ℤ) :=
  match lookupInt entry "pin" with
  | none => pure st
  | some pin => do
      if (← checkPinExistsInConfig st.1 pin) = pinExists then pure st
      else
        match lookupString entry "type" with
        | none => pure st
        | some tempType => do
            let device ← storePort st.1 st.2 (pinPort entry pin tempType)
            pure ({ device with numberOfPins := device.numberOfPins + 1 }, st.2 + 1)

/-- `loadPinConfiguration`: the result code and the device. -/
def loadPinConfiguration (configuredPorts : Option Setting) (device : Device) :
    MemRun (ℤ × Device) :=
  match configuredPorts with
  | none => pure (noPins, device)
  | some ports =>
      if (elems ports).length = 0 then pure (noPins, device)
      else do
        let st ← (elems ports).foldlM loadPinEntry (device, 0)
        pure (0, st.1)

/-! ### `loadPWMConfiguration` -/

/-- The pin of a PWM channel. -/
def pwmPin (channel : ℤ) : Option ℤ :=
  if channel = 6 then some 17
  else if channel = 5 then some 18
  else if channel = 4 then some 19
  else if channel = 3 then some 20
  else if channel = 2 then some 21
  else if channel = 1 then some 22
  else none

/-- The record filled in for an accepted entry of `pwm`. -/
def pwmPort (entry : Setting) (pin : ℤ) : DevicePort where
  name := (lookupString entry "name").getD "Undefined"
  pin := pin
  type := PinType.pwmInput
  defaultValue := 0
  valid := pinInvalid
  value := 0
  previousValue := 0
  dutyCycle := (lookupInt entry "dutyCycle").getD 100

/-- One turn of the loop of `loadPWMConfiguration`; the slot is `numberOfPins` here. -/
def loadPWMEntry (device : Device) (entry : Setting) : MemRun Device :=
  match lookupInt entry "channel" with
  | none => pure device
  | some channel =>
      match pwmPin channel with
      | none => pure device
      | some pin => do
          if (← checkPinExistsInConfig device pin) = pinExists then pure device
          else do
            let device ← storePort device device.numberOfPins (pwmPort entry pin)
            pure { device with numberOfPins := device.numberOfPins + 1 }

/-- `loadPWMConfiguration`: the result code and the device. -/
def loadPWMConfiguration (configuredPorts : Option Setting) (device : Device) :
    MemRun (ℤ × Device) :=
  match configuredPorts with
  | none => pure (noPins, device)
  | some ports =>
      if (elems ports).length = 0 then pure (noPins, device)
      else do
        let device ← (elems ports).foldlM loadPWMEntry device
        pure (0, device)

end SimPokey
