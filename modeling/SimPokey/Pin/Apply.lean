import SimPokey.Pin.LoadSpec

/-!
# `pin.c`: validating the table and applying it to the device

* `checkValidPinConfiguration` marks the records whose type the pin can take, and makes a text for
  each record, which it logs for those that are not valid;
* `applyPinConfigurationToDevice` edits the in-memory image of the device record by record, and
  on the way hands it to `PK_PWMConfigurationSet` or `PK_DigitalIOSet`.

The loops run over the slots `0, …, numberOfPins - 1`.  Memory that C leaves uninitialised (`ch`,
and the blocks that `malloc` returns) is a parameter.
-/

namespace SimPokey

open FaultState

/-! ### `checkValidPinConfiguration` -/

/-- Whether the branch of the record's type sets `valid`. -/
def passesCheck (lib : PoKeysLib) (pokey : PoKeysDevice) (port : DevicePort) : Bool :=
  let cap := lib.checkPinCapability pokey port.pin
  if port.type = PinType.digitalInput then !(cap .digitalInput == 0)
  else if port.type = PinType.digitalOutput then !(cap .digitalOutput == 0)
  else if port.type = PinType.encoder then !(cap .digitalInput == 0)
  else if port.type = PinType.fastEncoder then
    !(port.pin != 1 && port.pin != 2 && port.pin != 5 && port.pin != 6 && port.pin != 15 &&
      port.pin != 16)
  else if port.type = PinType.ufastEncoder then
    !(port.pin != 8 && port.pin != 12 && port.pin != 13)
  else if port.type = PinType.analogInput then
    !(cap .analogInput == 0 && cap .mfAnalogInput == 0)
  else if port.type = PinType.pwmInput then !(cap .pwmOut == 0)
  else if port.type = PinType.counter then !(cap .digitalCounter == 0)
  -- `TRIGGER` never passes, and the other codes have no case
  else false

/-- `TRIGGER`. -/
def PinType.trigger : ℤ := 10

/-- `getPinTypeString`. -/
def getPinTypeString (type : ℤ) : String :=
  if type = PinType.digitalInput then "DIN"
  else if type = PinType.digitalOutput then "DOUT"
  else if type = PinType.analogInput then "AIN"
  else if type = PinType.encoder then "ENC"
  else if type = PinType.fastEncoder then "FENC"
  else if type = PinType.ufastEncoder then "UFENC"
  else if type = PinType.pwmInput then "PWM"
  else if type = PinType.trigger then "TRIGGER"
  else if type = PinType.counter then "COUNTER"
  else "UNKNOWN"

/-- The text that names the record. -/
def reportText (port : DevicePort) : String :=
  "- Error: " ++ port.name ++ " (" ++ getPinTypeString port.type ++ ") on pin " ++
    toString port.pin

/-- What the case of the type appends when its check fails; other types have no case. -/
def incorrectType (type : ℤ) : Option String :=
  if type = PinType.digitalInput then some " - Incorrect type DIGITAL_INPUT"
  else if type = PinType.digitalOutput then some " - Incorrect type DIGITAL_OUTPUT"
  else if type = PinType.encoder then some " - Incorrect type ENCODER"
  else if type = PinType.fastEncoder then some " - Incorrect type FAST_ENCODER"
  else if type = PinType.ufastEncoder then some " - Incorrect type UFAST_ENCODER"
  else if type = PinType.analogInput then some " - Incorrect type ANALOG_INPUT"
  else if type = PinType.pwmInput then some " - Incorrect type PWM"
  else if type = PinType.counter then some " - Incorrect type COUNTER"
  else if type = PinType.trigger then some " - Incorrect type TRIGGER"
  else none

/-- A block of `size` bytes with the text that was written into it. -/
structure TextBlock where
  size : ℕ
  text : String

/-- `asprintf`: a block of the size of the text and its terminator. -/
def asprintf (text : String) : MemRun TextBlock := do
  touch (.text (text.length + 1) text.length)
  pure ⟨text.length + 1, text⟩

/-- `strcat(str, s)`: the block is as large as it was. -/
def strcat (str : TextBlock) (s : String) : MemRun TextBlock := do
  touch (.text str.size (str.text.length + s.length))
  pure { str with text := str.text ++ s }

/-- The turn of the loop for the slot `i`. -/
def checkPort (lib : PoKeysLib) (device : Device) (pokey : PoKeysDevice) (i : ℕ) : MemRun Unit := do
  let port ← portAt device i
  let str ← asprintf (reportText port.2)
  if passesCheck lib pokey port.2 then writePort port.1 { port.2 with valid := 1 }
  else do
    let str ← (incorrectType port.2.type).elim (pure str) (strcat str)
    if port.2.valid = pinInvalid then logReport str.text else pure ()

/-- `checkValidPinConfiguration`; its second argument is not used. -/
def checkValidPinConfiguration (lib : PoKeysLib) (device : Device) : MemRun (ℤ × Device) :=
  if device.hasPokey = 0 then pure (-1, device)
  else do
    let pokey ← pokeyOf device
    let pokey := lib.readPinConfiguration pokey
    (List.range device.numberOfPins.toNat).foldlM (fun _ i => checkPort lib device pokey i) ()
    pure (0, { device with pokey := some pokey })

/-! ### `applyPinConfigurationToDevice` -/

/-- What is found in `ch` and in the two blocks allocated in a turn for a PWM pin. -/
structure PwmJunk where
  ch : ℕ
  enabledChannels : ℤ → ℕ
  dutyCycle : ℤ → ℕ

/-- Zeros. -/
def PwmJunk.cleared : PwmJunk := ⟨0, fun _ => 0, fun _ => 0⟩

/-- The channel of a PWM pin; `ch` keeps what it held for any other pin. -/
def pwmChannel (pin : ℤ) (ch : ℕ) : ℕ :=
  if pin = 17 then 6
  else if pin = 18 then 5
  else if pin = 19 then 4
  else if pin = 20 then 3
  else if pin = 21 then 2
  else if pin = 22 then 1
  else ch

/-- `(unsigned int)(PWM_CLOCK / dutyCycle)`. -/
def pwmDutyOf (dutyCycle : ℤ) : ℕ := (pwmClock.tdiv dutyCycle % 2 ^ 32).toNat

/-- The branch for a valid PWM pin. -/
def applyPwm (junk : PwmJunk) (pokey : PoKeysDevice) (port : DevicePort) : MemRun PoKeysDevice := do
  let ch : ℤ := pwmChannel port.pin junk.ch
  -- `malloc(sizeof(uint8_t))`: one cell
  touch (.block 1 (ch - 1))
  let enabledChannels := (Block.mk 1 junk.enabledChannels).write (ch - 1) 1
  if port.dutyCycle = 0 then fault .divisionByZero
  else do
    touch (.block 6 (ch - 1))
    let dutyCycle := (Block.mk 6 junk.dutyCycle).write (ch - 1) (pwmDutyOf port.dutyCycle)
    let pokey :=
      { pokey with
        pwm := ⟨pwmClock.toNat, some dutyCycle, some enabledChannels⟩ }
    send (.pwmConfigurationSet pokey)
    pure pokey

/-- The turn of the loop for one record. -/
def applyPort (junk : PwmJunk) (pokey : PoKeysDevice) (port : DevicePort) :
    MemRun PoKeysDevice := do
  let k := port.pin - 1
  if port.valid = pinInvalid then do
    touch (.pokeyPins pokey.iPinCount k)
    pure (pokey.setPinFunction k PinCap.reserved)
  else if port.type = PinType.digitalOutput then do
    touch (.pokeyPins pokey.iPinCount k)
    pure ((pokey.setPinFunction k PinCap.digitalOutput).setDigitalValue k 0)
  else if port.type = PinType.digitalInput then do
    touch (.pokeyPins pokey.iPinCount k)
    pure (pokey.setPinFunction k PinCap.digitalInput)
  else if port.type = PinType.pwmInput then applyPwm junk pokey port
  else do
    send (.digitalIOSet pokey)
    pure pokey

/-- The turn of the loop for the slot `i`. -/
def applySlot (junk : ℕ → PwmJunk) (device : Device) (pokey : PoKeysDevice) (i : ℕ) :
    MemRun PoKeysDevice := do
  let port ← portAt device i
  applyPort (junk i) pokey port.2

/-- `applyPinConfigurationToDevice`: the device with its edited image. -/
def applyPinConfigurationToDevice (junk : ℕ → PwmJunk) (device : Device) : MemRun Device := do
  let pokey ← pokeyOf device
  let pokey ← (List.range device.numberOfPins.toNat).foldlM (applySlot junk device) pokey
  pure { device with pokey := some pokey }

end SimPokey
