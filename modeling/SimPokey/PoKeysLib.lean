import SimPokey.Lib.FaultState

/-!
# PoKeysLib: the in-memory image of a device and the library calls

`PoKeysLib.h` declares the device structure `sPoKeysDevice` and the calls the program makes; the
library itself is a binary.  The image keeps the fields the program reads or writes.  A call that
sends something is known by the image it is handed (`LibCall`); the answers of a device are a
parameter (`PoKeysLib`).
-/

namespace SimPokey

/-! ### Codes -/

/-- `PK_OK`. -/
def pkOk : ℤ := 0

namespace PinCap

/-- `PK_PinCap_reserved`. -/
def reserved : ℤ := 1

/-- `PK_PinCap_digitalInput`. -/
def digitalInput : ℤ := 2

/-- `PK_PinCap_digitalOutput`. -/
def digitalOutput : ℤ := 4

end PinCap

/-- The capabilities of `ePK_AllPinCap` that the program asks about. -/
inductive AllPinCap
  | digitalInput
  | digitalOutput
  | analogInput
  | mfAnalogInput
  | digitalCounter
  | pwmOut
  deriving DecidableEq

/-! ### The image of a device -/

/-- `sPoKeysPinData`. -/
structure PinData where
  pinFunction : ℤ
  digitalValueGet : ℤ
  digitalValueSet : ℤ

/-- A block obtained from `malloc`: how many cells it has, and what is found from its first cell
on (beyond `size` that is memory of somebody else). -/
structure Block where
  size : ℕ
  cell : ℤ → ℕ

/-- `block[i] = v`; C does not compare `i` with the size. -/
def Block.write (b : Block) (i : ℤ) (v : ℕ) : Block :=
  { b with cell := Function.update b.cell i v }

/-- The cell `i` of the block, if the block has it. -/
def Block.read (b : Block) (i : ℤ) : Option ℕ :=
  if 0 ≤ i ∧ i < b.size then some (b.cell i) else none

/-- `sPoKeysPWM`; `none` is a pointer the program has not set. -/
structure Pwm where
  pwmPeriod : ℕ
  pwmDuty : Option Block
  pwmEnabledChannels : Option Block

/-- `sPoKeysDevice`, at the address `addr`.  `pins k` is what is found `k` elements after
`Pins[0]`; the array itself has the elements `0 ≤ k < iPinCount`. -/
structure PoKeysDevice where
  addr : ℕ
  iPinCount : ℕ
  deviceName : ℕ → Char
  pins : ℤ → PinData
  pwm : Pwm

/-- An image with `iPinCount` pins whose bytes are all zero. -/
def PoKeysDevice.cleared (iPinCount : ℕ) : PoKeysDevice :=
  ⟨0, iPinCount, fun _ => Char.ofNat 0, fun _ => ⟨0, 0, 0⟩, ⟨0, none, none⟩⟩

/-- `device->Pins[k].PinFunction = f`. -/
def PoKeysDevice.setPinFunction (pokey : PoKeysDevice) (k f : ℤ) : PoKeysDevice :=
  { pokey with pins := Function.update pokey.pins k { pokey.pins k with pinFunction := f } }

/-- `device->Pins[k].DigitalValueSet = v`. -/
def PoKeysDevice.setDigitalValue (pokey : PoKeysDevice) (k v : ℤ) : PoKeysDevice :=
  { pokey with pins := Function.update pokey.pins k { pokey.pins k with digitalValueSet := v } }

/-- `sPoKeysNetworkDeviceSummary`, a device found on the network.  The serial number is a
`uint32_t`. -/
structure NetworkDeviceSummary where
  serialNumber : ℕ
  serialNumber_lt : serialNumber < 2 ^ 32

/-! ### Calls -/

/-- A call that sends the image it is handed, as it is at the call. -/
inductive LibCall
  | pinConfigurationSet (pokey : PoKeysDevice)
  | digitalIOSet (pokey : PoKeysDevice)
  | pwmConfigurationSet (pokey : PoKeysDevice)
  | deviceNameSet (pokey : PoKeysDevice)

/-- The image the call is handed. -/
def LibCall.image : LibCall → PoKeysDevice
  | .pinConfigurationSet pokey => pokey
  | .digitalIOSet pokey => pokey
  | .pwmConfigurationSet pokey => pokey
  | .deviceNameSet pokey => pokey

/-- What the library answers from the device it is handed: `PK_CheckPinCapability` (nonzero when
the pin has the capability) and the pin functions `PK_PinConfigurationGet` fills in. -/
structure PoKeysLib where
  checkPinCapability : PoKeysDevice → ℤ → AllPinCap → ℤ
  pinConfigurationGet : PoKeysDevice → ℤ → ℤ

/-- Devices that can do everything on each of their pins, and have no pin function yet. -/
def PoKeysLib.capable : PoKeysLib where
  checkPinCapability := fun pokey pin _ => if 1 ≤ pin ∧ pin ≤ pokey.iPinCount then 1 else 0
  pinConfigurationGet := fun _ _ => 0

/-- `PK_PinConfigurationGet`: the pin functions of the image are overwritten. -/
def PoKeysLib.readPinConfiguration (lib : PoKeysLib) (pokey : PoKeysDevice) : PoKeysDevice :=
  { pokey with
    pins := fun k => { pokey.pins k with pinFunction := lib.pinConfigurationGet pokey k } }

/-- One outcome of `PK_DigitalIOGet`: its result and the levels it read. -/
structure Reading where
  ret : ℤ
  digitalValueGet : ℤ → ℤ

end SimPokey
