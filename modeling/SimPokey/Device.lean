import SimPokey.PoKeysLib

/-!
# `pokey.h`: devices, ports and the memory they live in

A `device_t` holds in `pins[]` pointers to `device_port_t` records that the loaders allocate one
by one; `getDeviceBySerialNumber` copies a `device_t` with its pointers, so two devices may share
their records.  The records therefore live in a heap (`Memory.ports`, a pointer is a position)
and `Device.pins` holds the pointers.

What C leaves undefined is treated in two ways.  Following a pointer that leads to no record, and
dividing by zero, stops the run (`Fault`).  An array index is used as it is, and recorded
(`Access`), so that whether it lies inside the array can be asked afterwards.  An index is recorded
without the device whose array it is for.

A `String` stands for a C string, a `Char` for one byte of it.
-/

namespace SimPokey

open FaultState

/-- `MAX_DEVICES`. -/
def maxDevices : ℕ := 16

/-- `MAX_PINS`. -/
def maxPins : ℕ := 55

/-- `MAX_DEVICE_NAME_LENGTH`. -/
def maxDeviceNameLength : ℕ := 10

/-- `PWM_CLOCK`. -/
def pwmClock : ℤ := 12500000

/-- `device_port_t`. -/
structure DevicePort where
  name : String
  pin : ℤ
  type : ℤ
  defaultValue : ℤ
  valid : ℤ
  value : ℤ
  previousValue : ℤ
  dutyCycle : ℤ
  deriving DecidableEq

/-- `device_t`, at the address `addr`.  `pins i` is the pointer found `i` elements after
`pins[0]`; the array itself has the elements `0 ≤ i < maxPins`.  For a pointer, `none` is one
that leads to nothing this run has made: what `malloc` left there. -/
structure Device where
  addr : ℕ
  serialNumber : String
  name : String
  uid : ℤ
  hasPokey : ℤ
  dhcp : ℤ
  numberOfPins : ℤ
  pokey : Option PoKeysDevice
  pins : ℤ → Option ℕ
  loop : Option ℕ

/-- A record whose bytes are all zero. -/
def Device.cleared : Device := ⟨0, "", "", 0, 0, 0, 0, none, fun _ => none, none⟩

/-- What stops a run. -/
inductive Fault
  /-- `devices[i]` is `NULL` and is dereferenced. -/
  | nullDevice
  /-- `pins[i]` leads to no port record. -/
  | wildPort
  /-- `device->pokey` leads to no device image. -/
  | wildPokey
  /-- A `device_t *` that leads to no device record. -/
  | wildDevice
  /-- `device->loop` leads to no loop. -/
  | wildLoop
  | divisionByZero
  /-- A libconfig call on a `NULL` setting. -/
  | nullSetting
  /-- A lookup in a configuration after `config_destroy`. -/
  | destroyedConfig
  /-- `simConfig` is `NULL` and is dereferenced. -/
  | nullSimConfig
  deriving DecidableEq

/-- A use that is recorded. -/
inductive Access
  /-- The slot `devices[i]` is written. -/
  | devices (i : ℤ)
  /-- The slot `pins[i]` of a device is read or written. -/
  | pins (i : ℤ)
  /-- The element `Pins[k]` of a device image with `count` elements is read or written. -/
  | pokeyPins (count : ℕ) (k : ℤ)
  /-- The cell `i` of a block of `size` cells is written. -/
  | block (size : ℕ) (i : ℤ)
  /-- A block of `size` bytes is written to up to the end of a text of `length` characters, its
  terminator. -/
  | text (size length : ℕ)
  /-- `simConfig` is dereferenced. -/
  | simConfig
  deriving DecidableEq

/-- The indexed array has the element. -/
def Access.InBounds : Access → Prop
  | .devices i => 0 ≤ i ∧ i < maxDevices
  | .pins i => 0 ≤ i ∧ i < maxPins
  | .pokeyPins count k => 0 ≤ k ∧ k < count
  | .block size i => 0 ≤ i ∧ i < size
  | .text size length => length < size
  | .simConfig => True

/-- A line `%s - %s - %s --> %s` of `digitalIOTimerCallback`: device, port and levels. -/
structure Message where
  device : String
  port : String
  previousValue : ℤ
  value : ℤ
  deriving DecidableEq

/-- The word for a level. -/
def onOff (level : ℤ) : String := if level = 1 then "On" else "Off"

/-- The text of the line. -/
def Message.text (msg : Message) : String :=
  msg.device ++ " - " ++ msg.port ++ " - " ++ onOff msg.previousValue ++ " --> " ++
    onOff msg.value

/-- The heap of port records, and what has been recorded so far; `reports` are the lines that
`checkValidPinConfiguration` logs. -/
structure Memory where
  ports : List DevicePort
  accesses : List Access
  sent : List LibCall
  messages : List Message
  reports : List String

/-- Nothing allocated and nothing recorded. -/
def Memory.empty : Memory := ⟨[], [], [], [], []⟩

/-- A computation on the memory. -/
abbrev MemRun := Run Fault Memory

/-- Record a use. -/
def Memory.touch (m : Memory) (a : Access) : Memory :=
  { m with accesses := m.accesses ++ [a] }

@[simp] theorem Memory.touch_ports (m : Memory) (a : Access) : (m.touch a).ports = m.ports := rfl

@[simp] theorem Memory.touch_accesses (m : Memory) (a : Access) :
    (m.touch a).accesses = m.accesses ++ [a] := rfl

@[simp] theorem Memory.touch_sent (m : Memory) (a : Access) : (m.touch a).sent = m.sent := rfl

@[simp] theorem Memory.touch_messages (m : Memory) (a : Access) :
    (m.touch a).messages = m.messages := rfl

/-- Between the two memories only uses with `P` were recorded. -/
def UsesOnly (P : Access → Prop) (m m' : Memory) : Prop :=
  ∃ new, m'.accesses = m.accesses ++ new ∧ ∀ a ∈ new, P a

theorem UsesOnly.of_eq (P : Access → Prop) {m m' : Memory} (h : m'.accesses = m.accesses) :
    UsesOnly P m m' := ⟨[], by simpa using h, by simp⟩

theorem UsesOnly.touch {P : Access → Prop} {a : Access} (h : P a) (m : Memory) :
    UsesOnly P m (m.touch a) := ⟨[a], rfl, by simpa using h⟩

theorem UsesOnly.trans {P : Access → Prop} {m m' m'' : Memory} (h : UsesOnly P m m')
    (h' : UsesOnly P m' m'') : UsesOnly P m m'' := by
  obtain ⟨new, hnew, hin⟩ := h
  obtain ⟨new', hnew', hin'⟩ := h'
  refine ⟨new ++ new', by rw [hnew', hnew, List.append_assoc], fun a ha => ?_⟩
  rcases List.mem_append.1 ha with ha | ha
  · exact hin a ha
  · exact hin' a ha

theorem UsesOnly.imp {P Q : Access → Prop} {m m' : Memory} (h : UsesOnly P m m')
    (hPQ : ∀ a, P a → Q a) : UsesOnly Q m m' := by
  obtain ⟨new, hnew, hin⟩ := h
  exact ⟨new, hnew, fun a ha => hPQ a (hin a ha)⟩

instance (P : Access → Prop) : IsPreorder Memory (UsesOnly P) where
  refl := fun _ => .of_eq P rfl
  trans := fun _ _ _ h h' => h.trans h'

def touch (a : Access) : MemRun Unit := fun m => .ok () (m.touch a)

theorem touch_run (a : Access) (m : Memory) : (touch a).run m = .ok () (m.touch a) := rfl

def fault {α : Type} (e : Fault) : MemRun α := fun m => .error e m

/-- Send the image: the call and the image it hands over are recorded. -/
def send (c : LibCall) : MemRun Unit := fun m => .ok () { m with sent := m.sent ++ [c] }

/-- Log a line of the check. -/
def logReport (line : String) : MemRun Unit := fun m =>
  .ok () { m with reports := m.reports ++ [line] }

/-- Log a change of a level. -/
def emit (msg : Message) : MemRun Unit := fun m =>
  .ok () { m with messages := m.messages ++ [msg] }

/-- `device->pins[i]->…`: the pointer and the record it leads to. -/
def portAt (device : Device) (i : ℤ) : MemRun (ℕ × DevicePort) := fun m =>
  match device.pins i with
  | none => .error .wildPort (m.touch (.pins i))
  | some p =>
      match m.ports[p]? with
      | none => .error .wildPort (m.touch (.pins i))
      | some port => .ok (p, port) (m.touch (.pins i))

/-- Replace the record the pointer `p` leads to. -/
def writePort (p : ℕ) (port : DevicePort) : MemRun Unit := fun m =>
  .ok () { m with ports := m.ports.set p port }

/-- `malloc` a record, fill it, and put the pointer into `device->pins[i]`. -/
def storePort (device : Device) (i : ℤ) (port : DevicePort) : MemRun Device := fun m =>
  .ok { device with pins := Function.update device.pins i (some m.ports.length) }
    { m.touch (.pins i) with ports := m.ports ++ [port] }

/-- `device->pokey`, dereferenced. -/
def pokeyOf (device : Device) : MemRun PoKeysDevice := fun m =>
  match device.pokey with
  | none => .error .wildPokey m
  | some pokey => .ok pokey m

theorem pokeyOf_run {device : Device} {pokey : PoKeysDevice} (h : device.pokey = some pokey)
    (m : Memory) : (pokeyOf device).run m = .ok pokey m := by
  simp only [pokeyOf, EStateM.run, h]

end SimPokey
