import SimPokey.Device

/-!
# The globals of the program

`pokey.h` declares `numberOfDevices`, `devices[]` and `activeDevices`, `config.h` declares
`simConfig`; C starts them all at zero.  Besides these a world has the heap of port records, the
number of blocks allocated so far (`brk`, so that every record, image and loop has an address of
its own), the threads started, and what the shutdown handler called.
-/

namespace SimPokey

open FaultState

/-- `simulator_t`. -/
structure Simulator where
  type : String
  ipAddress : String
  port : ℤ
  deriving DecidableEq

/-- What the last argument of `pthread_create` points at: a device record, or the local variable
`y` of the loop in `main`. -/
inductive ThreadArg
  | device (slot : ℕ)
  | localInt
  deriving DecidableEq

/-- A call made on the way out, with the block it was handed. -/
inductive ShutdownCall
  | uvStop (loop : ℕ)
  | disconnectDevice (pokey : ℕ)
  | free (addr : ℕ)
  | freeSimConfig
  deriving DecidableEq

/-- The globals and what has happened so far. -/
structure World where
  mem : Memory
  brk : ℕ
  devices : ℕ → Option Device
  numberOfDevices : ℕ
  activeDevices : ℕ
  simConfig : Option Simulator
  threads : List ThreadArg
  shutdown : List ShutdownCall

/-- The world at the entry of `main`. -/
def World.init : World where
  mem := .empty
  brk := 0
  devices := fun _ => none
  numberOfDevices := 0
  activeDevices := 0
  simConfig := none
  threads := []
  shutdown := []

/-- A computation on the world. -/
abbrev WorldRun := Run Fault World

/-- A computation on the memory, as a step of the world. -/
def onMem {α : Type} (x : MemRun α) : WorldRun α :=
  onPart World.mem (fun w m => { w with mem := m }) x

/-- A step on the memory that returns, on the world. -/
theorem onMem_of_ok {α : Type} {x : MemRun α} {w : World} {a : α} {m : Memory}
    (h : x.run w.mem = .ok a m) : (onMem x).run w = .ok a { w with mem := m } := onPart_of_ok h

theorem onMem_of_error {α : Type} {x : MemRun α} {w : World} {e : Fault} {m : Memory}
    (h : x.run w.mem = .error e m) : (onMem x).run w = .error e { w with mem := m } :=
  onPart_of_error h

def World.touch (w : World) (a : Access) : World := { w with mem := w.mem.touch a }

/-- The address of a new block. -/
def malloc : WorldRun ℕ := fun w => .ok w.brk { w with brk := w.brk + 1 }

/-- An assignment to globals. -/
def change (f : World → World) : WorldRun Unit := fun w => .ok () (f w)

def stop {α : Type} (e : Fault) : WorldRun α := fun w => .error e w

/-- `devices[i]->…`: the record in the slot. -/
def deviceAt (i : ℕ) : WorldRun Device := fun w =>
  match w.devices i with
  | none => .error .nullDevice w
  | some device => .ok device w

/-- `devices[i] = device`. -/
def storeDevice (i : ℕ) (device : Device) : WorldRun Unit := fun w =>
  .ok () { w.touch (.devices i) with devices := Function.update w.devices i (some device) }

end SimPokey
