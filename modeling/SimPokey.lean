import SimPokey.Lib.FaultState
import SimPokey.Lib.FirstWins
import SimPokey.Lib.SlotPass
import SimPokey.Lib.CString
import SimPokey.Lib.Writes
import SimPokey.Lib.Changes
import SimPokey.Lib.Simulation
import SimPokey.Lib.Interleave
import SimPokey.Lib.Growth
import SimPokey.Lib.Stepwise
import SimPokey.LibConfig
import SimPokey.PoKeysLib
import SimPokey.Device
import SimPokey.World
import SimPokey.Pin.Load
import SimPokey.Pin.Table
import SimPokey.Pin.LoadSpec
import SimPokey.Pin.Locals
import SimPokey.Pin.LoadSequence
import SimPokey.Pin.Apply
import SimPokey.Pin.Validate
import SimPokey.Pin.CheckReport
import SimPokey.Pin.ApplySpec
import SimPokey.Pin.ApplyImage
import SimPokey.Pin.PinImage
import SimPokey.Pin.Pwm
import SimPokey.Pin.ApplyUses
import SimPokey.Pokey
import SimPokey.Pin.Frames
import SimPokey.Pin.PollSpec
import SimPokey.Pin.PollTrace
import SimPokey.Pin.DeviceLoops
import SimPokey.Pin.LoopUses
import SimPokey.Config
import SimPokey.Config.Registry
import SimPokey.Config.Capacity
import SimPokey.Config.Initialised
import SimPokey.Config.Apart
import SimPokey.Main
import SimPokey.Startup.Errors
import SimPokey.Startup.Turns
import SimPokey.Startup.Reached
import SimPokey.Startup.Lookup
import SimPokey.Startup.Serial
import SimPokey.Startup.Registry
import SimPokey.Startup.Polling
import SimPokey.Startup.Shutdown
import SimPokey.Startup.Pipeline
import SimPokey.Startup.Hardware
import SimPokey.Startup.PinRange
import SimPokey.Startup.Name
import SimPokey.Startup.Site
import SimPokey.Startup.Steps
import SimPokey.Startup.Texts
import SimPokey.Startup.Represents
import SimPokey.Startup.Loaded
import SimPokey.Startup.Explained
import SimPokey.Startup.System
import SimPokey.Startup.Blocks
import SimPokey.Startup.Sent
import SimPokey.Startup.PwmSent
import SimPokey.Startup.Polled
import SimPokey.Startup.Bounds
import SimPokey.Startup.Ownership
import SimPokey.Startup.Session
import SimPokey.Startup.Restart
