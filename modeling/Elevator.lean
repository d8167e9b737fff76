import Elevator.CString
import Elevator.Scan
import Elevator.Framing
import Elevator.Transition
import Elevator.SharedMemory
import Elevator.Floor
import Elevator.Safety
import Elevator.Internal
import Elevator.Car
import Elevator.Interlock
import Elevator.Shaft
import Elevator.Settling
import Elevator.DoorCycle
import Elevator.Attending
import Elevator.OrderCycle
import Elevator.Emergency
import Elevator.ServiceMode
import Elevator.Obstruction
import Elevator.CarTcp
import Elevator.OutOfService
import Elevator.ControllerMemory
import Elevator.Controller
import Elevator.Registry
import Elevator.Itinerary
import Elevator.Served
import Elevator.OwnRecord
import Elevator.Heading
import Elevator.NamedRecord
import Elevator.DoorCount
import Elevator.ControllerLoop
import Elevator.StatusWire
import Elevator.CarReception
import Elevator.IncompleteFrame
import Elevator.Routing
import Elevator.Connections
import Elevator.Announcement
import Elevator.Edits
import Elevator.Selection
import Elevator.Blocks
import Elevator.SweepOrder
import Elevator.PendingStop
import Elevator.Trip
import Elevator.Independence
import Elevator.Cells
import Elevator.ControllerArray
import Elevator.Tracking
import Elevator.Overrun
import Elevator.Wakeups
import Elevator.DoorRun
import Elevator.LinkedList
import Elevator.QueueMemory
import Elevator.FirstLeast
import Elevator.Dispatch
import Elevator.Departure
import Elevator.Registration
import Elevator.Malformed
import Elevator.Leftover
import Elevator.Labels
import Elevator.CommandLine
import Elevator.Moves
import Elevator.ManualDriving
import Elevator.CheckedDriving
import Elevator.MutexUse
import Elevator.ByteMemory
import Elevator.ControllerBytes
import Elevator.RecordTexts
import Elevator.LookupTable
import Elevator.StatusNumbers
import Elevator.StatusLookup
import Elevator.Session
import Elevator.Beliefs
import Elevator.LinkedShaft
import Elevator.Alarm
import Elevator.Bystander
import Elevator.CallPad
import Elevator.CountingLoop
import Elevator.SelectLoop
import Elevator.QueueLedger
import Elevator.BoundedWait
import Elevator.CalledFloors
import Elevator.CleanSlate
import Elevator.Errand
import Elevator.KeepingUp
