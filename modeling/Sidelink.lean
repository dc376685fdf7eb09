import Sidelink.Bytes
import Sidelink.Time
import Sidelink.Identity
import Sidelink.Blank
import Sidelink.Packet
import Sidelink.Directory
import Sidelink.Calendar
import Sidelink.Timers
import Sidelink.Flow.Table
import Sidelink.Flow.Profile
import Sidelink.Convergence.Entity
import Sidelink.Link.TransmitBuffer
import Sidelink.Link.Reassembly
import Sidelink.Plane.Events
import Sidelink.Plane.Decode
import Sidelink.Inspection
import Sidelink.Random.Stream
import Sidelink.Document.Json
import Sidelink.Document.Yaml
import Sidelink.Document.Toml.Printer
import Sidelink.Main
import Sidelink.Document.Printer
import Sidelink.Scenario.Decode
import Sidelink.Simulation.Setup
import Sidelink.Simulation.Run
import Sidelink.Simulation.Report
import Sidelink.Proofs.Delivery
import Sidelink.Proofs.LosslessSwitch
import Sidelink.Proofs.Replacement
import Sidelink.Proofs.Gates
import Sidelink.Proofs.Steps
import Sidelink.Proofs.Flushing
import Sidelink.Proofs.Checks
import Sidelink.Proofs.WakeUp
import Sidelink.Proofs.Agenda
import Sidelink.Proofs.Requests
import Sidelink.Proofs.Transmission
import Sidelink.Proofs.AnyOrder
import Sidelink.Proofs.Totals
import Sidelink.Proofs.Ledger
import Sidelink.Proofs.Waiting
import Sidelink.Proofs.Connections
import Sidelink.Proofs.FlowIdentity
import Sidelink.Proofs.Survival
import Sidelink.Proofs.Routeless
import Sidelink.Proofs.Departures
import Sidelink.Proofs.Modes
import Sidelink.Proofs.Paths
import Sidelink.Proofs.Allocation
import Sidelink.Proofs.Refusals
import Sidelink.Proofs.Descriptors
import Sidelink.Proofs.Records
import Sidelink.Proofs.Intakes
import Sidelink.Proofs.Isolation
import Sidelink.Proofs.Termination
import Sidelink.Proofs.Landings
import Sidelink.Proofs.Rotation
import Sidelink.Proofs.Answers
import Sidelink.Proofs.Completion
import Sidelink.Proofs.Queueing
import Sidelink.Proofs.Robustness
import Sidelink.Proofs.Merging
import Sidelink.Proofs.Accounting
import Sidelink.Proofs.WireFormat
import Sidelink.Proofs.Compression
import Sidelink.Proofs.Ownership
import Sidelink.Proofs.Admission
import Sidelink.Proofs.Directions
import Sidelink.Proofs.Destinations
