import BootEngine.Construction.Recipe
import BootEngine.Reading.Record
import BootEngine.Settings.Strict
import BootEngine.Shop.Counter
import BootEngine.Transaction.Direct
import BootEngine.Transaction.Trial
import BootEngine.Work.Script
import BootEngine.Json.Document
import BootEngine.Proofs.Work.Interleaving
import BootEngine.Proofs.Work.Release
import BootEngine.Proofs.Plan.Resolve
import BootEngine.Proofs.Work.Contexts
import BootEngine.Proofs.Work.Deeds
import BootEngine.Proofs.Work.Stopping
import BootEngine.Proofs.Work.Cancellation
import BootEngine.Proofs.Work.Sharing
import BootEngine.Proofs.Plan.Arrangement
import BootEngine.Proofs.Plan.Earliest
import BootEngine.Proofs.Plan.Cycles
import BootEngine.Proofs.Plan.Strides
import BootEngine.Proofs.Registry.Lookup
import BootEngine.Proofs.Startup.Moves
import BootEngine.Proofs.Startup.Phases
import BootEngine.Proofs.Startup.Forecast
import BootEngine.Proofs.Startup.Stages
import BootEngine.Proofs.Startup.Protocol
import BootEngine.Proofs.Startup.Layers
import BootEngine.Proofs.Startup.Supply
import BootEngine.Proofs.Startup.Publication
import BootEngine.Proofs.Startup.Misplanning
import BootEngine.Proofs.Registry.Disposal
import BootEngine.Proofs.Startup.Abort
import BootEngine.Proofs.Startup.Guards
import BootEngine.Proofs.Startup.Leaks
import BootEngine.Proofs.Registry.Closing
import BootEngine.Proofs.Registry.Latecomers
import BootEngine.Proofs.Startup.Stop
import BootEngine.Proofs.Work.Abreast
import BootEngine.Proofs.Work.Independence
import BootEngine.Proofs.Plan.Faults
import BootEngine.Proofs.Registry.History
import BootEngine.Proofs.Registry.Visibility
import BootEngine.Proofs.Discovery.Scan
import BootEngine.Proofs.Startup.Roots
import BootEngine.Proofs.Text.LowerCase
import BootEngine.Proofs.Settings.Folding
import BootEngine.Proofs.Settings.Sections
import BootEngine.Proofs.Startup.Omission
import BootEngine.Proofs.Shop.Orders
import BootEngine.Proofs.Transaction.Context
import BootEngine.Proofs.Work.Marks
