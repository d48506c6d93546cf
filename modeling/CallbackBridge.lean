import CallbackBridge.NameMap
import CallbackBridge.Bridge
import CallbackBridge.Heap.Runtime
import CallbackBridge.Recorded
import CallbackBridge.Native.Solver
import CallbackBridge.Counted.Store
import CallbackBridge.Counted.Ledger
import CallbackBridge.Client.Exception
import CallbackBridge.Client.Arguments
import CallbackBridge.Native.Target
import CallbackBridge.Process.Answer
import CallbackBridge.Process.Step
import CallbackBridge.Process.Native
import CallbackBridge.Process.Machine
import CallbackBridge.Script.Native
import CallbackBridge.Script.Callable
import CallbackBridge.Workbench
import CallbackBridge.Profile
import CallbackBridge.Process.Transcript
import CallbackBridge.Proofs.ViewSafety
import CallbackBridge.Proofs.Bodies
import CallbackBridge.Proofs.SliceSessions
import CallbackBridge.Proofs.Callbacks
import CallbackBridge.Proofs.Delivery
import CallbackBridge.Proofs.PinBalance
import CallbackBridge.Proofs.LockedRegistry
import CallbackBridge.Proofs.Reentry
import CallbackBridge.Proofs.RegistrySteps
import CallbackBridge.Proofs.UserLevels
import CallbackBridge.Proofs.Recovery
import CallbackBridge.Proofs.RegistryHistory
import CallbackBridge.Proofs.Resolution
import CallbackBridge.Proofs.IdealHeap
import CallbackBridge.Proofs.HeapLogs
import CallbackBridge.Proofs.Evaluations
import CallbackBridge.Proofs.Relapse
import CallbackBridge.Proofs.CountedCalls
import CallbackBridge.Proofs.Injected
import CallbackBridge.Proofs.Validation
import CallbackBridge.Proofs.UserFailures
import CallbackBridge.Proofs.Escapes
import CallbackBridge.Proofs.Counters
import CallbackBridge.Proofs.Collections
import CallbackBridge.Proofs.Mismatches
import CallbackBridge.Proofs.Rejections
import CallbackBridge.Proofs.CallScopes
import CallbackBridge.Proofs.CallResults
import CallbackBridge.Proofs.StandingViews
import CallbackBridge.Proofs.Occupancy
import CallbackBridge.Proofs.BoundedOccupancy
import CallbackBridge.Proofs.Marching
import CallbackBridge.Proofs.TableRuns
import CallbackBridge.Proofs.AgreeingChecks
import CallbackBridge.Proofs.Coupling
import CallbackBridge.Proofs.PairedBridges
import CallbackBridge.Proofs.AlikeHeaps
import CallbackBridge.Proofs.Slack
import CallbackBridge.Proofs.LedgerRuns
