import CoreBridge.Config.Fields
import CoreBridge.Config.Render
import CoreBridge.Core.Notation
import CoreBridge.Core.Scripted
import CoreBridge.Demo.Operations
import CoreBridge.Host.Executor
import CoreBridge.Host.Loading
import CoreBridge.Host.Object
import CoreBridge.Host.Report
import CoreBridge.Proofs.Async.Abandonment
import CoreBridge.Proofs.Async.Accounting
import CoreBridge.Proofs.Async.CallIds
import CoreBridge.Proofs.Async.Independence
import CoreBridge.Proofs.Async.Lifecycle
import CoreBridge.Proofs.Async.Outcome
import CoreBridge.Proofs.Call.Classification
import CoreBridge.Proofs.Call.Custody
import CoreBridge.Proofs.Callback.Answers
import CoreBridge.Proofs.Callback.Handles
import CoreBridge.Proofs.Callback.Proxies
import CoreBridge.Proofs.Callback.Registration
import CoreBridge.Proofs.Callback.Relay
import CoreBridge.Proofs.Object.Lifetime
import CoreBridge.Proofs.Task.Cancellation
import CoreBridge.Proofs.Task.Collecting
import CoreBridge.Proofs.Task.Continuation
import CoreBridge.Proofs.Task.Usage
import CoreBridge.Proofs.Wire.Canonical
import CoreBridge.Proofs.Wire.Counts
import CoreBridge.Proofs.Wire.Delimiting
import CoreBridge.Proofs.Wire.Maps
import CoreBridge.Proofs.Wire.Nodes
import CoreBridge.Proofs.Wire.Refusals
import CoreBridge.Proofs.Wire.RoundTrip
import CoreBridge.Proofs.Wire.Timestamps
import CoreBridge.Task.Script
