import OnceCache.Config.Basic
import OnceCache.Config.Document
import OnceCache.Config.Validation
import OnceCache.Coordination.Coordinator
import OnceCache.Coordination.Handle
import OnceCache.Coordination.Line
import OnceCache.Coordination.Registry
import OnceCache.Directive
import OnceCache.Error
import OnceCache.Event
import OnceCache.Generation.Basic
import OnceCache.Generation.Failure
import OnceCache.Http.Form
import OnceCache.Http.Header
import OnceCache.Http.Request
import OnceCache.Http.Target
import OnceCache.Json.Basic
import OnceCache.Json.Numeral
import OnceCache.Json.Text
import OnceCache.Json.Value
import OnceCache.Key
import OnceCache.Key.Derivation
import OnceCache.Manager.Basic
import OnceCache.Manager.Request
import OnceCache.MemorySession.Basic
import OnceCache.MemorySession.Step
import OnceCache.Proofs.Coordination.Role
import OnceCache.Proofs.Coordination.Handle
import OnceCache.Proofs.Coordination.Registry
import OnceCache.Proofs.Coordination.Soundness
import OnceCache.Proofs.Execution.Exclusion
import OnceCache.Proofs.Execution.Faithful
import OnceCache.Proofs.Execution.GenerateOnce
import OnceCache.Proofs.Execution.History
import OnceCache.Proofs.Execution.Memory
import OnceCache.Proofs.Execution.References
import OnceCache.Proofs.Execution.Serial
import OnceCache.Proofs.Execution.State
import OnceCache.Proofs.Execution.Step
import OnceCache.Proofs.Execution.Turn
import OnceCache.Proofs.Execution.WorkingSet
import OnceCache.Proofs.Manager.Memory
import OnceCache.Proofs.Manager.Request
import OnceCache.Proofs.Session.Execution
import OnceCache.Proofs.Store.Accounts
import OnceCache.Proofs.Store.Capacity
import OnceCache.Proofs.Store.Lifetime
import OnceCache.Proofs.Store.Memory
import OnceCache.Proofs.Store.Removal
import OnceCache.Proofs.Store.Timed
import OnceCache.Proofs.Table
import OnceCache.Responder.Basic
import OnceCache.Responder.Response
import OnceCache.Session.Basic
import OnceCache.Session.Operation
import OnceCache.Session.Request
import OnceCache.Session.Step
import OnceCache.Stats
import OnceCache.Store.Basic
import OnceCache.Store.Cleanup
import OnceCache.Store.Memory
import OnceCache.Store.StoredBody
import OnceCache.Store.Unreliable
import OnceCache.Table
import OnceCache.Text.Bytes
import OnceCache.Text.CharClass
import OnceCache.Text.CharClass.Combining
import OnceCache.Text.CharClass.Unprintable
import OnceCache.Text.Quoted
import OnceCache.Time.Clock
import OnceCache.Time.Duration
import OnceCache.Proofs.Store.Limits
import OnceCache.Proofs.Execution.Provenance
import OnceCache.Proofs.Coordination.Order
import OnceCache.Proofs.Execution.FirstCome
import OnceCache.Proofs.Store.Booking
import OnceCache.Proofs.Store.Recency
import OnceCache.Proofs.Execution.Refresh
import OnceCache.Proofs.Execution.Deadline
import OnceCache.Proofs.Text.Bytes
import OnceCache.Proofs.Http.Form
import OnceCache.Proofs.Http.Target
import OnceCache.Proofs.Key.Derivation
import OnceCache.Proofs.Json.Text
import OnceCache.Proofs.Responder.Failure
import OnceCache.Proofs.Stats
import OnceCache.Proofs.Store.Journal
import OnceCache.Proofs.Manager.Journal
import OnceCache.Proofs.Execution.Encounters
import OnceCache.Proofs.Execution.Discretion
import OnceCache.Proofs.Execution.Statistics
import OnceCache.Proofs.Store.Conservation
import OnceCache.Proofs.Text.Order
import OnceCache.Proofs.Store.Eviction
import OnceCache.Proofs.Coordination.Separation
import OnceCache.Proofs.Coordination.HandleRun
import OnceCache.Proofs.Coordination.Mirrors
import OnceCache.Proofs.Coordination.Projection
import OnceCache.Proofs.Execution.Independence
import OnceCache.Proofs.Event
import OnceCache.Proofs.Store.Log
import OnceCache.Proofs.Manager.Log
import OnceCache.Proofs.Execution.Log
import OnceCache.Proofs.Responder.Log
import OnceCache.Proofs.Session.Actions
import OnceCache.Proofs.Session.Log
import OnceCache.Proofs.Directive
import OnceCache.Proofs.Key.Repair
import OnceCache.Proofs.Store.CleanUp
import OnceCache.Proofs.Store.Lingering
import OnceCache.Proofs.Http.Written
import OnceCache.Proofs.Key.Target
import OnceCache.Proofs.Session.Keeping
import OnceCache.Proofs.MemorySession.Promises
import OnceCache.Proofs.Json.Numeral
import OnceCache.Proofs.Json.Spelling
import OnceCache.Proofs.Json.Grammar
import OnceCache.Proofs.Json.Skip
import OnceCache.Proofs.Json.Members
import OnceCache.Proofs.Config.Duration
import OnceCache.Proofs.Config.Document
