import ObjectStore.SortedMap
import ObjectStore.Bytes
import ObjectStore.Text.Utf8
import ObjectStore.FloatFormat
import ObjectStore.Cbor.Input
import ObjectStore.Cbor.Head
import ObjectStore.Cbor.Strings
import ObjectStore.Cbor.Item
import ObjectStore.Object.Error
import ObjectStore.Object.Value
import ObjectStore.Object.Basic
import ObjectStore.Object.Builder
import ObjectStore.Object.Workbench
import ObjectStore.Duration
import ObjectStore.Store.Error
import ObjectStore.Store.Options
import ObjectStore.Store.Contents
import ObjectStore.Store.EntityType
import ObjectStore.Store.PutQueue
import ObjectStore.Store.Basic
import ObjectStore.Store.Connection
import ObjectStore.Store.Client
import ObjectStore.Text.Quoted
import ObjectStore.Database.Error
import ObjectStore.Database.Config
import ObjectStore.Database.Loan
import ObjectStore.Database.Basic
import ObjectStore.Database.Binding
import ObjectStore.Database.TypedBox
import ObjectStore.Entities
import ObjectStore.Scenario.Step
import ObjectStore.Scenario.Model
import ObjectStore.Scenario.Run
import ObjectStore.TaskList
import ObjectStore.Main
import ObjectStore.Proofs.Store.DirectUpdate
import ObjectStore.Proofs.Store.Effects
import ObjectStore.Proofs.Store.History
import ObjectStore.Proofs.Store.Serializability
import ObjectStore.Proofs.Store.AsyncOrder
import ObjectStore.Proofs.Store.FailedCalls
import ObjectStore.Proofs.Store.AfterClose
import ObjectStore.Proofs.Cbor.Head
import ObjectStore.Proofs.Cbor.Item
import ObjectStore.Proofs.Object.RoundTrip
import ObjectStore.Proofs.Database.Flatten
import ObjectStore.Proofs.Database.Lawful
import ObjectStore.Proofs.Database.Opening
import ObjectStore.Proofs.Database.Reference
import ObjectStore.Proofs.Database.Refinement
import ObjectStore.Proofs.Store.IdSequence
import ObjectStore.Proofs.Object.Grammar
import ObjectStore.Proofs.Database.AwaitedPut
import ObjectStore.Proofs.Scenario.AtWork
import ObjectStore.Proofs.Store.Alike
import ObjectStore.Proofs.Database.ClosedBox
import ObjectStore.Proofs.Database.Generations
import ObjectStore.Proofs.Database.FailedBoxCalls
import ObjectStore.Proofs.Database.Batches
import ObjectStore.Proofs.Object.BuilderAutomaton
import ObjectStore.Proofs.Object.BuilderProtocol
import ObjectStore.Proofs.Database.BoxCache
import ObjectStore.Proofs.Store.LastErrors
import ObjectStore.Proofs.Database.Agent
import ObjectStore.Proofs.Database.AgentOpening
import ObjectStore.Proofs.Database.AgentRefinement
import ObjectStore.Proofs.Database.ReportedErrors
import ObjectStore.Proofs.Cbor.SelfDelimiting
import ObjectStore.Proofs.Object.PackedBytes
import ObjectStore.Proofs.Object.SelfDelimiting
import ObjectStore.Proofs.Cbor.Nesting
import ObjectStore.Proofs.Object.BoundedReading
import ObjectStore.Proofs.Cbor.Shortest
import ObjectStore.Proofs.Object.Rebuilding
import ObjectStore.Proofs.Object.FieldFaults
import ObjectStore.Proofs.Store.Batching
import ObjectStore.Proofs.Store.Interleaving
import ObjectStore.Proofs.Database.PutAlone
import ObjectStore.Proofs.Database.ReusedBuilders
import ObjectStore.Proofs.Store.CopyOnWrite
import ObjectStore.Proofs.Store.CursorReads
import ObjectStore.Proofs.Object.LongTexts
import ObjectStore.Proofs.Store.QueueAside
import ObjectStore.Proofs.Store.BackPressure
import ObjectStore.Proofs.Object.OwnObject
import ObjectStore.Proofs.Database.Leases
