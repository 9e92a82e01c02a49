import SmsTracking.Text.Blank
import SmsTracking.Text.Utf8
import SmsTracking.Text.Quoted
import SmsTracking.Decimal.Digits
import SmsTracking.Timestamp.Text
import SmsTracking.Uuid
import SmsTracking.Json.Number
import SmsTracking.Json.Value
import SmsTracking.Json.Token
import SmsTracking.Json.Draft
import SmsTracking.Json.Decode
import SmsTracking.Message.Codec
import SmsTracking.Event.Envelope
import SmsTracking.Toml.Value
import SmsTracking.Toml.Document
import SmsTracking.Service.Config
import SmsTracking.Service.Params
import SmsTracking.Repository.Entries
import SmsTracking.Repository.ListenerLog
import SmsTracking.Repository.Messages
import SmsTracking.Routing.Bus
import SmsTracking.Routing.Completion
import SmsTracking.Routing.Engine
import SmsTracking.Routing.Local
import SmsTracking.Program.Basic
import SmsTracking.Program.World
import SmsTracking.Service.Batch
import SmsTracking.Simulation.Fault
import SmsTracking.Simulation.Session
import SmsTracking.Simulation.Schedule
import SmsTracking.Demo.Arguments
import SmsTracking.Demo.Run
import SmsTracking.Json.Pretty
import SmsTracking.Main
import SmsTracking.Program.Exchange
import SmsTracking.Program.Turns
import SmsTracking.Proofs.Moves
import SmsTracking.Proofs.Stores
import SmsTracking.Proofs.Runs
import SmsTracking.Proofs.Deeds
import SmsTracking.Proofs.Deliveries
import SmsTracking.Proofs.Atomicity
import SmsTracking.Proofs.Conduct
import SmsTracking.Proofs.Standing
import SmsTracking.Proofs.ExactlyOnce
import SmsTracking.Proofs.Replay
import SmsTracking.Proofs.Contention
import SmsTracking.Proofs.Bounded
import SmsTracking.Proofs.Commits
import SmsTracking.Proofs.Serializable
import SmsTracking.Proofs.Wire.Uuid
import SmsTracking.Proofs.Wire.Calendar
import SmsTracking.Proofs.Wire.Digits
import SmsTracking.Proofs.Wire.Timestamp
import SmsTracking.Proofs.Wire.Records
import SmsTracking.Proofs.Wire.Trees
import SmsTracking.Proofs.Wire.Leaves
import SmsTracking.Proofs.Wire.Payload
import SmsTracking.Proofs.ClosedForm
import SmsTracking.Proofs.Emissions
import SmsTracking.Proofs.Histories
import SmsTracking.Proofs.Batches
import SmsTracking.Proofs.Courses
import SmsTracking.Proofs.LogCalls
import SmsTracking.Proofs.LogHistory
import SmsTracking.Proofs.EventPath
import SmsTracking.Proofs.FirstTries
import SmsTracking.Proofs.Waiting
import SmsTracking.Proofs.Polls
import SmsTracking.Proofs.SpawnedPrograms
import SmsTracking.Proofs.PollParts
import SmsTracking.Proofs.PollWorkers
import SmsTracking.Proofs.TryCounts
import SmsTracking.Proofs.Overlaps
import SmsTracking.Proofs.Wire.Kinds
import SmsTracking.Proofs.Redelivery
import SmsTracking.Proofs.Failures
import SmsTracking.Proofs.Duplicates
import SmsTracking.Proofs.Convergence
import SmsTracking.Proofs.Leases
import SmsTracking.Proofs.Commuting
import SmsTracking.Proofs.Bursts
import SmsTracking.Proofs.Relay
import SmsTracking.Proofs.WorkerSteps
import SmsTracking.Proofs.WorkerViews
import SmsTracking.Proofs.WorkerInvariant
import SmsTracking.Proofs.Workforce
import SmsTracking.Proofs.Endings
import SmsTracking.Proofs.Isolation
import SmsTracking.Proofs.PermittedWrites
import SmsTracking.Proofs.Reachable
import SmsTracking.Proofs.Widths
import SmsTracking.Proofs.Cancellation
import SmsTracking.Proofs.StoreHistory
import SmsTracking.Proofs.Wire.Scanning
import SmsTracking.Proofs.Wire.Envelopes
import SmsTracking.Proofs.Wire.Codecs
import SmsTracking.Proofs.Reloads
import SmsTracking.Proofs.TransitionRetries
import SmsTracking.Proofs.Rivalry
import SmsTracking.Proofs.Threads
import SmsTracking.Proofs.Books
import SmsTracking.Proofs.Handing
import SmsTracking.Proofs.Lives
import SmsTracking.Proofs.Routes
import SmsTracking.Proofs.Lanes
import SmsTracking.Proofs.Dispatches
import SmsTracking.Proofs.Classification
import SmsTracking.Proofs.Entrances
import SmsTracking.Proofs.Layers
import SmsTracking.Proofs.Transitions
import SmsTracking.Proofs.Wire.Sources
import SmsTracking.Proofs.Wire.Settings
import SmsTracking.Proofs.Wire.Accepted
import SmsTracking.Proofs.WorkerWaits
import SmsTracking.Proofs.Capacity
