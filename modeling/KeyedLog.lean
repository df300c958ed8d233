import KeyedLog.Archive
import KeyedLog.Quantity
import KeyedLog.Command.Arguments
import KeyedLog.Command.Input
import KeyedLog.Command.Run
import KeyedLog.Config
import KeyedLog.Config.Document
import KeyedLog.Config.Load
import KeyedLog.Config.Validation
import KeyedLog.Dispatcher
import KeyedLog.Engine
import KeyedLog.Event
import KeyedLog.Event.Reading
import KeyedLog.Fault
import KeyedLog.Files.Operations
import KeyedLog.Files.Tree
import KeyedLog.Flush.Executor
import KeyedLog.Flush.Rehearsal
import KeyedLog.Flush.Schedule
import KeyedLog.Json
import KeyedLog.Json.Skip
import KeyedLog.Level
import KeyedLog.Main
import KeyedLog.Path
import KeyedLog.Registry
import KeyedLog.Relay
import KeyedLog.Remote
import KeyedLog.Retry
import KeyedLog.Router
import KeyedLog.Service
import KeyedLog.Signal
import KeyedLog.Sink.Console
import KeyedLog.Sink.File
import KeyedLog.Sink.Remote
import KeyedLog.Sink.Rotating
import KeyedLog.Store
import KeyedLog.Store.Basic
import KeyedLog.Text
import KeyedLog.Text.Quoted
import KeyedLog.Text.Split
import KeyedLog.Toml.Document
import KeyedLog.Toml.Scalar
import KeyedLog.Toml.Value
import KeyedLog.World
import KeyedLog.Proofs.Remote.Books
import KeyedLog.Proofs.Remote.Notices
import KeyedLog.Proofs.Remote.Delivery
import KeyedLog.Proofs.Archive.Gzip
import KeyedLog.Proofs.Archive.Names
import KeyedLog.Proofs.Files.Actions
import KeyedLog.Proofs.Files.Opening
import KeyedLog.Proofs.Router.Independence
import KeyedLog.Proofs.Service.Shutdown
import KeyedLog.Proofs.Registry.Custody
import KeyedLog.Proofs.Registry.Expiry
import KeyedLog.Proofs.Router.Safety
import KeyedLog.Proofs.Flush.Safety
import KeyedLog.Proofs.Router.Exclusion
import KeyedLog.Proofs.Event.RoundTrip
import KeyedLog.Proofs.Command.Lines
import KeyedLog.Proofs.Service.Ownership
import KeyedLog.Proofs.Router.JobFiles
import KeyedLog.Proofs.Event.PlainLines
import KeyedLog.Proofs.Remote.Listing
import KeyedLog.Proofs.Service.Finality
import KeyedLog.Proofs.Dispatcher.Company
import KeyedLog.Proofs.Dispatcher.Isolation
import KeyedLog.Proofs.Dispatcher.Fitness
import KeyedLog.Proofs.Sink.Retention
import KeyedLog.Proofs.Files.Difference
import KeyedLog.Proofs.Sink.Obstacles
import KeyedLog.Proofs.Store.ObjectPaths
import KeyedLog.Proofs.Relay.Handover
import KeyedLog.Proofs.Sink.Stopping
import KeyedLog.Proofs.Retry.Attempts
import KeyedLog.Proofs.Store.Records
import KeyedLog.Proofs.Files.ClearWays
import KeyedLog.Proofs.Store.Agreement
import KeyedLog.Proofs.Store.BatchPaths
import KeyedLog.Proofs.Service.BatchIds
import KeyedLog.Proofs.Retry.Delays
import KeyedLog.Proofs.Config.Validation
import KeyedLog.Proofs.Path.Directories
import KeyedLog.Proofs.Service.Directories
import KeyedLog.Proofs.Service.Limits
import KeyedLog.Proofs.Config.Overrides
import KeyedLog.Proofs.ByteSize
import KeyedLog.Proofs.Archive.Collisions
import KeyedLog.Proofs.Service.Fitness
