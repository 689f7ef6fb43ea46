import Overseer.Octets
import Overseer.Text.Quoted
import Overseer.Duration
import Overseer.Signal
import Overseer.Loop.Error
import Overseer.Supervisor.Error
import Overseer.Channel.Basic
import Overseer.Channel.Scripted
import Overseer.Config
import Overseer.Event.LogLine
import Overseer.Loop.Exit
import Overseer.Server.KeepList
import Overseer.Socket.Pair
import Overseer.Event.Bus
import Overseer.Subscribers.Schedule
import Overseer.Signal.Stack
import Overseer.Signal.Table
import Overseer.Server.Handlers
import Overseer.Process.Lemmas
import Overseer.Loop.Pair
import Overseer.Server.Script
import Overseer.Supervisor.Basic
import Overseer.Machine.Basic
import Overseer.Server.Plain
import Overseer.Collection.Caller
import Overseer.Proofs.Activity
import Overseer.Proofs.Frame.RoundTrip
import Overseer.Proofs.Frame.Stability
import Overseer.Proofs.Frame.Canonical
import Overseer.Proofs.Channel.Receiving
import Overseer.Proofs.Channel.Buffering
import Overseer.Proofs.Channel.Stream
import Overseer.Proofs.Channel.Sending
import Overseer.Proofs.Channel.Link
import Overseer.Proofs.Channel.Delivery
import Overseer.Proofs.Channel.Schedule
import Overseer.Proofs.Channel.Carrying
import Overseer.Proofs.Channel.Place
import Overseer.Proofs.Channel.Attempts
import Overseer.Proofs.Channel.CutOff
import Overseer.Proofs.Process.Course
import Overseer.Proofs.Process.Inflow
import Overseer.Proofs.Process.Writing
import Overseer.Proofs.Process.Deliveries
import Overseer.Proofs.Process.Flow
import Overseer.Proofs.Process.Still
import Overseer.Proofs.Loop.Loyalty
import Overseer.Proofs.Loop.Stage
import Overseer.Proofs.Loop.Run
import Overseer.Proofs.Loop.Dispatch
import Overseer.Proofs.Loop.Path
import Overseer.Proofs.Loop.TakeOver
import Overseer.Proofs.Loop.Signalled
import Overseer.Proofs.Loop.Within
import Overseer.Proofs.Loop.Restoring
import Overseer.Proofs.Loop.Answering
import Overseer.Proofs.Loop.Unserved
import Overseer.Proofs.Loop.Record
import Overseer.Proofs.Loop.Finalizing
import Overseer.Proofs.Supervisor.Escalation
import Overseer.Proofs.Supervisor.Fate
import Overseer.Proofs.Supervisor.Operation
import Overseer.Proofs.Supervisor.Lifecycle
import Overseer.Proofs.Supervisor.Onward
import Overseer.Proofs.Supervisor.Contact
import Overseer.Proofs.Supervisor.Custody
import Overseer.Proofs.Supervisor.Farewell
import Overseer.Proofs.Supervisor.Relay
import Overseer.Proofs.Supervisor.Correspondence
import Overseer.Proofs.Collection.Traffic
import Overseer.Proofs.Collection.Debts
import Overseer.Proofs.Collection.Accounts
import Overseer.Proofs.Collection.Sharing
import Overseer.Proofs.Subscribers.Lag
import Overseer.Proofs.Subscribers.Worker
import Overseer.Proofs.Subscribers.Interleaving
import Overseer.Proofs.Subscribers.Shutdown
import Overseer.Proofs.Subscribers.FanOut
import Overseer.Proofs.Subscribers.Circuit
import Overseer.Proofs.Subscribers.Feedback
import Overseer.Proofs.Subscribers.Forwarding
import Overseer.Proofs.Frame.Grammar
import Overseer.Proofs.Channel.Exactness
import Overseer.Proofs.Supervisor.Stages
import Overseer.Proofs.Loop.Journal
import Overseer.Proofs.Channel.Demand
import Overseer.Proofs.Channel.Failing
import Overseer.Proofs.Loop.Callbacks
import Overseer.Proofs.Supervisor.Departure
import Overseer.Proofs.Duration
import Overseer.Proofs.Collection.Undisturbed
import Overseer.Proofs.Collection.IdleCleaning
import Overseer.Proofs.Collection.Overflow
import Overseer.Proofs.Signal.Repeated
import Overseer.Proofs.Signal.Bindings
import Overseer.Proofs.Signal.Scanning
import Overseer.Proofs.Loop.Heeding
import Overseer.Proofs.Supervisor.Sweep
import Overseer.Proofs.Machine.Lines
import Overseer.Proofs.Supervisor.Inheritance
