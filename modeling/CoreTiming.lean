import CoreTiming.CommandLine.Arguments
import CoreTiming.CommandLine.Report
import CoreTiming.CommandLine.Run
import CoreTiming.Config.Basic
import CoreTiming.Config.Document
import CoreTiming.Config.Error
import CoreTiming.Config.PerCore
import CoreTiming.Config.Platform
import CoreTiming.Coprocessor
import CoreTiming.Coprocessor.Bench
import CoreTiming.Coprocessor.Weight
import CoreTiming.Core
import CoreTiming.Core.Delivery
import CoreTiming.Core.Issue
import CoreTiming.Core.Potential
import CoreTiming.Core.Turn
import CoreTiming.Decimal.Binary
import CoreTiming.Decimal.Fixed
import CoreTiming.Decimal.Plain
import CoreTiming.Decimal.Shortest
import CoreTiming.Event
import CoreTiming.Event.Queue
import CoreTiming.Files
import CoreTiming.Isa
import CoreTiming.Json.Basic
import CoreTiming.Json.Canonical
import CoreTiming.Json.Fields
import CoreTiming.Json.Printer
import CoreTiming.Json.Reader
import CoreTiming.Json.Token
import CoreTiming.Log
import CoreTiming.Log.Filter
import CoreTiming.Log.Written
import CoreTiming.Main
import CoreTiming.Memory.Latency
import CoreTiming.Memory.Map
import CoreTiming.Program.Loader
import CoreTiming.Program.Operation
import CoreTiming.Program.Synthetic
import CoreTiming.Program.Trace
import CoreTiming.Program.Workload
import CoreTiming.Proofs.Config.Cores
import CoreTiming.Proofs.Coprocessor.Activity
import CoreTiming.Proofs.Coprocessor.BenchRuns
import CoreTiming.Proofs.Coprocessor.Collection
import CoreTiming.Proofs.Coprocessor.Consistency
import CoreTiming.Proofs.Coprocessor.Guise
import CoreTiming.Proofs.Coprocessor.NextAction
import CoreTiming.Proofs.Coprocessor.Readiness
import CoreTiming.Proofs.Coprocessor.Schedule
import CoreTiming.Proofs.Coprocessor.Service
import CoreTiming.Proofs.Coprocessor.Settling
import CoreTiming.Proofs.Coprocessor.Starts
import CoreTiming.Proofs.Coprocessor.Steps
import CoreTiming.Proofs.Coprocessor.Wakeup
import CoreTiming.Proofs.Core.Balance
import CoreTiming.Proofs.Core.Books
import CoreTiming.Proofs.Core.Delivery
import CoreTiming.Proofs.Core.Extension
import CoreTiming.Proofs.Core.Guise
import CoreTiming.Proofs.Core.Isolation
import CoreTiming.Proofs.Core.Issuing
import CoreTiming.Proofs.Core.Ledger
import CoreTiming.Proofs.Core.Pausing
import CoreTiming.Proofs.Core.Polling
import CoreTiming.Proofs.Core.Reference
import CoreTiming.Proofs.Core.Resumption
import CoreTiming.Proofs.Core.Sight
import CoreTiming.Proofs.Core.Standing
import CoreTiming.Proofs.Core.Tally
import CoreTiming.Proofs.Core.Traffic
import CoreTiming.Proofs.Event.Order
import CoreTiming.Proofs.Memory.Draws
import CoreTiming.Proofs.Memory.History
import CoreTiming.Proofs.Memory.Range
import CoreTiming.Proofs.Simulator.Accounts
import CoreTiming.Proofs.Simulator.Completions
import CoreTiming.Proofs.Simulator.Creation
import CoreTiming.Proofs.Simulator.Dispatch
import CoreTiming.Proofs.Simulator.Guise
import CoreTiming.Proofs.Simulator.Observations
import CoreTiming.Proofs.Simulator.Refinement
import CoreTiming.Proofs.Simulator.Runs
import CoreTiming.Proofs.Simulator.Safety
import CoreTiming.Proofs.Simulator.Separation
import CoreTiming.Proofs.Simulator.Soundness
import CoreTiming.Proofs.Simulator.Stations
import CoreTiming.Proofs.Simulator.Tally
import CoreTiming.Proofs.Simulator.Termination
import CoreTiming.Proofs.Simulator.Timebase
import CoreTiming.Proofs.Simulator.Timing
import CoreTiming.Proofs.Simulator.Traffic
import CoreTiming.Proofs.Simulator.Truncation
import CoreTiming.Proofs.Simulator.Turns
import CoreTiming.Proofs.Simulator.Views
import CoreTiming.Proofs.Simulator.Wakeups
import CoreTiming.Proofs.Simulator.Watching
import CoreTiming.Proofs.Time.Edges
import CoreTiming.Proofs.Time.Guise
import CoreTiming.Random.Range
import CoreTiming.Random.Xoshiro
import CoreTiming.Session
import CoreTiming.Session.Call
import CoreTiming.Simulator
import CoreTiming.Simulator.Run
import CoreTiming.Statistics
import CoreTiming.Statistics.Export
import CoreTiming.Text.Numeral
import CoreTiming.Text.Split
import CoreTiming.Time.Clock
import CoreTiming.Time.Units
import CoreTiming.Timeline
import CoreTiming.Timeline.Weight
import CoreTiming.Proofs.Core.Halting
import CoreTiming.Proofs.Simulator.Halting
import CoreTiming.Proofs.Coprocessor.Conservation
import CoreTiming.Proofs.Config.Readings
import CoreTiming.Proofs.Config.Validity
import CoreTiming.Proofs.Program.Synthetic
import CoreTiming.Proofs.Core.Faultless
import CoreTiming.Proofs.Simulator.Faultless
import CoreTiming.Proofs.Coprocessor.Timeliness
import CoreTiming.Proofs.Coprocessor.Overtaking
import CoreTiming.Proofs.Coprocessor.Horizon
import CoreTiming.Proofs.Text.Cutting
import CoreTiming.Proofs.Text.Numerals
import CoreTiming.Proofs.Program.Spelling
import CoreTiming.Proofs.Program.RoundTrip
import CoreTiming.Proofs.Event.Stability
import CoreTiming.Proofs.Program.Joining
import CoreTiming.Proofs.Program.Payload
import CoreTiming.Proofs.Config.Overriding
import CoreTiming.Proofs.Isa.Names
import CoreTiming.Proofs.Json.Writing
import CoreTiming.Proofs.Statistics.Export
import CoreTiming.Proofs.Json.Members
import CoreTiming.Proofs.Session.Calls
import CoreTiming.Proofs.Session.Atomicity
import CoreTiming.Proofs.Config.Replacement
import CoreTiming.Proofs.Session.Settings
import CoreTiming.Proofs.Simulator.Supply
import CoreTiming.Proofs.CommandLine.Precedence
import CoreTiming.Proofs.Time.Exactness
