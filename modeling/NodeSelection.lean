import NodeSelection.Word
import NodeSelection.Table
import NodeSelection.Clock
import NodeSelection.Scalar
import NodeSelection.Text.Blank
import NodeSelection.Text.Numeral
import NodeSelection.Text.Shapeless
import NodeSelection.Text.Quoted
import NodeSelection.Text.Duration
import NodeSelection.Text.Decimal
import NodeSelection.Text.Column
import NodeSelection.Node
import NodeSelection.Call.Error
import NodeSelection.Call.Outcome
import NodeSelection.Ewma.OpenCalls
import NodeSelection.Ewma.Prediction
import NodeSelection.Ewma.Stats
import NodeSelection.Candidate
import NodeSelection.Pool
import NodeSelection.Rotation
import NodeSelection.Random
import NodeSelection.Algorithm
import NodeSelection.Event
import NodeSelection.Balancer
import NodeSelection.Calls
import NodeSelection.Bench
import NodeSelection.Selector
import NodeSelection.Session
import NodeSelection.Store
import NodeSelection.Registry
import NodeSelection.Config.Basic
import NodeSelection.Config.Validation
import NodeSelection.Config.Document
import NodeSelection.Config.Reading
import NodeSelection.Toml.Characters
import NodeSelection.Toml.Strings
import NodeSelection.Toml.Numbers
import NodeSelection.Toml.Moments
import NodeSelection.Toml.Tree
import NodeSelection.Toml.Text
import NodeSelection.Config.Loading
import NodeSelection.Simulation.Profile
import NodeSelection.Simulation.Report
import NodeSelection.Simulation.Callers
import NodeSelection.Simulation.Chance
import NodeSelection.Simulation.Timeline
import NodeSelection.Simulation.Command
import NodeSelection.Main
import NodeSelection.Proofs.Lists
import NodeSelection.Proofs.Text.Numeral
import NodeSelection.Proofs.Random.Pairs
import NodeSelection.Proofs.Binary64.Exact
import NodeSelection.Proofs.Binary64.Sign
import NodeSelection.Proofs.Binary64.Rounding
import NodeSelection.Proofs.Rotation.Claims
import NodeSelection.Proofs.Rotation.Exact
import NodeSelection.Proofs.Rotation.Fairness
import NodeSelection.Proofs.Rotation.Serving
import NodeSelection.Proofs.Ewma.Accounting
import NodeSelection.Proofs.Ewma.Averages
import NodeSelection.Proofs.Ewma.Decay
import NodeSelection.Proofs.Ewma.Load
import NodeSelection.Proofs.Ewma.Runs
import NodeSelection.Proofs.Ewma.Success
import NodeSelection.Proofs.Ewma.Range
import NodeSelection.Proofs.Ewma.Scans
import NodeSelection.Proofs.Balancer.Registration
import NodeSelection.Proofs.Balancer.Starvation
import NodeSelection.Proofs.Bench.Idle
import NodeSelection.Proofs.Rotation.Drift
import NodeSelection.Proofs.Rotation.Churn
import NodeSelection.Proofs.Rotation.Drained
import NodeSelection.Proofs.Rotation.Distinct
import NodeSelection.Proofs.Rotation.Memory
import NodeSelection.Proofs.Rotation.Conservation
import NodeSelection.Proofs.Rotation.Order
import NodeSelection.Proofs.Balancer.Exclusive
import NodeSelection.Proofs.Config.Acceptance
import NodeSelection.Proofs.Config.Weights
import NodeSelection.Proofs.Config.Reporting
import NodeSelection.Proofs.Session.Step
import NodeSelection.Proofs.Session.Selection
import NodeSelection.Proofs.Session.Twins
import NodeSelection.Proofs.Session.Reset
import NodeSelection.Proofs.Session.Served
import NodeSelection.Proofs.Session.Rotating
import NodeSelection.Proofs.Session.Drained
import NodeSelection.Proofs.Session.Forcing
import NodeSelection.Proofs.Balancer.Duel
import NodeSelection.Proofs.Balancer.Asking
import NodeSelection.Proofs.Session.Wrapping
import NodeSelection.Proofs.Session.Ended
import NodeSelection.Proofs.Session.Feedback
import NodeSelection.Proofs.Session.Latency
import NodeSelection.Proofs.Session.Metering
import NodeSelection.Proofs.Session.Independence
import NodeSelection.Proofs.Store.Windows
import NodeSelection.Proofs.Store.Depiction
import NodeSelection.Proofs.Store.Refinement
import NodeSelection.Proofs.Store.Independence
import NodeSelection.Proofs.Ewma.SlowCalls
import NodeSelection.Proofs.Simulation.Tallies
import NodeSelection.Proofs.Simulation.Moves
import NodeSelection.Proofs.Simulation.Sharing
