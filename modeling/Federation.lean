import Federation.Aggregation.Aggregator
import Federation.Aggregation.Basic
import Federation.Aggregation.Codec
import Federation.Aggregation.FedAverage
import Federation.Aggregation.Scaffold
import Federation.Binary64.Rounding
import Federation.Binary64.Shortest
import Federation.Binary64.Text
import Federation.Binary64.Whole
import Federation.Checkpoint.Basic
import Federation.Checkpoint.Codec
import Federation.Checkpoint.Saving
import Federation.Coordinator.Arguments
import Federation.Coordinator.Basic
import Federation.Coordinator.Help
import Federation.Crypto.Blake2b
import Federation.Crypto.Block
import Federation.Crypto.Bytes
import Federation.Crypto.ChaCha20
import Federation.Crypto.KeyAgreement
import Federation.Crypto.X25519
import Federation.Dataset
import Federation.Dataset.Codec
import Federation.Duration
import Federation.Experiment.Basic
import Federation.Experiment.Configuration
import Federation.Experiment.Draft
import Federation.Experiment.Run
import Federation.Experiment.Surroundings
import Federation.Failure
import Federation.History
import Federation.Json.Basic
import Federation.Json.Reader
import Federation.Json.Schema
import Federation.Json.Writer
import Federation.Link
import Federation.Main
import Federation.Mask.Config
import Federation.Mask.Masker
import Federation.Message.Basic
import Federation.Message.Codec
import Federation.NodeStates
import Federation.NodeStates.Codec
import Federation.Optimizer
import Federation.Parameters
import Federation.Proofs.Aggregation.Damping
import Federation.Proofs.Aggregation.Layouts
import Federation.Proofs.Aggregation.Mean
import Federation.Proofs.Aggregation.Scaffold
import Federation.Proofs.Aggregation.WeightedMean
import Federation.Proofs.Binary64.Arithmetic
import Federation.Proofs.Binary64.Bits
import Federation.Proofs.Binary64.Rounding
import Federation.Proofs.Binary64.Shortest
import Federation.Proofs.Binary64.Unpacked
import Federation.Proofs.Checkpoint.Codec
import Federation.Proofs.Checkpoint.Document
import Federation.Proofs.Checkpoint.Saving
import Federation.Proofs.Dataset
import Federation.Proofs.Dataset.Quality
import Federation.Proofs.Dataset.Resolution
import Federation.Proofs.Encoding
import Federation.Proofs.Experiment.Attempt
import Federation.Proofs.Experiment.Cancellation
import Federation.Proofs.Experiment.Configuration
import Federation.Proofs.Experiment.Continuity
import Federation.Proofs.Experiment.ControlVariates
import Federation.Proofs.Experiment.Dispatch
import Federation.Proofs.Experiment.Freshness
import Federation.Proofs.Experiment.History
import Federation.Proofs.Experiment.LatestEvents
import Federation.Proofs.Experiment.Layouts
import Federation.Proofs.Experiment.MaskConfiguration
import Federation.Proofs.Experiment.Participation
import Federation.Proofs.Experiment.Parties
import Federation.Proofs.Experiment.Provenance
import Federation.Proofs.Experiment.Reachable
import Federation.Proofs.Experiment.Report
import Federation.Proofs.Experiment.Resume
import Federation.Proofs.Experiment.Retry
import Federation.Proofs.Experiment.Selecting
import Federation.Proofs.Experiment.Snapshot
import Federation.Proofs.Experiment.Splitting
import Federation.Proofs.Experiment.TrainingData
import Federation.Proofs.Mask.Agreement
import Federation.Proofs.Mask.Cancellation
import Federation.Proofs.Mask.Doubles
import Federation.Proofs.Mask.FixedPoint
import Federation.Proofs.Mask.Hiding
import Federation.Proofs.Mask.SecureMean
import Federation.Proofs.Message.Schema
import Federation.Proofs.Optimizer.Discounting
import Federation.Proofs.Parameters
import Federation.Proofs.Parameters.Combining
import Federation.Proofs.Parameters.Flat
import Federation.Proofs.Rational
import Federation.Proofs.Round.Arrival
import Federation.Proofs.Round.Collecting
import Federation.Proofs.Round.Completion
import Federation.Proofs.Round.Layouts
import Federation.Proofs.Secagg.Joining
import Federation.Proofs.Secagg.Setup
import Federation.Proofs.SortedMap
import Federation.Proofs.Storage.FileName
import Federation.Proofs.Storage.FileTree
import Federation.Proofs.Storage.Files
import Federation.Proofs.Storage.Listing
import Federation.Proofs.Storage.Memory
import Federation.Proofs.Storage.Refinement
import Federation.Round.Channels
import Federation.Round.Collecting
import Federation.Round.Context
import Federation.Round.Events
import Federation.Round.Run
import Federation.Scalar
import Federation.Scenario.Behaviour
import Federation.Scenario.Network
import Federation.Scenario.Node
import Federation.Scenario.Settings
import Federation.Scenario.Simulation
import Federation.Scenario.Specs
import Federation.Scenario.Stores
import Federation.Scenario.Terminal
import Federation.Scenario.Trial.Basic
import Federation.Scenario.Trial.Outcome
import Federation.Scenario.Trial.Steps
import Federation.Scenario.Values
import Federation.Secagg.Basic
import Federation.Secagg.Codec
import Federation.Secagg.Setup
import Federation.Selection
import Federation.Settings.Basic
import Federation.Settings.Filter
import Federation.Settings.Listing
import Federation.Settings.Overrides
import Federation.Settings.Value
import Federation.SortedMap
import Federation.StateLedger
import Federation.Storage.Basic
import Federation.Storage.FileTree
import Federation.Storage.Files
import Federation.Storage.Memory
import Federation.Text.Digits
import Federation.Text.Printable
import Federation.Text.Quoted
import Federation.Text.WordChar
import Federation.Timestamp
import Federation.Toml.Document
import Federation.Toml.Lexical
import Federation.Toml.Moment
import Federation.Toml.Number
import Federation.Word
