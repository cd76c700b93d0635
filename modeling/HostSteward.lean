import HostSteward.Binary64
import HostSteward.Bus
import HostSteward.Change
import HostSteward.CommandLine.Arguments
import HostSteward.CommandLine.Response
import HostSteward.Distribution.Dispatch
import HostSteward.Distribution.Plan
import HostSteward.Duration
import HostSteward.Failure
import HostSteward.FileTree
import HostSteward.HostModel
import HostSteward.Identity
import HostSteward.Journal
import HostSteward.Json
import HostSteward.Json.Reader
import HostSteward.Json.Record
import HostSteward.Json.Writer
import HostSteward.Lifetime
import HostSteward.Main
import HostSteward.Notice
import HostSteward.Numeral
import HostSteward.OrderedMap
import HostSteward.Outcome
import HostSteward.Phase
import HostSteward.Proofs.Bus.Hearing
import HostSteward.Proofs.CommandLine.Making
import HostSteward.Proofs.Distribution.Categories
import HostSteward.Proofs.Distribution.Modes
import HostSteward.Proofs.Distribution.Namesakes
import HostSteward.Proofs.Distribution.Overlaps
import HostSteward.Proofs.Distribution.Scope
import HostSteward.Proofs.Json.Forms
import HostSteward.Proofs.Json.Reports
import HostSteward.Proofs.Settings.Checks
import HostSteward.Proofs.Settings.Placing
import HostSteward.Proofs.Steward.Delays
import HostSteward.Proofs.Steward.FirstLaunch
import HostSteward.Proofs.Steward.Registry
import HostSteward.Proofs.Steward.Control
import HostSteward.Proofs.Steward.Interference
import HostSteward.Proofs.Steward.Leniency
import HostSteward.Proofs.Steward.Refusals
import HostSteward.Proofs.Steward.Restarts
import HostSteward.Proofs.Supervisor.Children
import HostSteward.Proofs.Supervisor.Convergence
import HostSteward.Proofs.Supervisor.Deeds
import HostSteward.Proofs.Supervisor.Launches
import HostSteward.Rehearsal.Clock
import HostSteward.Rehearsal.Executor
import HostSteward.Rehearsal.Offspring
import HostSteward.Rehearsal.Recorder
import HostSteward.Rehearsal.Stage
import HostSteward.RestartBudget
import HostSteward.Server
import HostSteward.Settings
import HostSteward.Settings.Json
import HostSteward.Settings.Layers
import HostSteward.Settings.Lenient
import HostSteward.Settings.Sources
import HostSteward.Settings.Toml
import HostSteward.Settings.Validation
import HostSteward.Shell.Builtin
import HostSteward.Shell.Command
import HostSteward.Shell.Condition
import HostSteward.Shell.Evaluation
import HostSteward.Shell.Expansion
import HostSteward.Shell.Pattern
import HostSteward.Shell.Reader
import HostSteward.Shell.Session
import HostSteward.Shell.Signal
import HostSteward.Shell.Sleep
import HostSteward.Shell.Sum
import HostSteward.Steward
import HostSteward.Steward.Construction
import HostSteward.Steward.Launching
import HostSteward.Steward.Program
import HostSteward.Steward.Reactions
import HostSteward.Steward.Requests
import HostSteward.Supervisor
import HostSteward.Supervisor.Children
import HostSteward.Supervisor.Lifetime
import HostSteward.Supervisor.Machine
import HostSteward.Text.Blank
import HostSteward.Text.LetterCase
import HostSteward.Text.Lowercase
import HostSteward.Toml.Definition
import HostSteward.Toml.Quoted
import HostSteward.Toml.Reader
import HostSteward.Toml.Scalar
import HostSteward.Proofs.Settings.HostNames
import HostSteward.Proofs.Doubles
import HostSteward.Proofs.Json.Integers
import HostSteward.Proofs.Settings.Gaps
import HostSteward.Proofs.Settings.Integers
import HostSteward.Proofs.Json.Objects
import HostSteward.Proofs.Toml.Assignments
