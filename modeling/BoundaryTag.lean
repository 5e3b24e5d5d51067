import BoundaryTag.Arena
import BoundaryTag.Block
import BoundaryTag.Bytes
import BoundaryTag.CommandLine.Arguments
import BoundaryTag.CommandLine.Options
import BoundaryTag.CommandLine.Session
import BoundaryTag.Config
import BoundaryTag.Fault
import BoundaryTag.FreeLists
import BoundaryTag.Header
import BoundaryTag.Heap.Allocation
import BoundaryTag.Heap.Basic
import BoundaryTag.Heap.Blocks
import BoundaryTag.Heap.Dump
import BoundaryTag.Heap.Statistics
import BoundaryTag.Main
import BoundaryTag.SizeClass
import BoundaryTag.Store
import BoundaryTag.Text.Blank
import BoundaryTag.Text.Columns
import BoundaryTag.Text.Decimal
import BoundaryTag.Text.Hex
import BoundaryTag.Text.Numeral
import BoundaryTag.Text.Pictured
import BoundaryTag.Text.Quoted
import BoundaryTag.Trace.Basic
import BoundaryTag.Trace.Load
import BoundaryTag.Trace.Parser
import BoundaryTag.Trace.Replay
import BoundaryTag.Utilization
import BoundaryTag.Validator
import BoundaryTag.Violation
import BoundaryTag.Word
import BoundaryTag.Proofs.Encoding
import BoundaryTag.Proofs.Execution
import BoundaryTag.Proofs.Memory
import BoundaryTag.Proofs.Tags
import BoundaryTag.Proofs.Chains
import BoundaryTag.Proofs.Relinking
import BoundaryTag.Proofs.FreeLists
import BoundaryTag.Proofs.Layout
import BoundaryTag.Proofs.AddressPass
import BoundaryTag.Proofs.ListPass
import BoundaryTag.Proofs.Validation
import BoundaryTag.Proofs.Drafts
import BoundaryTag.Proofs.Coalescing
import BoundaryTag.Proofs.Release
import BoundaryTag.Proofs.Placement
import BoundaryTag.Proofs.Search
import BoundaryTag.Proofs.BestFit
import BoundaryTag.Proofs.Growth
import BoundaryTag.Proofs.Reset
import BoundaryTag.Proofs.Allocation
import BoundaryTag.Proofs.Payloads
import BoundaryTag.Proofs.Operations
import BoundaryTag.Proofs.Calls
import BoundaryTag.Proofs.Runs
import BoundaryTag.Proofs.Blocks
import BoundaryTag.Proofs.Outcomes
import BoundaryTag.Proofs.Isolation
import BoundaryTag.Proofs.Requests
import BoundaryTag.Proofs.Canonical
import BoundaryTag.Proofs.Twins
import BoundaryTag.Proofs.Lockstep
import BoundaryTag.Proofs.FreshStart
import BoundaryTag.Proofs.Hosting
import BoundaryTag.Proofs.Refusals
import BoundaryTag.Proofs.Replays
import BoundaryTag.Proofs.Accounts
import BoundaryTag.Proofs.Robustness
import BoundaryTag.Proofs.Sequences
import BoundaryTag.Proofs.Rows
import BoundaryTag.Proofs.Released
import BoundaryTag.Proofs.Texts
import BoundaryTag.Proofs.Dumps
import BoundaryTag.Proofs.Traversals
import BoundaryTag.Proofs.Grammar
import BoundaryTag.Proofs.ParseErrors
import BoundaryTag.Proofs.RoundTrip
import BoundaryTag.Proofs.Configurations
import BoundaryTag.Proofs.Balances
import BoundaryTag.Proofs.Navigation
import BoundaryTag.Proofs.Retries
import BoundaryTag.Proofs.Patterns
import BoundaryTag.Proofs.Sessions
import BoundaryTag.Proofs.Arenas
import BoundaryTag.Proofs.HeaderWords
import BoundaryTag.Proofs.Rounding
