import GraphSession.Text.Blank
import GraphSession.Text.Quoted
import GraphSession.Decimal.Layout
import GraphSession.Clock
import GraphSession.Calendar
import GraphSession.Record
import GraphSession.Value.Json
import GraphSession.Bookmarks.Keeper
import GraphSession.Address
import GraphSession.Authentication
import GraphSession.Exchange.Terms
import GraphSession.Query.Overrides
import GraphSession.Retry.Backoff
import GraphSession.Session.Config
import GraphSession.Exchange.Peer
import GraphSession.Result.Summary
import GraphSession.Session.Unit
import GraphSession.Session.Stream
import GraphSession.Session.Execute
import GraphSession.Session.Lifecycle
import GraphSession.Session.Description
import GraphSession.Blocking.Execute
import GraphSession.Blocking.Handle
import GraphSession.Pool.Borrowing
import GraphSession.Rehearsal.Stage
import GraphSession.Rehearsal.Surroundings
import GraphSession.Rehearsal.Bench
import GraphSession.Rehearsal.PoolBench
import GraphSession.Proofs.Conformance
import GraphSession.Proofs.Commits
import GraphSession.Proofs.Delivery
import GraphSession.Proofs.Lifecycle
import GraphSession.Proofs.Returns
import GraphSession.Proofs.Chaining
import GraphSession.Proofs.Sharing
import GraphSession.Proofs.Frame
import GraphSession.Proofs.Target
import GraphSession.Proofs.Purposes
import GraphSession.Proofs.Calls
import GraphSession.Proofs.Steering
import GraphSession.Proofs.Ledger
import GraphSession.Proofs.Closing
import GraphSession.Proofs.Quiescence
import GraphSession.Proofs.Independence
import GraphSession.Proofs.OwnBookmarks
import GraphSession.Proofs.Series
import GraphSession.Proofs.Reports
import GraphSession.Proofs.ToldDenials
import GraphSession.Proofs.Conservation
import GraphSession.Proofs.Telemetry
import GraphSession.Proofs.Refusals
import GraphSession.Proofs.Delays
import GraphSession.Proofs.Handing
import GraphSession.Proofs.Orphans
import GraphSession.Proofs.Reuse
import GraphSession.Proofs.Exhaustion
import GraphSession.Proofs.Surplus
import GraphSession.Proofs.Leftovers
import GraphSession.Proofs.Iteration
import GraphSession.Proofs.Classification
import GraphSession.Proofs.Queries
import GraphSession.Proofs.RoundTrip
import GraphSession.Proofs.Merging
import GraphSession.Proofs.Addresses
import GraphSession.Proofs.Columns
