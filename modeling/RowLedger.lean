import RowLedger.Main
import RowLedger.Notation.Predicate
import RowLedger.Notation.Schema
import RowLedger.Proofs.Connection.Blocks
import RowLedger.Proofs.Connection.History
import RowLedger.Proofs.Connection.Migration
import RowLedger.Proofs.Connection.Paging
import RowLedger.Proofs.Connection.Straying
import RowLedger.Proofs.Ledger.Agreement
import RowLedger.Proofs.Ledger.Emptying
import RowLedger.Proofs.Ledger.Replacing
import RowLedger.Proofs.Predicate.Alignment
import RowLedger.Proofs.Predicate.Grouping
import RowLedger.Session.Masking
import RowLedger.Session.Script
import RowLedger.Session.Step
import RowLedger.Proofs.Text.Order
import RowLedger.Proofs.Calendar.DateTime
import RowLedger.Proofs.Calendar.Instant
import RowLedger.Proofs.Calendar.TimeSpan
import RowLedger.Proofs.Codec.RoundTrip
import RowLedger.Proofs.Calendar.Order
import RowLedger.Proofs.Codec.Order
import RowLedger.Proofs.Predicate.Naming
import RowLedger.Proofs.Predicate.Dialects
import RowLedger.Proofs.Connection.Telling
import RowLedger.Proofs.Connection.Announced
import RowLedger.Proofs.Connection.Readiness
import RowLedger.Proofs.Predicate.Refusal
import RowLedger.Proofs.Predicate.EndTests
import RowLedger.Proofs.Predicate.Shape
import RowLedger.Proofs.Schema.Fields
import RowLedger.Proofs.Cache.Callers
import RowLedger.Proofs.Cache.Calls
import RowLedger.Proofs.Codec.Labels
import RowLedger.Proofs.Predicate.Membership
import RowLedger.Proofs.Predicate.Conversion
import RowLedger.Proofs.Predicate.ThreeWay
import RowLedger.Proofs.Calendar.Ticks
import RowLedger.Proofs.Codec.Decimals
import RowLedger.Proofs.Codec.Integers
import RowLedger.Proofs.Connection.Assigning
import RowLedger.Proofs.Connection.Deferred
import RowLedger.Proofs.Schema.Lookup
import RowLedger.Proofs.Ledger.RowIds
import RowLedger.Proofs.Schema.Indexes
import RowLedger.Proofs.Sql.Quoting
import RowLedger.Proofs.Connection.Adding
import RowLedger.Proofs.Connection.Marking
import RowLedger.Proofs.Schema.Declared
import RowLedger.Proofs.Config
