import KeyAccess.SortedMap
import KeyAccess.Text.Blank
import KeyAccess.Text.Quoted
import KeyAccess.Text.Placeholder
import KeyAccess.Decimal.Plain
import KeyAccess.Decimal.Numeral
import KeyAccess.Time.Timestamp
import KeyAccess.Json.Reader
import KeyAccess.Config
import KeyAccess.Schema.Draft
import KeyAccess.Clause.Conditions
import KeyAccess.Predicate
import KeyAccess.AccessPath.Selection
import KeyAccess.AccessPath.Explanation
import KeyAccess.Event
import KeyAccess.Query
import KeyAccess.Document.Value
import KeyAccess.Registry
import KeyAccess.Proofs.AccessPath.Cheapest
import KeyAccess.Proofs.Request.Ordering
import KeyAccess.Proofs.Request.KeyCondition
import KeyAccess.Proofs.Request.Placeholders
import KeyAccess.Proofs.Request.Filtered
import KeyAccess.Proofs.Request.ClauseOrder
import KeyAccess.Proofs.Request.IndexOrder
import KeyAccess.Proofs.Request.Counting
import KeyAccess.Proofs.Trace
import KeyAccess.Proofs.Session.Calls
import KeyAccess.Proofs.Session.ScanLeave
import KeyAccess.Proofs.Criteria.Places
import KeyAccess.Proofs.Results.Slice
import KeyAccess.Proofs.Document.RoundTrip
import KeyAccess.Proofs.Registry.Directory
import KeyAccess.Proofs.Registry.Run
import KeyAccess.Proofs.Document.Attributes
import KeyAccess.Proofs.Document.Interleavings
import KeyAccess.Proofs.Clause.Elements
import KeyAccess.Proofs.Decimal.IntegerText
import KeyAccess.Proofs.Decimal.Shortest
import KeyAccess.Proofs.Value.IntegerText
import KeyAccess.Proofs.Value.InstantText
import KeyAccess.Proofs.Value.Form
import KeyAccess.Proofs.Criteria.FilterBindings
import KeyAccess.Proofs.Criteria.BoundValues
import KeyAccess.Proofs.Text.Parentheses
import KeyAccess.Proofs.Request.Grouped
import KeyAccess.Proofs.Request.Lockstep
import KeyAccess.Proofs.Results.Tiling
import KeyAccess.Proofs.Results.Pulls
import KeyAccess.Proofs.AccessPath.Ambiguity
import KeyAccess.Proofs.Schema.Membership
