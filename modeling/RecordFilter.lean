import RecordFilter.Text.Occurrence
import RecordFilter.Decimal.Reading
import RecordFilter.Decimal.Layout
import RecordFilter.Calendar.Timestamp
import RecordFilter.Json.Reader
import RecordFilter.Json.Printer
import RecordFilter.Schema.CatalogJson
import RecordFilter.Filter.Value
import RecordFilter.Operator
import RecordFilter.Filter.Json
import RecordFilter.Filter.Session
import RecordFilter.Filter.Meaning
import RecordFilter.Sql.Pattern
import RecordFilter.Query.Json
import RecordFilter.Query.Meaning
import RecordFilter.Query.Clause
import RecordFilter.Submission
import RecordFilter.Metadata.Cache
import RecordFilter.Logging
import RecordFilter.Proofs.Paths
import RecordFilter.Proofs.Meaning
import RecordFilter.Proofs.Binding
import RecordFilter.Proofs.Rendering
import RecordFilter.Proofs.Independence
import RecordFilter.Proofs.Readback
import RecordFilter.Proofs.Diagnosis
import RecordFilter.Proofs.Numerals
import RecordFilter.Proofs.Typing
import RecordFilter.Proofs.Correspondence
import RecordFilter.Proofs.BoundValues
import RecordFilter.Proofs.JsonDocument
import RecordFilter.Proofs.JsonText
import RecordFilter.Proofs.Saving
import RecordFilter.Metadata.Turn
import RecordFilter.Proofs.Paging
import RecordFilter.Proofs.Fetching
import RecordFilter.Proofs.Refreshing
import RecordFilter.Proofs.Serving
import RecordFilter.Metadata.Interleaving
import RecordFilter.Proofs.Interleaving
import RecordFilter.Proofs.Rounding
import RecordFilter.Proofs.Shortest
import RecordFilter.Proofs.WrittenFloats
import RecordFilter.Proofs.Resaving
import RecordFilter.Proofs.RefreshingAll
import RecordFilter.Proofs.Submitting
import RecordFilter.Proofs.Renumbering
import RecordFilter.Proofs.Editing
import RecordFilter.Proofs.Addressing
import RecordFilter.Proofs.PathsAfterRemoval
import RecordFilter.Proofs.InPlace
import RecordFilter.Proofs.OperatorChoice
import RecordFilter.Proofs.Unfinished
import RecordFilter.Proofs.Resolving
import RecordFilter.Proofs.NonemptyNodes
import RecordFilter.Proofs.Patterns
import RecordFilter.Proofs.Placeholders
import RecordFilter.Proofs.Listing
import RecordFilter.Proofs.Reporting
import RecordFilter.Proofs.Restoring
import RecordFilter.Proofs.FollowingPages
import RecordFilter.Proofs.SearchedListings
import RecordFilter.Proofs.LiteralSearch
import RecordFilter.Proofs.CatalogHistory
import RecordFilter.Proofs.CatalogText
import RecordFilter.Proofs.Identifiers
import RecordFilter.Proofs.ValuesInText
import RecordFilter.Proofs.Integers
import RecordFilter.Proofs.Rebinding
import RecordFilter.Proofs.DateTexts
import RecordFilter.Proofs.Columns
import RecordFilter.Proofs.Expansion
