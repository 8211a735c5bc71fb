import ListingQuery.Attachments.Allocation
import ListingQuery.Attachments.Budget
import ListingQuery.Attachments.Ledger
import ListingQuery.Attachments.Selection
import ListingQuery.Calendar.Basic
import ListingQuery.Calendar.Reading
import ListingQuery.Calendar.Writing
import ListingQuery.CommandLine.Command
import ListingQuery.CommandLine.Flag
import ListingQuery.Digest
import ListingQuery.Document.Basic
import ListingQuery.Document.Content
import ListingQuery.Document.Cursor
import ListingQuery.Document.Node
import ListingQuery.Document.Scalar
import ListingQuery.Document.Tag
import ListingQuery.Document.Token
import ListingQuery.Engine
import ListingQuery.Filter.Basic
import ListingQuery.Filter.Json
import ListingQuery.Filter.Reading
import ListingQuery.Filter.Region
import ListingQuery.Filter.Token
import ListingQuery.Json.Basic
import ListingQuery.Json.Number
import ListingQuery.Json.Reader
import ListingQuery.Json.Token
import ListingQuery.Json.Writer
import ListingQuery.Limits
import ListingQuery.Listing.Attachment
import ListingQuery.Listing.Basic
import ListingQuery.Listing.Field
import ListingQuery.Listing.Json
import ListingQuery.Main
import ListingQuery.Manifest
import ListingQuery.Number.Binary64
import ListingQuery.Number.Decimal
import ListingQuery.Number.Numeral
import ListingQuery.Number.Shortest
import ListingQuery.Proofs.Attachments.ByteCap
import ListingQuery.Proofs.Attachments.Charging
import ListingQuery.Proofs.Attachments.Greedy
import ListingQuery.Proofs.Attachments.Interleaving
import ListingQuery.Proofs.Attachments.ItemOrder
import ListingQuery.Proofs.Attachments.ItemText
import ListingQuery.Proofs.Attachments.Items
import ListingQuery.Proofs.Attachments.LargerCap
import ListingQuery.Proofs.Attachments.Ledger
import ListingQuery.Proofs.Attachments.Offers
import ListingQuery.Proofs.Attachments.Shipping
import ListingQuery.Proofs.Attachments.Verdicts
import ListingQuery.Proofs.Calendar.DateText
import ListingQuery.Proofs.Calendar.MomentText
import ListingQuery.Proofs.Filter.Bounds
import ListingQuery.Proofs.Filter.Display
import ListingQuery.Proofs.Filter.Equivalence
import ListingQuery.Proofs.Filter.Evaluation
import ListingQuery.Proofs.Filter.FirstOperator
import ListingQuery.Proofs.Filter.Grammar
import ListingQuery.Proofs.Filter.Joining
import ListingQuery.Proofs.Filter.Juxtaposition
import ListingQuery.Proofs.Filter.Lexing
import ListingQuery.Proofs.Filter.MissingConnective
import ListingQuery.Proofs.Filter.Operands
import ListingQuery.Proofs.Filter.Places
import ListingQuery.Proofs.Filter.PlainItems
import ListingQuery.Proofs.Filter.PlainOperand
import ListingQuery.Proofs.Filter.QuotedItems
import ListingQuery.Proofs.Filter.QuotedOperand
import ListingQuery.Proofs.Filter.Reader
import ListingQuery.Proofs.Filter.Readings
import ListingQuery.Proofs.Filter.Refusal
import ListingQuery.Proofs.Filter.Region
import ListingQuery.Proofs.Filter.RereadCondition
import ListingQuery.Proofs.Filter.Rereading
import ListingQuery.Proofs.Filter.Rescanning
import ListingQuery.Proofs.Filter.Respelling
import ListingQuery.Proofs.Filter.Sentence
import ListingQuery.Proofs.Filter.ShortCircuit
import ListingQuery.Proofs.Filter.SingleCondition
import ListingQuery.Proofs.Filter.SpacedOperator
import ListingQuery.Proofs.Filter.Spelling
import ListingQuery.Proofs.Filter.Tightening
import ListingQuery.Proofs.Filter.Tree
import ListingQuery.Proofs.Filter.Words
import ListingQuery.Proofs.Filter.Written
import ListingQuery.Proofs.FirstFailure
import ListingQuery.Proofs.Json.Faithful
import ListingQuery.Proofs.Json.RoundTrip
import ListingQuery.Proofs.Json.Scalars
import ListingQuery.Proofs.Json.Scanning
import ListingQuery.Proofs.Json.Unambiguous
import ListingQuery.Proofs.Limits
import ListingQuery.Proofs.Limits.Steps
import ListingQuery.Proofs.Listing.RoundTrip
import ListingQuery.Proofs.Number.Decimal
import ListingQuery.Proofs.Number.Rounding
import ListingQuery.Proofs.Number.Shortest
import ListingQuery.Proofs.Number.ShortestText
import ListingQuery.Proofs.Paging
import ListingQuery.Proofs.Query.Explanation
import ListingQuery.Proofs.Query.HashedText
import ListingQuery.Proofs.Query.PagingOption
import ListingQuery.Proofs.Running.Compiled
import ListingQuery.Proofs.Running.Delivery
import ListingQuery.Proofs.Running.Execution
import ListingQuery.Proofs.Running.Pages
import ListingQuery.Proofs.Running.Rendering
import ListingQuery.Proofs.Running.Sections
import ListingQuery.Proofs.Running.Sieve
import ListingQuery.Proofs.Running.Stages
import ListingQuery.Proofs.Running.Unseen
import ListingQuery.Proofs.Sorting.AnySort
import ListingQuery.Proofs.Sorting.Arrangement
import ListingQuery.Proofs.Sorting.Column
import ListingQuery.Proofs.Sorting.KeyOrder
import ListingQuery.Proofs.Sorting.OrderText
import ListingQuery.Proofs.Sorting.Sieved
import ListingQuery.Proofs.Sorting.StableSort
import ListingQuery.Proofs.Sorting.Successive
import ListingQuery.Proofs.Sorting.Threshold
import ListingQuery.Proofs.Text.Blank
import ListingQuery.Proofs.Text.LineBreaks
import ListingQuery.Proofs.Value.CastText
import ListingQuery.Proofs.Value.Operators
import ListingQuery.Proofs.Window
import ListingQuery.Query.Document
import ListingQuery.Query.Options
import ListingQuery.Query.Plan
import ListingQuery.QueryError
import ListingQuery.SortOrder
import ListingQuery.Text.Blank
import ListingQuery.Text.CaseTable
import ListingQuery.Text.Lowercase
import ListingQuery.Text.Quoted
import ListingQuery.Text.Unprintable
import ListingQuery.Value.Basic
import ListingQuery.Value.Cast
import ListingQuery.Value.Json
import ListingQuery.Value.Operator
import ListingQuery.Window
