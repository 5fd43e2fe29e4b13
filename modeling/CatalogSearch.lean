import CatalogSearch.Proofs.Publication.History
import CatalogSearch.Proofs.Visibility.Selection
import CatalogSearch.Proofs.Worker.CacheHistory
import CatalogSearch.Proofs.Worker.Job
import CatalogSearch.Rehearsal
import CatalogSearch.Store.Caption
import CatalogSearch.Store.Edit
import CatalogSearch.Worker.BrokerAddress
import CatalogSearch.Worker.Schedule
import CatalogSearch.Proofs.Publication.Failed
import CatalogSearch.Proofs.Document.Presentable
import CatalogSearch.Proofs.Loading.Steady
import CatalogSearch.Proofs.Indexing.Steady
import CatalogSearch.Proofs.Worker.Steady
import CatalogSearch.Proofs.Indexing.Unreported
import CatalogSearch.Proofs.Publication.Unreported
import CatalogSearch.Proofs.Worker.Reports
import CatalogSearch.Proofs.Number.Binary64
import CatalogSearch.Proofs.Number.Shortest
import CatalogSearch.Proofs.Json.Floats
import CatalogSearch.Proofs.Json.Limits
import CatalogSearch.Proofs.Schema.Stable
import CatalogSearch.Proofs.Record.Stable
import CatalogSearch.Proofs.Document.ReadBack
import CatalogSearch.Proofs.Record.RoundTrip
import CatalogSearch.Proofs.Document.Faults
import CatalogSearch.Proofs.Indexing.Agreement
import CatalogSearch.Proofs.Loading.Rules
import CatalogSearch.Proofs.Document.Consistency
import CatalogSearch.Proofs.Indexing.Lineage
import CatalogSearch.Proofs.Worker.EditHistory
import CatalogSearch.Proofs.Service.Interleave
import CatalogSearch.Proofs.Loading.Concurrent
import CatalogSearch.Proofs.Indexing.Hidden
import CatalogSearch.Proofs.Indexing.Separate
import CatalogSearch.Proofs.Publication.Faultless
import CatalogSearch.Proofs.Loading.OneByOne
import CatalogSearch.Proofs.Loading.Resolution
import CatalogSearch.Proofs.Loading.Aborts
import CatalogSearch.Proofs.Worker.Aborted
import CatalogSearch.Proofs.Document.Flattening
import CatalogSearch.Proofs.Data.OneEach
import CatalogSearch.Proofs.Store.Keyed
import CatalogSearch.Proofs.Loading.Fields
import CatalogSearch.Proofs.Loading.Parts
import CatalogSearch.Proofs.Loading.Views
import CatalogSearch.Proofs.Indexing.Loaders
import CatalogSearch.Proofs.Number.Positional
import CatalogSearch.Proofs.Document.Collapse
import CatalogSearch.Proofs.Document.LoaderFields
import CatalogSearch.Proofs.Document.Categories
import CatalogSearch.Proofs.Document.SideTypes
import CatalogSearch.Proofs.Number.Rounding
import CatalogSearch.Proofs.Time.Calendar
import CatalogSearch.Proofs.Time.Epoch
import CatalogSearch.Proofs.Publication.Uploads
import CatalogSearch.Proofs.Loading.Recorded
import CatalogSearch.Proofs.Worker.Completed
import CatalogSearch.Proofs.Worker.CacheLink
import CatalogSearch.Proofs.Text.Split
import CatalogSearch.Proofs.Text.Blank
import CatalogSearch.Proofs.Text.IntLiteral
import CatalogSearch.Proofs.Worker.Schedule
import CatalogSearch.Proofs.Document.Deletions
import CatalogSearch.Proofs.Json.Unambiguous
import CatalogSearch.Proofs.Json.Alike
import CatalogSearch.Proofs.Text.Lowercase
import CatalogSearch.Proofs.Url.Plain
import CatalogSearch.Proofs.Worker.BrokerAddress
import CatalogSearch.Proofs.Json.Key
import CatalogSearch.Proofs.Document.Exact
