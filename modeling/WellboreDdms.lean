import WellboreDdms.Machine.Run
import WellboreDdms.Machine.Blob
import WellboreDdms.Sessions.Chunks
import WellboreDdms.Sessions.Clients
import WellboreDdms.Sessions.Expiry
import WellboreDdms.Bulk.Provenance
import WellboreDdms.Bulk.Races
import WellboreDdms.Families.Processors
import WellboreDdms.Records.BlobStorage
import WellboreDdms.Bulk.Purge
import WellboreDdms.Bulk.Reference
import WellboreDdms.Schemas.Manager
import WellboreDdms.Consistency.Meet
import WellboreDdms.Injector.Singletons
import WellboreDdms.Conf.Isolation
import WellboreDdms.Bulk.Decision
import WellboreDdms.Bulk.Datasets
import WellboreDdms.Search.Cursors
import WellboreDdms.Consistency.Grouping
import WellboreDdms.Bulk.Selection
import WellboreDdms.Bulk.Filters
import WellboreDdms.Consistency.Survival
import WellboreDdms.Records.Expressions
import WellboreDdms.Bulk.Format
import WellboreDdms.Schemas.Relax
import WellboreDdms.Families.Default
import WellboreDdms.Bulk.StoragePath
import WellboreDdms.Bulk.TempFiles
import WellboreDdms.Bulk.Serializer
import WellboreDdms.Sessions.Namespace
import WellboreDdms.Records.Versions
import WellboreDdms.OpenApi.OperationIds
import WellboreDdms.Bulk.Snapshots
import WellboreDdms.Bulk.SessionBase
import WellboreDdms.Sessions.Lifecycle
import WellboreDdms.Http.Context
import WellboreDdms.Families.Uploads
import WellboreDdms.Records.Consistency
import WellboreDdms.Records.Retries
import WellboreDdms.Records.Deletion
import WellboreDdms.Records.Refinement
