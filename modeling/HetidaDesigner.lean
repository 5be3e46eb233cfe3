import HetidaDesigner.Structure.Application
import HetidaDesigner.Structure.SourceSinkService
import HetidaDesigner.Runtime.Names
import HetidaDesigner.Runtime.CircularDependencies
import HetidaDesigner.Validation.Revalidation
import HetidaDesigner.Validation.Sources
import HetidaDesigner.Store.NestingPaths
import HetidaDesigner.Store.Drafts
import HetidaDesigner.Store.Imports
import HetidaDesigner.Store.Deprecations
import HetidaDesigner.Store.Immutability
import HetidaDesigner.Store.NestedRevisions
import HetidaDesigner.Backend.Traversal
import HetidaDesigner.Backend.ImportLookup
import HetidaDesigner.Backend.Fallback
import HetidaDesigner.Wirings.Transported
import HetidaDesigner.Backend.Transport
import HetidaDesigner.Backend.Wrapping
import HetidaDesigner.Backend.OutputCache
import HetidaDesigner.Models.OperatorNames
import HetidaDesigner.Wirings.InPlace
import HetidaDesigner.Wirings.Overridden
import HetidaDesigner.Wirings.UriDescriptions
import HetidaDesigner.Adapters.ComponentStructure
import HetidaDesigner.Adapters.KafkaMessages
import HetidaDesigner.Adapters.Sql
import HetidaDesigner.Adapters.UrlRepresentations
import HetidaDesigner.Adapters.GenericRest
import HetidaDesigner.Adapters.TimeseriesGroups
import HetidaDesigner.Adapters.TimeseriesInvalidation
import HetidaDesigner.Helpers.Metadata
import HetidaDesigner.Helpers.DataTypeParsing
import HetidaDesigner.Adapters.BlobStorage.Hierarchies
import HetidaDesigner.Runtime.RootInputs
import HetidaDesigner.Trafoutils.Selections
import HetidaDesigner.Trafoutils.Finalized
import HetidaDesigner.Models.CodeUpdates
import HetidaDesigner.Models.ModuleVariables
import HetidaDesigner.Runtime.ImportCycles
import HetidaDesigner.Runtime.Completion
import HetidaDesigner.Backend.StoredCompletion
import HetidaDesigner.Exportimport.LatestReleases
import HetidaDesigner.Exportimport.RequestedWirings
import HetidaDesigner.Exportimport.Dependencies
