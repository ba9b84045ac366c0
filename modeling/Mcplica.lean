import Mcplica.Library.Table
import Mcplica.Library.Run
import Mcplica.Library.Guarded
import Mcplica.Library.Interleaving
import Mcplica.Library.Blank
import Mcplica.Library.Checks
import Mcplica.Library.Doubles
import Mcplica.Library.Fragments
import Mcplica.Library.Trail
import Mcplica.Library.Text
import Mcplica.Library.Ledger
import Mcplica.Library.Refresh
import Mcplica.Domain.Shared
import Mcplica.Deployments.Records
import Mcplica.Deployments.Repository
import Mcplica.Deployments.Transactions
import Mcplica.Deployments.Rewrites
import Mcplica.Deployments.StoreInvariant
import Mcplica.Deployments.RuntimeCommands
import Mcplica.Deployments.CommandProtocol
import Mcplica.Deployments.ControlPlane
import Mcplica.Deployments.Fallback
import Mcplica.Deployments.RowChanges
import Mcplica.Deployments.CommandChanges
import Mcplica.Deployments.RequestChange
import Mcplica.Deployments.Outcomes
import Mcplica.Deployments.RunnerSteps
import Mcplica.Deployments.ServiceSteps
import Mcplica.Deployments.Steps
import Mcplica.Deployments.Resurrection
import Mcplica.Deployments.Revocation
import Mcplica.Deployments.ProjectStop
import Mcplica.Deployments.Evidence
import Mcplica.Builds.Records
import Mcplica.Builds.Repository
import Mcplica.Analysis.Context
import Mcplica.Analysis.Execution
import Mcplica.Auth.Accounts
import Mcplica.Auth.Administrators
import Mcplica.Auth.EmailIdentity
import Mcplica.Auth.PasswordChange
import Mcplica.Builds.Admission
import Mcplica.Builds.Lifecycle
import Mcplica.Builds.AdmissionBound
import Mcplica.Contracts.Json
import Mcplica.Contracts.Urls
import Mcplica.Contracts.Schemas
import Mcplica.Contracts.Manifest
import Mcplica.Contracts.Validation
import Mcplica.Contracts.Hosts
import Mcplica.Contracts.PathTemplate
import Mcplica.Contracts.Canonical
import Mcplica.Library.Quote
import Mcplica.Runtime.Startup
import Mcplica.Runtime.Policy
import Mcplica.Runtime.Requests
import Mcplica.Runtime.Injection
import Mcplica.Compilers.Compiler
import Mcplica.Compilers.Fields
import Mcplica.Compilers.Responses
import Mcplica.Compilers.ShownSchemas
import Mcplica.Compilers.Tools
import Mcplica.Validators.Build
import Mcplica.Compilers.Gate
import Mcplica.Compilers.InputMapping
import Mcplica.Compilers.ToolNames
import Mcplica.Library.Uuid
import Mcplica.Contracts.RuntimeSecrets
import Mcplica.Contracts.SecretMount
import Mcplica.Runtime.Upstream
import Mcplica.Deployments.Credentials
import Mcplica.Deployments.SecretMaterializer
import Mcplica.Deployments.SecretBundles
import Mcplica.Deployments.SecretAgreement
import Mcplica.Deployments.InboundAgreement
import Mcplica.Deployments.Preflight
import Mcplica.Contracts.References
import Mcplica.Domain.Sources
import Mcplica.Parsers.References
import Mcplica.Parsers.Dependencies
import Mcplica.Library.Expansion
import Mcplica.Parsers.Rewriting
import Mcplica.Parsers.SchemaPositions
import Mcplica.Parsers.Materialization
import Mcplica.Parsers.Inventory
import Mcplica.Parsers.Pointers
import Mcplica.Parsers.OpenApi
import Mcplica.Parsers.InventoryMeaning
import Mcplica.Parsers.ReferenceChains
import Mcplica.Parsers.Resolution
import Mcplica.Parsers.DataPositions
import Mcplica.Parsers.ApiInventory
import Mcplica.Parsers.Documentation
import Mcplica.Parsers.Extension
import Mcplica.Parsers.Structured
import Mcplica.Indexing.SemanticChunks
import Mcplica.Builds.AuthSelection
import Mcplica.Builds.CredentialMapping
import Mcplica.Sources.Discovery
import Mcplica.Sources.Creation
import Mcplica.Sources.Supersession
import Mcplica.Sources.Lifecycle
import Mcplica.Sources.Primary
import Mcplica.Sources.Refreshing
import Mcplica.Cleanup.Jobs
import Mcplica.Cleanup.Machine
import Mcplica.Cleanup.IndexFailure
import Mcplica.Cleanup.LockOrder
import Mcplica.Cleanup.Retention
import Mcplica.Cleanup.RetentionSafety
import Mcplica.Builds.Readiness
import Mcplica.Library.SingleFlight
import Mcplica.Canonicalization.Service
import Mcplica.Contracts.CanonicalText
import Mcplica.Contracts.JsonText
import Mcplica.Canonicalization.Uncached
import Mcplica.Secrets.Rotation
import Mcplica.Secrets.Reencryption
import Mcplica.Runtime.Client
import Mcplica.Library.Template
import Mcplica.Runtime.Substitution
import Mcplica.Runtime.OperationCalls
import Mcplica.Runtime.Scalars
import Mcplica.Runtime.Responses
import Mcplica.Runtime.Pagination
import Mcplica.Core.RequestLimits
import Mcplica.Core.AsyncUtils
import Mcplica.Runtime.TokenCache
import Mcplica.Runtime.SigningKeys
import Mcplica.Contracts.IpAddresses
import Mcplica.Core.NetworkPolicy
import Mcplica.Clients.Http
import Mcplica.Clients.Cache
import Mcplica.Builds.Diff
import Mcplica.Builds.ModelDump
import Mcplica.Runtime.SampledSchemas
import Mcplica.Indexing.Embeddings
import Mcplica.Analysis.Reuse
