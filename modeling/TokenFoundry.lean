import TokenFoundry.Framework.Programs
import TokenFoundry.Framework.Interleaving
import TokenFoundry.Framework.VersionedCell
import TokenFoundry.Models.Enums
import TokenFoundry.Models.Schemas
import TokenFoundry.Services.KeyLimits
import TokenFoundry.Services.LimitPolicy
import TokenFoundry.Api.Users
import TokenFoundry.Api.Keys
import TokenFoundry.Api.Tenants
import TokenFoundry.Properties.Lockout
import TokenFoundry.Properties.LimitsSerial
import TokenFoundry.Properties.QuotaEnforcement
import TokenFoundry.Properties.AuditWorld
import TokenFoundry.Properties.AuditConsent
import TokenFoundry.Services.Pools
import TokenFoundry.Properties.PoolMembership
import TokenFoundry.Services.TerraformRunner
import TokenFoundry.Api.GithubAccounts
import TokenFoundry.Properties.OrphanedHubs
import TokenFoundry.Framework.Datetime
import TokenFoundry.Framework.PyValues
import TokenFoundry.Services.Billing
import TokenFoundry.Services.UsageIngest
import TokenFoundry.Api.Usage
import TokenFoundry.Properties.TenantBinding
import TokenFoundry.Properties.TenantIsolation
import TokenFoundry.Properties.DeviceHandoff
import TokenFoundry.Properties.GhostKeys
import TokenFoundry.Services.BudgetEnforcer
import TokenFoundry.Properties.Suspension
import TokenFoundry.Properties.TeardownRetry
import TokenFoundry.Properties.PooledRouting
import TokenFoundry.Api.HubCatalog
import TokenFoundry.Properties.CatalogRegistration
import TokenFoundry.Hub.Eventhub
import TokenFoundry.Properties.UsageRecords
import TokenFoundry.Properties.PoisonEvents
import TokenFoundry.Properties.Reimport
import TokenFoundry.Properties.BillingConservation
import TokenFoundry.Properties.UsageSummary
import TokenFoundry.Properties.BlobWatermark
import TokenFoundry.Framework.Grouping
import TokenFoundry.Properties.Breakdown
import TokenFoundry.Properties.Trend
import TokenFoundry.Properties.ImportProgress
import TokenFoundry.Properties.ImportFailures
import TokenFoundry.Services.HubImage
import TokenFoundry.Properties.ImageResolution
import TokenFoundry.Api.Relogin
import TokenFoundry.Properties.ReloginIdentity
import TokenFoundry.Api.Routes
import TokenFoundry.Properties.PruneSafety
import TokenFoundry.Properties.KeyAtomicity
import TokenFoundry.Framework.Splitting
import TokenFoundry.Framework.Utf8
import TokenFoundry.Hub.CopilotClient
import TokenFoundry.Hub.Server
import TokenFoundry.Properties.Chunking
import TokenFoundry.Properties.StreamAccounting
import TokenFoundry.Framework.IsoOrder
import TokenFoundry.Properties.TimeWindow
import TokenFoundry.Properties.LimitsAlgebra
import TokenFoundry.Framework.JsonText
import TokenFoundry.Properties.StreamRewriting
import TokenFoundry.Properties.AnthropicMerge
import TokenFoundry.Hub.Audit
import TokenFoundry.Properties.AuditCap
import TokenFoundry.Properties.BudgetSpend
import TokenFoundry.Services.HubStatusPoller
import TokenFoundry.Properties.HubPolling
import TokenFoundry.Properties.BoundedRetries
import TokenFoundry.Hub.TokenStore
import TokenFoundry.Hub.UsageEvents
import TokenFoundry.Properties.TokenInstall
import TokenFoundry.Framework.Blocks
import TokenFoundry.Framework.Outcomes
import TokenFoundry.Hub.AnthropicAdapter
import TokenFoundry.Properties.AnthropicProtocol
import TokenFoundry.Properties.AnthropicStream
import TokenFoundry.Properties.AnthropicWire
import TokenFoundry.Framework.Credentials
import TokenFoundry.Hub.Store
import TokenFoundry.Hub.AdminApi
import TokenFoundry.Hub.AuditArchive
import TokenFoundry.Properties.HubAccess
import TokenFoundry.Properties.HubImageBackend
import TokenFoundry.Hub.Requests
import TokenFoundry.Properties.UpstreamContract
import TokenFoundry.Properties.HubRequests
import TokenFoundry.Properties.HubBilling
import TokenFoundry.Properties.AuditTrail
import TokenFoundry.Properties.UsageFeed
