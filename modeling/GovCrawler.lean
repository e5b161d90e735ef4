import GovCrawler.Lib.Transition
import GovCrawler.Lib.SlidingWindow
import GovCrawler.Lib.ThreadPool
import GovCrawler.Lib.Table
import GovCrawler.Lib.StoreProgram
import GovCrawler.Basic
import GovCrawler.Outreach.Tables
import GovCrawler.Deps
import GovCrawler.Outreach.EmailRoutes
import GovCrawler.Outreach.Credentials
import GovCrawler.Outreach.Dispatch
import GovCrawler.Outreach.SendOutcome
import GovCrawler.Outreach.NoStuckSending
import GovCrawler.Outreach.CampaignRoutes
import GovCrawler.Outreach.DispatchSystem
import GovCrawler.Outreach.AtMostOnce
import GovCrawler.Outreach.CredentialUse
import GovCrawler.Auth.Mixin
import GovCrawler.Auth.Routes
import GovCrawler.Auth.Ledger
import GovCrawler.Auth.Tokens
import GovCrawler.Auth.Reuse
import GovCrawler.Auth.Revocation
import GovCrawler.Auth.LoginRateLimit
import GovCrawler.Auth.Csrf
import GovCrawler.Lib.OrderedDict
import GovCrawler.Crawler.Frontier
import GovCrawler.Crawler.Checkpoint
import GovCrawler.Crawler.Closure
import GovCrawler.Leads.SaveLead
import GovCrawler.Leads.Landing
import GovCrawler.Agent.LocalOutbox
import GovCrawler.Agent.Delivery
import GovCrawler.Agent.Outage
import GovCrawler.Jobs.Coordination
import GovCrawler.Jobs.JobSystem
import GovCrawler.Jobs.StateMachine
import GovCrawler.Jobs.AgentExclusive
import GovCrawler.Jobs.ResumeSeeds
import GovCrawler.Agent.CrawlTasks
import GovCrawler.Outreach.DispatchTasks
import GovCrawler.Outreach.Service
import GovCrawler.Outreach.Cancellation
import GovCrawler.Crawler.Visit
import GovCrawler.Crawler.RoundTrip
import GovCrawler.Leads.ManualUpload
import GovCrawler.Leads.Redelivery
import GovCrawler.Outreach.Completion
import GovCrawler.Outreach.DailyCap
import GovCrawler.Agent.Session
import GovCrawler.Crawler.Links
import GovCrawler.Crawler.Workers
import GovCrawler.Crawler.Bounded
import GovCrawler.Crawler.ChainBudget
import GovCrawler.Crawler.Progress
import GovCrawler.Leads.Rescoring
import GovCrawler.Lib.Merging
import GovCrawler.Leads.MergeLaw
import GovCrawler.Leads.Catalog
import GovCrawler.Leads.CatalogCalls
import GovCrawler.Leads.Attribution
import GovCrawler.Leads.InOrder
import GovCrawler.Leads.NetlocCache
import GovCrawler.Outreach.KeyRotation
import GovCrawler.Outreach.CredentialPool
import GovCrawler.Lib.UrlSplit
import GovCrawler.Leads.SelfResolution
import GovCrawler.Agent.DeadLetters
import GovCrawler.Crawler.SavedItems
import GovCrawler.Crawler.QueueAccounting
import GovCrawler.Crawler.Fetch
import GovCrawler.Outreach.Letters
import GovCrawler.Outreach.Staging
import GovCrawler.Outreach.CampaignSystem
import GovCrawler.Outreach.Recipients
import GovCrawler.Outreach.SentContent
import GovCrawler.Crawler.Parser
import GovCrawler.Leads.Provenance
import GovCrawler.Crawler.Binding
import GovCrawler.Leads.LongestSuffix
import GovCrawler.Crawler.KeptContext
import GovCrawler.Crawler.Addresses
import GovCrawler.Crawler.Truncation
import GovCrawler.Crawler.StrayPhones
import GovCrawler.Leads.Facets
import GovCrawler.Leads.Pages
import GovCrawler.Lib.LastWins
import GovCrawler.Leads.CatalogReplace
import GovCrawler.Leads.Importer
import GovCrawler.Leads.DedupeMigration
import GovCrawler.Leads.DedupeAsSave
import GovCrawler.Leads.ImportLock
import GovCrawler.Leads.ContactsCsv
import GovCrawler.Leads.UploadAccounting
import GovCrawler.Lib.CopyByKey
import GovCrawler.Outreach.CampaignMerge
import GovCrawler.Leads.AttributionBackfill
import GovCrawler.Lib.Json
import GovCrawler.Settings.Values
import GovCrawler.Settings.Config
import GovCrawler.Settings.SaveConfig
import GovCrawler.Settings.Effective
import GovCrawler.Settings.RoundTrip
import GovCrawler.Lib.Phases
import GovCrawler.Lib.Renumbering
import GovCrawler.Migration.SqliteToPg
import GovCrawler.Migration.References
import GovCrawler.Auth.Roles
import GovCrawler.Auth.AccessControl
import GovCrawler.Auth.AuditTrail
import GovCrawler.Auth.EffectivePermissions
import GovCrawler.Crawler.Throttle
import GovCrawler.Leads.LeadExport
import GovCrawler.Leads.Reimport
import GovCrawler.Outreach.ConnectFlow
import GovCrawler.Outreach.DispatchService
import GovCrawler.Outreach.TokenLineage
import GovCrawler.Settings.Startup
import GovCrawler.Outreach.CredentialSlots
