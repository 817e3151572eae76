import IsalesApi.Foundation.Transition
import IsalesApi.Foundation.Table
import IsalesApi.Ws.Manager
import IsalesApi.Ws.Coherence
import IsalesApi.Ws.Lifecycle
import IsalesApi.Ws.Handlers
import IsalesApi.Ws.Shutdown
import IsalesApi.Ws.Timers
import IsalesApi.Ws.FanOut
import IsalesApi.Config.Database
import IsalesApi.Config.Handlers
import IsalesApi.Config.Accepted
import IsalesApi.Config.Labels
import IsalesApi.Config.Closed
import IsalesApi.Foundation.ReadCommitted
import IsalesApi.Config.Overlap
import IsalesApi.Prompt.Versions
import IsalesApi.Prompt.Exclusive
import IsalesApi.Config.Merged
import IsalesApi.Config.OneByOne
import IsalesApi.Config.Patches
import IsalesApi.Foundation.Loop
import IsalesApi.Foundation.Ledger
import IsalesApi.Config.Deletion
import IsalesApi.Config.RuleWrites
import IsalesApi.Prompt.Activation
import IsalesApi.Python.Text
import IsalesApi.Python.Json
import IsalesApi.Python.Csv
import IsalesApi.Leads.Import
import IsalesApi.Leads.RowByRow
import IsalesApi.Leads.Records
import IsalesApi.Leads.WellFormed
import IsalesApi.Leads.Isolation
import IsalesApi.Auth.Claims
import IsalesApi.Auth.Tokens
import IsalesApi.Auth.Separation
import IsalesApi.Credentials.Handlers
import IsalesApi.Credentials.LastWriter
import IsalesApi.Credentials.Stamps
import IsalesApi.Foundation.Pages
import IsalesApi.Python.Dates
import IsalesApi.Calls.Records
import IsalesApi.Listings.Handlers
import IsalesApi.Listings.Tiling
import IsalesApi.Listings.Holidays
import IsalesApi.Foundation.Aggregates
import IsalesApi.Analytics.Endpoints
import IsalesApi.Analytics.Additive
import IsalesApi.Analytics.Agreement
import IsalesApi.Analytics.Buckets
import IsalesApi.Auth.Ttl
import IsalesApi.Auth.TtlGrammar
import IsalesApi.Auth.Lifetime
import IsalesApi.Seed.Script
import IsalesApi.Seed.Reseed
import IsalesApi.Holidays.Handlers
import IsalesApi.Holidays.Merge
import IsalesApi.Holidays.Overlap
import IsalesApi.Foundation.CommitLog
import IsalesApi.Credentials.Overlap
import IsalesApi.Config.ManyRequests
import IsalesApi.Prompt.ManyRequests
import IsalesApi.Foundation.Relabel
import IsalesApi.Leads.Overlap
import IsalesApi.Foundation.Grouping
import IsalesApi.Campaigns.Progress
import IsalesApi.Campaigns.Control
import IsalesApi.Campaigns.Delivery
import IsalesApi.Foundation.Riff
import IsalesApi.Python.Wave
import IsalesApi.Common.Wav
import IsalesApi.Campaigns.TtsPreview
import IsalesApi.Auth.Login
import IsalesApi.Foundation.Settling
import IsalesApi.Ws.Settling
import IsalesApi.Ws.Listeners
import IsalesApi.Config.Reading
import IsalesApi.Foundation.Sight
import IsalesApi.Foundation.Merging
import IsalesApi.Config.FieldPatches
import IsalesApi.Holidays.FieldPatches
import IsalesApi.Foundation.Directory
import IsalesApi.Foundation.Replies
import IsalesApi.Leads.Handlers
import IsalesApi.Leads.Directory
import IsalesApi.Leads.Refinement
import IsalesApi.Campaigns.Devices
import IsalesApi.Devices.Status
import IsalesApi.Auth.Outsiders
import IsalesApi.Prompt.Catalogue
import IsalesApi.Prompt.Refinement
import IsalesApi.Calls.Handlers
import IsalesApi.Analytics.CallByCall
