import Dendri.Lib.FinMap
import Dendri.Lib.Transition
import Dendri.Lib.Ledger
import Dendri.Lib.Interleave
import Dendri.Lib.Window
import Dendri.Server.Validation
import Dendri.Server.Message
import Dendri.Server.Jwt
import Dendri.Server.ReplayBuffer
import Dendri.Server.State
import Dendri.Handlers.Rooms
import Dendri.Server.Registry
import Dendri.Handlers.Message
import Dendri.Handlers.Connect
import Dendri.Handlers.Admits
import Dendri.Services
import Dendri.Properties.Admission
import Dendri.System
import Dendri.Properties.Accounting
import Dendri.Properties.RoomIndex
import Dendri.Properties.Supersede
import Dendri.Properties.RoomAcl
import Dendri.Properties.Replay
import Dendri.Properties.Removal
import Dendri.Properties.Session
import Dendri.Properties.Channels
import Dendri.Properties.Isolation
import Dendri.Properties.ReplayWindow
import Dendri.Properties.ReplayGap
import Dendri.Concurrent.Ownership
import Dendri.Concurrent.Mailbox
import Dendri.Concurrent.Queue
import Dendri.Server.Tenant
import Dendri.Concurrent.Tenants
import Dendri.Concurrent.Revocation
import Dendri.Properties.Supplies
import Dendri.Properties.Authenticity
import Dendri.Properties.Polling
import Dendri.Lib.Json
import Dendri.Lib.Twin
import Dendri.Properties.RoomView
import Dendri.Properties.Exclusion
import Dendri.Properties.RoomLimits
import Dendri.Properties.Presence
import Dendri.Concurrent.Slots
import Dendri.Concurrent.Joining
import Dendri.Concurrent.Eviction
import Dendri.Concurrent.Ordering
import Dendri.Concurrent.Staleness
import Dendri.Properties.Interpolation
import Dendri.Properties.Pairing
import Dendri.Properties.Upkeep
import Dendri.Properties.Appends
import Dendri.Lib.Catalog
import Dendri.Properties.TenantRecords
import Dendri.Properties.LoginEmail
import Dendri.Lib.IpAddress
import Dendri.Server.Webhook
import Dendri.Properties.WebhookFilter
import Dendri.Properties.Rejoin
import Dendri.Properties.LeavingAll
import Dendri.Properties.ReplayOnConnect
import Dendri.Concurrent.Handover
import Dendri.Properties.ExpireNotices
import Dendri.Lib.PercentEncoding
import Dendri.Server.Email
import Dendri.Properties.Signature
import Dendri.Handlers.Admin
import Dendri.Handlers.Customer
import Dendri.Properties.Dashboard
import Dendri.Lib.Calendar
import Dendri.Lib.MachineInt
import Dendri.Properties.Timestamps
import Dendri.Properties.Timeouts
import Dendri.Lib.Keyspace
import Dendri.Server.RedisRealm
import Dendri.Properties.RedisTables
import Dendri.Lib.Lease
import Dendri.Properties.RedisLeases
import Dendri.Properties.RedisCalls
import Dendri.Properties.RegistryMirror
import Dendri.Lib.Dispatcher
import Dendri.Handlers.WebhookEvents
import Dendri.Properties.WebhookDelivery
import Dendri.Properties.Sessions
import Dendri.Properties.MailLimits
import Dendri.Lib.ReadThrough
import Dendri.Concurrent.CacheFreshness
import Dendri.Properties.FlatServer
import Dendri.Properties.TenantTables
import Dendri.Lib.Meter
import Dendri.Server.RateLimiter
import Dendri.Properties.RateLimits
import Dendri.Handlers.Api
import Dendri.Properties.Discovery
