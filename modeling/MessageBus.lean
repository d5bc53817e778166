import MessageBus.Base.Run
import MessageBus.Base.Counter
import MessageBus.Base.Collections
import MessageBus.Base.Locality
import MessageBus.Base.Reader
import MessageBus.Base.Channel
import MessageBus.Base.Rest
import MessageBus.Base.Glob
import MessageBus.Base.Comparison
import MessageBus.Base.MemoryStream
import MessageBus.Base.Der
import MessageBus.Base.Base64
import MessageBus.Common.Values
import MessageBus.Common.DataWriter
import MessageBus.Common.DataReader
import MessageBus.Common.Framing
import MessageBus.Messages.Message
import MessageBus.Messages.Framing
import MessageBus.Messages.RoundTrip
import MessageBus.Messages.Layout
import MessageBus.Messages.Truncation
import MessageBus.Messages.Survival
import MessageBus.Messages.Relay
import MessageBus.Messages.Equality
import MessageBus.Common.TwoWaySet
import MessageBus.Common.TwoWayMaps
import MessageBus.Common.Globber
import MessageBus.Common.KeyUtils
import MessageBus.Common.KeyDecoding
import MessageBus.Common.KeyFiles
import MessageBus.Common.KeyImport
import MessageBus.Distributor.Roles
import MessageBus.Distributor.HostPatterns
import MessageBus.Distributor.RoleDecisions
import MessageBus.Authentication.ConnectionString
import MessageBus.Authentication.ReadBack
import MessageBus.Authentication.Handshake
import MessageBus.Authentication.PasswordFile
import MessageBus.Authentication.Passwords
import MessageBus.Authentication.MakePassword
import MessageBus.Distributor.Interactors
import MessageBus.Distributor.Subscriptions
import MessageBus.Distributor.SubscriptionShape
import MessageBus.Distributor.SubscriptionGauge
import MessageBus.Distributor.Notifications
import MessageBus.Distributor.Publishers
import MessageBus.Distributor.EntitlementTransport
import MessageBus.Distributor.Server
import MessageBus.Distributor.AuthorizationCache
import MessageBus.Distributor.NotificationSet
import MessageBus.Distributor.Delivery
import MessageBus.Distributor.Effects
import MessageBus.Distributor.Sends
import MessageBus.Distributor.Keys
import MessageBus.Distributor.Membership
import MessageBus.Distributor.System
import MessageBus.Distributor.Steps
import MessageBus.Distributor.ReferenceCount
import MessageBus.Distributor.LateResponse
import MessageBus.Distributor.Entitlements
import MessageBus.Distributor.AuthorizationIntegrity
import MessageBus.Distributor.FanOut
import MessageBus.Distributor.Closing
import MessageBus.Distributor.Notices
import MessageBus.Distributor.SelectFeed
import MessageBus.Distributor.ConnectionGauge
import MessageBus.Distributor.Provenance
import MessageBus.Distributor.Denial
import MessageBus.Distributor.NotifyRole
import MessageBus.Distributor.FailedSends
import MessageBus.Distributor.EventLoop
import MessageBus.Distributor.LoopCoherence
import MessageBus.Distributor.Handlers
import MessageBus.Distributor.LoopRuns
import MessageBus.Distributor.LoopRefines
import MessageBus.Distributor.Staleness
import MessageBus.Distributor.RoleIndex
import MessageBus.Distributor.RoleIndexShape
import MessageBus.Distributor.FeedParts
import MessageBus.Distributor.FeedIsolation
import MessageBus.Distributor.ClaimedIdentity
import MessageBus.Distributor.SspiIdentity
import MessageBus.Distributor.Tasks
import MessageBus.Distributor.Failures
import MessageBus.Distributor.Departures
import MessageBus.Distributor.Publications
import MessageBus.Distributor.Authorizers
import MessageBus.Distributor.SubscriptionLedger
import MessageBus.Distributor.Notified
import MessageBus.Distributor.NamedUsers
import MessageBus.Adapters.Client
import MessageBus.Examples.SelectfeedPublisher
import MessageBus.Bus.Connections
import MessageBus.Bus.Integrity
import MessageBus.Bus.Progress
import MessageBus.Bus.Quiescence
import MessageBus.Bus.Departing
import MessageBus.Bus.EndToEnd
import MessageBus.Bus.Authorizing
import MessageBus.Bus.Subscribing
import MessageBus.Bus.Selectfeed
import MessageBus.Bus.Authorizer
import MessageBus.Bus.Users
