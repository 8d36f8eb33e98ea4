import LanChat.Lib.Command
import LanChat.Lib.Run
import LanChat.Lib.Observer
import LanChat.Lib.OrderedMap
import LanChat.Lib.Rfc8259
import LanChat.Lib.Mailbox
import LanChat.Lib.Joined
import LanChat.Lib.Newest
import LanChat.Json.Double
import LanChat.Json.Value
import LanChat.Json.Serialize
import LanChat.Json.Parse
import LanChat.Json.RoundTrip
import LanChat.Json.NullBytes
import LanChat.Json.Bounds
import LanChat.Json.Lenient
import LanChat.Json.WellFormed
import LanChat.Json.Readable
import LanChat.Protocol
import LanChat.NumericFields
import LanChat.Db.Records
import LanChat.Db.Sqlite
import LanChat.Db.Database
import LanChat.Db.Store
import LanChat.Db.Crypto
import LanChat.Db.UserRepository
import LanChat.Db.LegacyMigrator
import LanChat.Db.MessageRepository
import LanChat.Db.ChannelRepository
import LanChat.Db.FriendRepository
import LanChat.Db.Access
import LanChat.Db.Settled
import LanChat.Db.Tracks
import LanChat.Db.Durability
import LanChat.Db.MessageHistory
import LanChat.Db.MessageOrigins
import LanChat.Db.OfflineMessages
import LanChat.Db.FreshIds
import LanChat.Db.Histories
import LanChat.Db.OfflineBatches
import LanChat.Db.GroupTables
import LanChat.Db.Friendships
import LanChat.Db.FriendPairs
import LanChat.Db.RowOrder
import LanChat.Db.UserLists
import LanChat.Lib.Framing
import LanChat.Server.FrameStream
import LanChat.Client.TcpManager
import LanChat.Client.Stringify
import LanChat.Client.Requests
import LanChat.Server.AsyncSession
import LanChat.Server.RateLimit
import LanChat.Server.WriteQueue
import LanChat.Server.SessionPool
import LanChat.Server.PresenceManager
import LanChat.Server.MessageRouter
import LanChat.Server.TcpServer
import LanChat.Server.Access
import LanChat.Server.Accesses
import LanChat.Server.PoolIndex
import LanChat.Server.Roster
import LanChat.Server.Handout
import LanChat.Server.Routing
import LanChat.Server.RosterSteps
import LanChat.Server.LoginState
import LanChat.Server.Removal
import LanChat.Server.SenderAuthenticity
import LanChat.Server.Confidentiality
import LanChat.Server.Restart
import LanChat.Server.Migration
import LanChat.Db.Unchanged
import LanChat.Db.Refusals
import LanChat.Server.Unauthenticated
import LanChat.Server.Refusals
import LanChat.Server.HandedOnce
import LanChat.Server.Authorship
import LanChat.Server.Friendship
import LanChat.Server.Consent
import LanChat.Server.Saving
import LanChat.Server.OfflineLoss
import LanChat.Server.Provenance
import LanChat.Server.ChangeNotices
import LanChat.Server.Nicknames
import LanChat.Server.LegacyUsers
import LanChat.Server.Passwords
import LanChat.Lib.Evolution
import LanChat.Server.Authentication
import LanChat.Server.Accounts
import LanChat.Server.Acquaintance
import LanChat.Server.Memberships
import LanChat.Server.ShownTexts
import LanChat.Server.FrameTypes
import LanChat.Server.PresenceAudience
import LanChat.Json.TextLength
import LanChat.Server.PayloadSizes
import LanChat.Server.FrameOverflow
import LanChat.Client.Liveness
import LanChat.Client.MessageStore
import LanChat.Client.World
import LanChat.Client.OfflineQueue
import LanChat.Client.Outbox
import LanChat.Client.Connection
import LanChat.Client.ReadReceipts
import LanChat.Client.Reactions
import LanChat.Client.Contacts
import LanChat.Client.Presence
import LanChat.Client.OnlineStatus
import LanChat.Client.SearchStore
import LanChat.Client.DirectPeers
import LanChat.Client.FriendLists
import LanChat.Client.HistoryMerge
import LanChat.Client.Unread
import LanChat.Client.AuthStore
import LanChat.Client.SecureStorage
import LanChat.Client.SecureKeys
import LanChat.Client.AiStream
import LanChat.Lib.Similar
import LanChat.Db.Lookalike
import LanChat.Server.Lookalike
import LanChat.Server.Unobservable
