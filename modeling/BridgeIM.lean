import BridgeIM.Model.OfflineMsgModel
import BridgeIM.Model.UserModel
import BridgeIM.Server.Closing
import BridgeIM.Server.Collect
import BridgeIM.Server.Delivery
import BridgeIM.Server.Exclusive
import BridgeIM.Server.Framing
import BridgeIM.Server.LoginSound
import BridgeIM.Server.Presence
import BridgeIM.Server.ThreadPool
import BridgeIM.Redis.Convergence
import BridgeIM.Concurrency.ThreadPool
import BridgeIM.Db.ConnectionPool
import BridgeIM.Db.PoolLedger
import BridgeIM.Db.PoolShutdown
import BridgeIM.Lib.Decoder
import BridgeIM.Redis.Listener
import BridgeIM.Db.DbSession
import BridgeIM.Services.Models
import BridgeIM.Services.Rpc
import BridgeIM.Services.Reporting
import BridgeIM.Db.Numbers
import BridgeIM.Lib.Program
import BridgeIM.Model.Database
import BridgeIM.Services.Outcome
import BridgeIM.Server.RequestHandlers
import BridgeIM.Server.Friendship
import BridgeIM.Server.Answering
import BridgeIM.Redis.Wakeup
import BridgeIM.Concurrency.Condition
import BridgeIM.Server.Routing
import BridgeIM.Server.Stopping
import BridgeIM.Server.Groups
import BridgeIM.Server.GroupAnswers
import BridgeIM.Server.Membership
import BridgeIM.Server.Interleaving
import BridgeIM.Server.ChatService
import BridgeIM.Server.Sending
import BridgeIM.Server.Authenticity
import BridgeIM.Server.Consent
import BridgeIM.Db.PoolWakeup
import BridgeIM.Logging.LockQueue
import BridgeIM.Logging.Logger
import BridgeIM.Logging.Accounting
import BridgeIM.Server.JoinFailure
import BridgeIM.Server.Malformed
import BridgeIM.Server.Departure
import BridgeIM.Server.Buffers
import BridgeIM.Client.Responses
import BridgeIM.Client.ReadTask
import BridgeIM.Client.LoginData
import BridgeIM.Server.Dispatch
import BridgeIM.Db.SingleCaller
import BridgeIM.Model.QueryGroup
import BridgeIM.Client.Objects
import BridgeIM.Client.Requests
import BridgeIM.Client.OfflineReplay
import BridgeIM.Lib.Calls
import BridgeIM.Client.Digest
import BridgeIM.Logging.QueueLaw
import BridgeIM.Logging.Refresh
import BridgeIM.Client.Session
import BridgeIM.Db.ConfigFile
import BridgeIM.Client.Menu
import BridgeIM.Redis.Restart
import BridgeIM.Lib.Knowledge
import BridgeIM.Server.Ids
import BridgeIM.Lib.Paths
import BridgeIM.Server.GroupChat
import BridgeIM.Server.Duplicates
import BridgeIM.Server.Settling
import BridgeIM.Server.CrossNode
import BridgeIM.Server.Privacy
import BridgeIM.Lib.Mailbox
import BridgeIM.Server.Mailbox
import BridgeIM.Lib.Transducer
import BridgeIM.Server.Notices
import BridgeIM.Server.SocialNetwork
import BridgeIM.Server.Clubs
import BridgeIM.Client.Conversation
import BridgeIM.Logging.Files
import BridgeIM.Server.Publications
import BridgeIM.Concurrency.Draining
import BridgeIM.Client.Authentic
import BridgeIM.Client.FrontPage
import BridgeIM.Client.Signed
