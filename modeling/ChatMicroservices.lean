import ChatMicroservices.EffectPrograms
import ChatMicroservices.ConcurrentPrograms
import ChatMicroservices.SequentialPrograms
import ChatMicroservices.JavaScriptValues
import ChatMicroservices.JsonParsing
import ChatMicroservices.JavaScriptOperators
import ChatMicroservices.JsonColumns
import ChatMicroservices.JsonSerialisation
import ChatMicroservices.StoredTexts
import ChatMicroservices.KeyedTables
import ChatMicroservices.InsertionMaps
import ChatMicroservices.RegisteredSets
import ChatMicroservices.Transcripts
import ChatMicroservices.OrderedPools
import ChatMicroservices.LeadingElements
import ChatMicroservices.MessagesTable
import ChatMicroservices.ChatEffects
import ChatMicroservices.MessageNotification
import ChatMicroservices.SocketHandlers
import ChatMicroservices.MessageController
import ChatMicroservices.SendMessageRuns
import ChatMicroservices.SendRequestRuns
import ChatMicroservices.HandlerFootprints
import ChatMicroservices.ListenerContainment
import ChatMicroservices.MessageAnnouncement
import ChatMicroservices.StatusMonotonicity
import ChatMicroservices.EncryptedStore
import ChatMicroservices.DeliveryAuthenticity
import ChatMicroservices.EventAudience
import ChatMicroservices.TypingIndicators
import ChatMicroservices.BrokerReconnection
import ChatMicroservices.PrekeyBundles
import ChatMicroservices.PrekeyDatabase
import ChatMicroservices.PrekeyController
import ChatMicroservices.PrekeyPools
import ChatMicroservices.PrekeyProtocol
import ChatMicroservices.PrekeyHandOut
import ChatMicroservices.PrekeyConservation
import ChatMicroservices.PrekeyReuse
import ChatMicroservices.PrekeyValidation
import ChatMicroservices.PrekeyDevices
import ChatMicroservices.PrekeyRequests
import ChatMicroservices.PrekeyOutcomes
import ChatMicroservices.BundleOutcomes
import ChatMicroservices.PrekeySessions
import ChatMicroservices.BackupRateLimit
import ChatMicroservices.BackupRegister
import ChatMicroservices.PublishedBundles
import ChatMicroservices.BundleConfidentiality
import ChatMicroservices.PrekeyUpserts
import ChatMicroservices.UpsertRaces
import ChatMicroservices.PresenceStore
import ChatMicroservices.PresenceExactness
import ChatMicroservices.LocalPresenceStore
import ChatMicroservices.RedisPresence
import ChatMicroservices.PresenceExpiry
import ChatMicroservices.PresenceRecovery
import ChatMicroservices.PresenceHealing
import ChatMicroservices.CorrelationMap
import ChatMicroservices.ReplyRouting
import ChatMicroservices.DetailsResponder
import ChatMicroservices.EmailTemplates
import ChatMicroservices.NotificationHandlers
import ChatMicroservices.NotificationSettlement
import ChatMicroservices.JsonRoundTrip
import ChatMicroservices.NotificationPrivacy
import ChatMicroservices.NotificationsTable
import ChatMicroservices.NotificationController
import ChatMicroservices.DeletedNotifications
import ChatMicroservices.NotificationIsolation
import ChatMicroservices.MessageValidation
import ChatMicroservices.SendPaths
import ChatMicroservices.Promises
import ChatMicroservices.RedisService
import ChatMicroservices.RedisReadiness
import ChatMicroservices.RedisHealth
import ChatMicroservices.RelationalQueries
import ChatMicroservices.ConversationList
import ChatMicroservices.StatusWrites
import ChatMicroservices.ReadReceipts
import ChatMicroservices.DoubleRounding
import ChatMicroservices.ConversationPages
import ChatMicroservices.PaginationParameters
import ChatMicroservices.PageWalks
import ChatMicroservices.SendAnswers
import ChatMicroservices.UsersTable
import ChatMicroservices.AuthValidation
import ChatMicroservices.AuthController
import ChatMicroservices.RegistrationRaces
import ChatMicroservices.BrokerHealth
import ChatMicroservices.TypingTimerMap
import ChatMicroservices.CallerContext
import ChatMicroservices.TokenScans
import ChatMicroservices.TemplateRendering
import ChatMicroservices.DeliveryAttempts
import ChatMicroservices.LikePatterns
import ChatMicroservices.UserSearch
import ChatMicroservices.PasswordLogin
import ChatMicroservices.RelatedLists
import ChatMicroservices.ObjectWalks
import ChatMicroservices.JsonLines
import ChatMicroservices.ObjectGraphs
import ChatMicroservices.ObjectTexts
import ChatMicroservices.ProductionLogging
import ChatMicroservices.OrderedReports
import ChatMicroservices.MicrotaskQueues
import ChatMicroservices.PresenceBroadcasts
import ChatMicroservices.ExpiringCaches
import ChatMicroservices.UserDetails
import ChatMicroservices.EffectCounts
import ChatMicroservices.RegistrationEvents
import ChatMicroservices.WelcomeDeliveries
import ChatMicroservices.CookieHeaders
import ChatMicroservices.Authentication
import ChatMicroservices.Sessions
import ChatMicroservices.OpenPools
import ChatMicroservices.ReceiverLookups
import ChatMicroservices.LookupConsistency
import ChatMicroservices.NoticeDeliveries
import ChatMicroservices.AccountLookups
import ChatMicroservices.ProgramCouplings
import ChatMicroservices.ErrorAnswers
import ChatMicroservices.RouteValidation
import ChatMicroservices.RestRoutes
import ChatMicroservices.ForeignErrors
import ChatMicroservices.FailureCouplings
import ChatMicroservices.ChatFailures
import ChatMicroservices.UserFailures
import ChatMicroservices.FailureMasking
