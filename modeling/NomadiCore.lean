import NomadiCore.Library.StatementProcess
import NomadiCore.Library.LabelledRun
import NomadiCore.Library.RowTable
import NomadiCore.Library.BinaryFloat
import NomadiCore.Library.DecimalNumeral
import NomadiCore.Library.TextColumn
import NomadiCore.Library.InterleavedPool
import NomadiCore.Library.JsonText
import NomadiCore.Library.Median
import NomadiCore.Library.CyclicArc
import NomadiCore.Library.DescendingSwaps
import NomadiCore.Library.Calendar
import NomadiCore.Library.EntityEscape
import NomadiCore.Library.LikePattern
import NomadiCore.Library.BufferedReader
import NomadiCore.Library.ChainedTable
import NomadiCore.Library.ReverseCursor
import NomadiCore.Database
import NomadiCore.RequestInput
import NomadiCore.ForumHandlers
import NomadiCore.ForumThreads
import NomadiCore.SocialHandlers
import NomadiCore.GuestFrame
import NomadiCore.OwnRows
import NomadiCore.ForumReferences
import NomadiCore.ForumOrder
import NomadiCore.TagSuggestions
import NomadiCore.TagChips
import NomadiCore.BusinessHours
import NomadiCore.HoursRoundTrip
import NomadiCore.OpenAtFilter
import NomadiCore.ShopFilter
import NomadiCore.EntityHandlers
import NomadiCore.EditingApproval
import NomadiCore.InfoFieldMerge
import NomadiCore.HoursStorage
import NomadiCore.EditingMerge
import NomadiCore.UntouchedHours
import NomadiCore.ReviewScores
import NomadiCore.ReviewMedian
import NomadiCore.ReviewScale
import NomadiCore.ReviewUniqueness
import NomadiCore.TagPage
import NomadiCore.LoginHandlers
import NomadiCore.CheckInPaths
import NomadiCore.FacebookLogin
import NomadiCore.RegistrationRecovery
import NomadiCore.CommunityPages
import NomadiCore.CheckInBox
import NomadiCore.ScoreLedger
import NomadiCore.BusinessHoursMemo
import NomadiCore.VerifyNewCafe
import NomadiCore.MergeShop
import NomadiCore.EventCounters
import NomadiCore.ShopStats
import NomadiCore.MapMarkers
import NomadiCore.Shuffle
import NomadiCore.MapCenter
import NomadiCore.CommentEscaping
import NomadiCore.ViewEvents
import NomadiCore.ModalLoading
import NomadiCore.RedisNumbers
import NomadiCore.RedisKeyspace
import NomadiCore.RedisCommands
import NomadiCore.UserGuideCache
import NomadiCore.RedisQuoting
import NomadiCore.RedisProtocol
import NomadiCore.RedisRequests
import NomadiCore.RedisPipelines
import NomadiCore.RedisServer
import NomadiCore.RedisDict
import NomadiCore.RedisDictMap
import NomadiCore.RedisScan
import NomadiCore.RedisTables
