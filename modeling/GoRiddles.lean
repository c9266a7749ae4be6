import GoRiddles.QuizProgress
import GoRiddles.QuizAlive
import GoRiddles.TabClosed
import GoRiddles.ServiceFlight
import GoRiddles.TunnelServer
import GoRiddles.BrowserPaused
import GoRiddles.BrowserHandover
import GoRiddles.HomePick
import GoRiddles.HomeLabel
import GoRiddles.ConnectClient
import GoRiddles.AdWaterfall
import GoRiddles.AdShow
import GoRiddles.AdCache
import GoRiddles.AnsweredFlags
import GoRiddles.TipAnswer
import GoRiddles.History
import GoRiddles.HotStart
import GoRiddles.HomeResult
import GoRiddles.NextAd
import GoRiddles.RandomDraws
import GoRiddles.Bandwidth
import GoRiddles.NetworkListener
import GoRiddles.ProcessPool
import GoRiddles.AclFlatten
import GoRiddles.DataStore
import GoRiddles.ProfileBackup
import GoRiddles.SubscriptionUpdate
