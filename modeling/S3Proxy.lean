import S3Proxy.Library.Run
import S3Proxy.Library.FileStore
import S3Proxy.Library.Decimal
import S3Proxy.Library.Multimap
import S3Proxy.Model.S3Object
import S3Proxy.Util.ExpirationCache
import S3Proxy.Util.Compress
import S3Proxy.Server.S3Util
import S3Proxy.Server.Triple
import S3Proxy.Server.Response
import S3Proxy.Server.Common
import S3Proxy.Server.Handlers
import S3Proxy.Server.Resource
import S3Proxy.Server.Serving
import S3Proxy.Server.Head
import S3Proxy.Server.Frame
import S3Proxy.Server.Refresh
import S3Proxy.Server.Site
import S3Proxy.Server.Lookup
import S3Proxy.Library.Threads
import S3Proxy.Server.Interleaving
import S3Proxy.Server.Solo
import S3Proxy.Server.Consistency
import S3Proxy.Client.Pool
import S3Proxy.Client.Limit
import S3Proxy.Library.Quoting
import S3Proxy.Library.Split
import S3Proxy.Model.Text
import S3Proxy.Model.Metric
import S3Proxy.Client.Builder
import S3Proxy.Client.LineProtocol
import S3Proxy.Client.Mmdb
import S3Proxy.Client.Session
import S3Proxy.Queue.Poller
import S3Proxy.Queue.Shutdown
import S3Proxy.Queue.Tsdb
import S3Proxy.Library.Assoc
import S3Proxy.Library.LowerBound
import S3Proxy.Router.Router
import S3Proxy.Router.Table
import S3Proxy.Router.Scan
import S3Proxy.Router.Visit
import S3Proxy.Router.Search
import S3Proxy.Router.Routes
import S3Proxy.Router.Specificity
import S3Proxy.Router.Ledger
import S3Proxy.Server.Target
import S3Proxy.Router.Agreement
import S3Proxy.Router.Bindings
import S3Proxy.Router.Duplicates
import S3Proxy.Router.Order
import S3Proxy.Router.SubPath
import S3Proxy.Server.Clear
import S3Proxy.Server.Conditional
import S3Proxy.Server.Encoding
import S3Proxy.Client.Expiry
import S3Proxy.Client.Fields
import S3Proxy.Client.Ilp
import S3Proxy.Library.Inet
import S3Proxy.Queue.Mongo
import S3Proxy.Library.Calendar
import S3Proxy.Library.Loop
import S3Proxy.Library.MaximalRuns
import S3Proxy.Server.ContentType
import S3Proxy.Util.Date
import S3Proxy.Util.Split
import S3Proxy.Library.Cells
import S3Proxy.Log.Delivery
import S3Proxy.Log.Line
import S3Proxy.Log.Release
import S3Proxy.Log.Stringify
import S3Proxy.Log.NanoLogger
import S3Proxy.Log.Shutdown
import S3Proxy.Log.FileWriter
import S3Proxy.Main
import S3Proxy.Library.Rings
import S3Proxy.Library.Tickets
import S3Proxy.Queue.BlockIndex
import S3Proxy.Queue.Storage
import S3Proxy.Queue.SubQueue
import S3Proxy.Queue.Fifo
