import S3Proxy.Model.Configuration

/-!
# Metrics

`Metric` is what a request handler publishes.  `MetricsConfiguration` holds the options that decide
where metrics go, with the defaults of the source, and `publishMetrics` says whether they go
anywhere: the host of the MMDB has to be set, and with it a MongoDB URI or an ILP host.

A metric is data that the queues hand on without looking at it, up to the two consumers that write
it out.  `Queue.Poller` and `Queue.Shutdown` move metrics between threads, `Queue.Mongo` makes the
document and `Queue.Tsdb` the record of one; `Metric.sample` is what their examples are about.
Where the fields of a metric come from is described in `Queue.Mongo`, from the request and the
response that was sent.
-/

namespace S3Proxy

structure Metric where
  method : Bytes
  resource : Bytes
  mimeType : Bytes
  ipaddress : Bytes
  size : UInt64
  timestamp : TimePoint
  /-- In nanoseconds. -/
  time : Int64
  status : Int32
  compressed : Bool
  deriving DecidableEq

structure MetricsConfiguration where
  mmdbHost : String := ""
  ilpHost : String := ""
  ilpSeries : String := "request"
  mongoUri : String := ""
  deriving DecidableEq, Repr

/-- `model::publishMetrics`. -/
def publishMetrics (config : MetricsConfiguration) : Bool :=
  config.mmdbHost ≠ "" && (config.ilpHost ≠ "" || config.mongoUri ≠ "")

/-- A metric to run the model on. -/
def Metric.sample : Metric where
  method := bytesOf "GET"
  resource := bytesOf "/index.html?a=b"
  mimeType := bytesOf "text/html"
  ipaddress := bytesOf "184.105.163.155"
  size := 2950
  timestamp := 1591908061657005325
  time := 640224
  status := 200
  compressed := false

end S3Proxy
