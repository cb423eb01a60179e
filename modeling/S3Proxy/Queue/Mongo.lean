import S3Proxy.Client.Mmdb
import S3Proxy.Model.Metric
import S3Proxy.Server.Address
import S3Proxy.Server.Encoding

/-!
# Stored metrics

When a response has been sent, `extraProcess` publishes a metric of it, which `MongoClient::save`
writes as a document.  Both copy field by field.  `extraProcess` never assigns the size and the mark
for compressed bodies, so what is stored there is what the metric began with (`Unassigned`).

## Main result

`describes_iff`: for every handler and every request, the metric and the stored document describe
the response exactly if the unassigned fields do so by chance (`Unassigned.Right`).  `Describes` has
a part for each field, in the metric and in the document: method, resource, address, status, size,
the mark and the times.

The handlers are those of `Server.Resource`; `Handler.response` is what one of them answers, and
`Handler.Gzipped` whether the body is that of a compressed file.  The integers of the metric and of
the document have widths of their own: `status_response_lt` keeps the status within its width, and
`toInt_size_iff` says which sizes are written as they are.

## Hypotheses

None.  The unassigned fields and the readings of the clock are arbitrary, and so is the function
that makes an address of a text.

## What it rests on

`ipaddress` of `Server.Address`, `FromGzip` of `Server.Encoding`, and the statuses of the answers in
`Server.Resource`.  How the metric gets to the client is the subject of `Queue.Poller`.
-/

namespace S3Proxy

namespace Mongo

open Client (Properties)

/-- A value in a document. -/
inductive Bson
  | utf8 (text : Bytes)
  | int64 (n : Int64)
  | int32 (n : Int32)
  | bool (b : Bool)
  /-- In milliseconds. -/
  | date (t : Int64)
  | document (entries : List (Bytes × Bytes))
  deriving DecidableEq

/-- `std::chrono::nanoseconds`, as a 64-bit count. -/
def nanoseconds (t : TimePoint) : Int64 := Int64.ofInt t

/-- The document that `MongoClient::save` inserts. -/
def save (metric : Metric) (fields : Properties) : List (String × Bson) :=
  [("method", .utf8 metric.method),
    ("resource", .utf8 metric.resource),
    ("mimeType", .utf8 metric.mimeType),
    ("ipaddress", .utf8 metric.ipaddress),
    ("size", .int64 metric.size.toInt64),
    ("time", .int64 metric.time),
    ("status", .int32 metric.status),
    ("compressed", .bool metric.compressed),
    ("timestamp", .int64 (nanoseconds metric.timestamp)),
    ("created", .date (Int64.ofInt (metric.timestamp.tdiv 1000000)))] ++
  if fields.isEmpty then [] else [("location", .document fields.entries)]

/-- The fields of a metric that are not assigned anywhere. -/
structure Unassigned where
  size : UInt64
  compressed : Bool
  deriving DecidableEq

/-- `framework::extraProcess`: the metric that it publishes.  The clock is read for `Metric{}` and
once more at the end. -/
def extraProcess (makeAddress : String → Bool) (req : FrameworkRequest) (response : Response)
    (unassigned : Unassigned) (now et : TimePoint) : Metric where
  method := bytesOf req.method
  status := Int32.ofNat response.status
  mimeType := bytesOf response.mimeType
  resource := bytesOf response.path
  ipaddress := bytesOf (req.ipaddress makeAddress)
  time := nanoseconds (et - req.timestamp)
  timestamp := now
  size := unassigned.size
  compressed := unassigned.compressed

/-- The handlers that answer requests. -/
inductive Handler
  | get (fetch : Fetch) (env : Serve)
  | clear

variable (p : Platform) (conf : Configuration) (origins : List String)

def Handler.response (req : Request) (w : World) : Handler → Response
  | .get fetch env => (Resource.get p conf origins fetch env req w).1
  | .clear => (Resource.clear conf origins req w).1

/-- The body of the response is compressed. -/
def Handler.Gzipped (req : Request) (w : World) : Handler → Prop
  | .get fetch env => Resource.FromGzip p conf origins fetch env req w
  | .clear => False

/-- The metric and the document describe the response to a request. -/
structure Describes (makeAddress : String → Bool) (req : FrameworkRequest) (response : Response)
    (gzipped : Prop) (metric : Metric) (document : List (String × Bson)) : Prop where
  method : metric.method = bytesOf req.method ∧
    document.lookup "method" = some (.utf8 (bytesOf req.method))
  ipaddress : metric.ipaddress = bytesOf (req.ipaddress makeAddress) ∧
    document.lookup "ipaddress" = some (.utf8 (bytesOf (req.ipaddress makeAddress)))
  resource : metric.resource = bytesOf response.path ∧
    document.lookup "resource" = some (.utf8 (bytesOf response.path))
  mimeType : metric.mimeType = bytesOf response.mimeType ∧
    document.lookup "mimeType" = some (.utf8 (bytesOf response.mimeType))
  status : metric.status.toInt = response.status ∧
    ∃ n : Int32, document.lookup "status" = some (.int32 n) ∧ n.toInt = response.status
  size : metric.size.toNat = response.body.length ∧
    ∃ n : Int64, document.lookup "size" = some (.int64 n) ∧ n.toInt = response.body.length
  compressed : (metric.compressed = true ↔ gzipped) ∧
    ∃ b : Bool, document.lookup "compressed" = some (.bool b) ∧ (b = true ↔ gzipped)

variable {p conf origins}

/-! ### What is copied -/

variable (p conf origins) in
/-- The status of a response is a small number. -/
lemma status_response_lt (h : Handler) (req : Request) (w : World) :
    (h.response p conf origins req w).status < 1000 := by
  cases h with
  | get fetch env =>
      rw [Handler.response, Resource.get_eq_prepare]
      cases hprep : Resource.prepare p conf origins fetch env req w with
      | error answer =>
          obtain ⟨status, text, resp, w', rfl, -, hstatus, -⟩ := Resource.of_prepare_error hprep
          have hbound : ∀ n ∈ [400, 404, 500], n < 1000 := by decide
          exact hbound status hstatus
      | ok q =>
          have hbound : ∀ n ∈ [200, 304, 404, 500], n < 1000 := by decide
          exact hbound _ Resource.status_respond_mem
  | clear =>
      unfold Handler.response Resource.clear
      dsimp only
      split
      · exact (by decide : 403 < 1000)
      split
      · exact (by decide : 400 < 1000)
      split
      · exact (by decide : 304 < 1000)
      · exact (by decide : 403 < 1000)

lemma toInt_ofNat_status {n : ℕ} (h : n < 1000) : (Int32.ofNat n).toInt = n := by
  rw [Int32.toInt_ofNat']
  have hsize : Int32.size = 4294967296 := rfl
  exact Int.bmod_eq_of_le (by omega) (by omega)

/-- A size is written as what it is if it fits. -/
lemma toInt_size_iff {size : UInt64} {n : ℕ} :
    size.toInt64.toInt = n ↔ size.toNat = n ∧ n < 2 ^ 63 := by
  have hsize := size.toNat_lt
  have hint : size.toInt64.toInt = size.toBitVec.toInt := rfl
  rw [hint, BitVec.toInt_eq_toNat_cond, UInt64.toNat_toBitVec]
  split_ifs with h
  · constructor
    · intro hn
      omega
    · rintro ⟨rfl, -⟩
      rfl
  · constructor
    · intro hn
      omega
    · rintro ⟨rfl, hn⟩
      omega

/-! ### What is stored -/

/-- The unassigned fields happen to have the right values. -/
structure Unassigned.Right (u : Unassigned) (response : Response) (gzipped : Prop) : Prop where
  size : u.size.toNat = response.body.length
  fits : response.body.length < 2 ^ 63
  compressed : u.compressed = true ↔ gzipped

/-- **Stored metrics describe the response** precisely if the unassigned fields do so by chance. -/
theorem describes_iff (makeAddress : String → Bool) (h : Handler) (req : FrameworkRequest)
    (w : World) (u : Unassigned) (now et : TimePoint) (fields : Properties) :
    Describes makeAddress req (h.response p conf origins req.toRequest w)
        (h.Gzipped p conf origins req.toRequest w)
        (extraProcess makeAddress req (h.response p conf origins req.toRequest w) u now et)
        (save (extraProcess makeAddress req (h.response p conf origins req.toRequest w) u now et)
          fields) ↔
      u.Right (h.response p conf origins req.toRequest w)
        (h.Gzipped p conf origins req.toRequest w) := by
  have hstatus := toInt_ofNat_status (status_response_lt p conf origins h req.toRequest w)
  constructor
  · intro hd
    obtain ⟨n, hn, hsize⟩ := hd.size.2
    have hn : some (Bson.int64 u.size.toInt64) = some (.int64 n) := hn
    cases hn
    exact ⟨hd.size.1, (toInt_size_iff.mp hsize).2, hd.compressed.1⟩
  · intro hu
    constructor
    · exact ⟨rfl, rfl⟩
    · exact ⟨rfl, rfl⟩
    · exact ⟨rfl, rfl⟩
    · exact ⟨rfl, rfl⟩
    · exact ⟨hstatus, _, rfl, hstatus⟩
    · exact ⟨hu.size, _, rfl, toInt_size_iff.mpr ⟨hu.size, hu.fits⟩⟩
    · exact ⟨hu.compressed, _, rfl, hu.compressed⟩

/-- A metric that begins with zeros: a response of three bytes is stored with a size of zero. -/
theorem not_describes_zero :
    let req : FrameworkRequest := { method := "GET", path := "/a.png", header := [] }
    let h : Handler := .get (.at 0 (.plainText [1, 2, 3] "e" 0)) { compressTime := 0 }
    let response := h.response .sample {} [] req.toRequest .init
    let metric := extraProcess (fun _ => false) req response ⟨0, false⟩ 0 0
    response.body = [1, 2, 3] ∧ (save metric .none).lookup "size" = some (.int64 0) ∧
      ¬ Describes (fun _ => false) req response (h.Gzipped .sample {} [] req.toRequest .init) metric
        (save metric .none) := by
  intro req h response metric
  have hbody : response.body = [1, 2, 3] := by decide
  refine ⟨hbody, rfl, fun hd => ?_⟩
  have hsize := hd.size.1
  rw [hbody] at hsize
  exact absurd hsize (by decide)

end Mongo

end S3Proxy
