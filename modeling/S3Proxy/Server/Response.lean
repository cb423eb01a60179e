import S3Proxy.Library.Multimap
import S3Proxy.Model.S3Object

/-!
# Requests and responses

`Response` is the answer a handler builds, and `Response.set` fills in its headers from its fields:
it *replaces* the header map.

A header value carries a flag that asks for it not to be indexed; the program never sets it and it
is left out.

## Main results

What `set` announces is read off per header: `equalRange_contentLength_set` (one length, that of the
body), `equalRange_contentEncoding_set` (gzip exactly if the response is marked), and
`equalRange_allowOrigin_set` (the origin at most once, and to an allowed one only).
`set_headers_congr` says the rest: the headers depend on the length of the body, the mark and the
origin, and on nothing that was in the map before.

## Where it is used

`Server.Resource` has a `set` at each exit.  The loss of what was in the map is what `Server.Head`
turns on; `Server.Common` compares `allows` with the preflight, and `Server.Serving` and
`Server.Encoding` cite the lemmas about headers.
-/

namespace S3Proxy

abbrev HeaderMap := Multimap String String

structure Request where
  method : String
  path : String
  header : HeaderMap
  deriving DecidableEq

structure Response where
  headers : HeaderMap := []
  path : String := ""
  body : Bytes := []
  origin : String := ""
  mimeType : String := ""
  contentLength : ℕ := 0
  status : ℕ := 200
  compressed : Bool := false
  deriving DecidableEq

/-- The two spellings under which a header is looked for. -/
def HeaderMap.findEither (h : HeaderMap) (lower upper : String) : Option String :=
  match h.find lower with
  | some value => some value
  | none => h.find upper

namespace Response

/-- The constructor of `Response`, on the headers of the request. -/
def ofHeaders (h : HeaderMap) : Response :=
  match HeaderMap.findEither h "origin" "Origin" with
  | some origin => { origin }
  | none => {}

/-- Whether `Response::set` announces the origin of the request as allowed. -/
def allows (origins : List String) (origin : String) : Bool :=
  origins.isEmpty || origins.contains origin

/-- `Response::set`. -/
def set (methods origins : List String) (r : Response) : Response :=
  let headers : HeaderMap := [
    ("Access-Control-Allow-Methods", String.intercalate ", " methods),
    ("Access-Control-Allow-Headers", "*, authorization"),
    ("content-length", toString r.body.length)]
  let headers := if r.compressed then headers.emplace "content-encoding" "gzip" else headers
  let headers :=
    if r.origin = "" then headers
    else if allows origins r.origin then
      (headers.emplace "Access-Control-Allow-Origin" r.origin).emplace "Vary" "Origin"
    else headers
  { r with headers }

@[simp] lemma body_ofHeaders (h : HeaderMap) : (ofHeaders h).body = [] := by
  unfold ofHeaders
  split <;> rfl

@[simp] lemma compressed_ofHeaders (h : HeaderMap) : (ofHeaders h).compressed = false := by
  unfold ofHeaders
  split <;> rfl

variable (methods origins : List String) (r : Response)

@[simp] lemma set_body : (r.set methods origins).body = r.body := rfl

/-- The headers `set` produces do not depend on those that were there. -/
lemma set_headers_congr {r s : Response} (hbody : r.body.length = s.body.length)
    (hcomp : r.compressed = s.compressed) (horigin : r.origin = s.origin) :
    (r.set methods origins).headers = (s.set methods origins).headers := by
  simp [set, hbody, hcomp, horigin]

/-- `set` announces one content length, that of the body. -/
lemma equalRange_contentLength_set :
    (r.set methods origins).headers.equalRange "content-length" = [toString r.body.length] := by
  unfold set
  dsimp only
  split_ifs <;> rfl

/-- `set` says gzip exactly if the response is marked as compressed. -/
lemma equalRange_contentEncoding_set :
    (r.set methods origins).headers.equalRange "content-encoding" =
      if r.compressed then ["gzip"] else [] := by
  unfold set
  dsimp only
  split_ifs <;> rfl

/-- The origin is announced at most once, and exactly to an allowed origin. -/
lemma equalRange_allowOrigin_set :
    (r.set methods origins).headers.equalRange "Access-Control-Allow-Origin" =
      if r.origin ≠ "" ∧ allows origins r.origin then [r.origin] else [] := by
  unfold set
  dsimp only
  split_ifs with hcomp horigin <;> simp_all <;> rfl

end Response

end S3Proxy
