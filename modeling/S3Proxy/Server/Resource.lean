import S3Proxy.Server.Handlers
import S3Proxy.Server.S3Util

/-!
# The resource handlers

`Resource.get` answers `GET` and `HEAD` requests (`server::get` of `s3resource.cpp`) and
`Resource.clear` the request to clear the cache.  `Serve` is what the world outside decides while
`get` turns a cached object into a response: the clock, and how each file operation goes.

The handler is written in the order of the source: `getWith` validates the target and looks the
object up, `chooseFile` chooses between the plain and the compressed file and compresses on demand,
and `respond` is everything behind the size of the served file.  `Prepared` is what they hand over
to `respond`; nothing before it looks at the method of the request (`get_eq_prepare`,
`prepare_method`).

## Main notions

`ServedFrom` says that a request is served from a file: which object it is, what the files are then
and what the served one holds.  `prepare_eq_ok_iff` says that these are exactly the requests that
the common path hands over, `ServedFrom.unique` that the three are determined, and `get_eq_respond`
that the answer is then the one of `respond`.  The requests that end earlier are covered by
`of_prepare_error`: a text of the program with the status of an error, not marked as compressed.

`respond_cases` collects what all exits of `respond` have in common, so that a property of every
answer needs no walk through the branches.

## Hypotheses

None.  Every outcome of every operation outside the program is a field of `Fetch` (`Server.S3Util`)
or of `Serve`, and the results are about all of them.

## Where it is used

Every theorem about an answer starts from `ServedFrom`: `Server.Head`, `Server.Serving`,
`Server.Conditional` and `Server.Encoding`.  `Server.Target` is about the targets that are refused,
`Server.Frame` about what an answer depends on, and `Server.Site` about answers in a run.
-/

namespace S3Proxy

/-! ### Content types -/

namespace Impl

/-- The part of the path from its last dot, if it has one. -/
def extension (path : String) : List Char :=
  if '.' ∈ path.toList then '.' :: (path.toList.reverse.takeWhile (· ≠ '.')).reverse else []

/-- Comparison without regard to the case of letters. -/
def iequals (a b : List Char) : Bool := a.map Char.toLower == b.map Char.toLower

/-- The extensions `mime_type` tests, in its order. -/
def mimeTypes : List (String × String) := [
  (".htm", "text/html"),
  (".html", "text/html"),
  (".php", "text/html"),
  (".css", "text/css"),
  (".txt", "text/plain"),
  (".js", "application/javascript"),
  (".json", "application/json"),
  (".yml", "application/yaml"),
  (".yaml", "application/yaml"),
  (".xml", "application/xml"),
  (".swf", "application/x-shockwave-flash"),
  (".flv", "video/x-flv"),
  (".png", "image/png"),
  (".jpe", "image/jpeg"),
  (".jpeg", "image/jpeg"),
  (".jpg", "image/jpeg"),
  (".gif", "image/gif"),
  (".bmp", "image/bmp"),
  (".ico", "image/vnd.microsoft.icon"),
  (".tiff", "image/tiff"),
  (".tif", "image/tiff"),
  (".svg", "image/svg+xml"),
  (".svgz", "image/svg+xml"),
  (".docx", "application/vnd.openxmlformats-officedocument.wordprocessingml.document"),
  (".xlsx", "application/vnd.openxmlformats-officedocument.spreadsheetml.sheet"),
  (".pptx", "application/vnd.openxmlformats-officedocument.presentationml.presentation"),
  (".kar", "audio/midi"),
  (".midi", "audio/midi"),
  (".mid", "audio/midi"),
  (".mp3", "audio/mpeg"),
  (".ogg", "audio/ogg"),
  (".m4a", "audio/x-m4a"),
  (".ra", "audio/x-realaudio"),
  (".3gp", "video/3gpp"),
  (".3gpp", "video/3gpp"),
  (".ts", "video/mp2t"),
  (".mp4", "video/mp4"),
  (".mpg", "video/mpeg"),
  (".mpeg", "video/mpeg"),
  (".mov", "video/quicktime"),
  ("webm", "video/webm"),
  ("flv", "video/x-flv"),
  ("m4v", "video/x-m4v"),
  ("mng", "video/x-mng"),
  ("asf", "video/x-ms-asf"),
  ("asx", "video/x-ms-asf"),
  ("wmv", "video/x-ms-wmv"),
  ("avi", "video/x-msvideo")]

/-- `impl::mime_type`. -/
def mimeType (path : String) : String :=
  match mimeTypes.find? fun e => iequals (extension path) e.1.toList with
  | some e => e.2
  | none => "application/text"

/-- The extensions `should_compress` tests. -/
def compressible : List String :=
  [".htm", ".html", ".css", ".xss", ".txt", ".js", ".json", ".xml", ".docx", ".xlsx", ".pptx"]

/-- `impl::should_compress`. -/
def shouldCompress (path : String) : Bool :=
  compressible.any fun e => iequals (extension path) e.toList

/-- `impl::path_cat`, with the separator of POSIX. -/
def pathCat (base path : String) : String :=
  if base = "" then path
  else if base.toList.getLast? = some '/' then String.ofList base.toList.dropLast ++ path
  else base ++ path

end Impl

/-- What the environment decides while `get` serves a cached object. -/
structure Serve where
  /-- The test for the compressed file reports an error. -/
  existsFails : Bool := false
  compressTime : TimePoint
  compress : CompressOutcome := .completes
  /-- `file_size` reports an error although the file is there. -/
  sizeFails : Bool := false
  /-- The second test for the file reports an error, or the file is gone by then. -/
  recheckFails : Bool := false
  openFails : Bool := false
  /-- Reading raises an exception. -/
  readThrows : Bool := false
  deriving DecidableEq

namespace Resource

/-! ### The target of a request -/

/-- The path of the request without its query. -/
def targetPath (target : String) : String :=
  String.ofList ((if target = "" then "/" else target).toList.takeWhile (· ≠ '?'))

/-- The paths answered with 400 because of their shape. -/
def illegalPath (path : String) : Bool :=
  path = "" || path.toList.head? ≠ some '/' || decide ("..".toList <:+: path.toList)

/-- The paths answered with 400 because of a query string. -/
def rejectedQuery (conf : Configuration) (path : String) : Bool :=
  conf.rejectQueryStrings && path.toList.contains '?'

/-- The key of the object a path stands for. -/
def objectKey (path : String) : String :=
  if path.toList.getLast? = some '/' then path ++ "index.html" else path

/-! ### Responses -/

/-- A response with a fixed text as its body. -/
def fail (methods origins : List String) (status : ℕ) (text : String) (resp : Response) :
    Response :=
  Response.set methods origins
    { resp with status, body := bytesOf text, contentLength := (bytesOf text).length }

/-- The headers added to a 200 response behind those of `Response.set`. -/
def additionalHeaders (p : Platform) (downloaded : S3Object) (resp : Response) : Response :=
  let headers := (((resp.headers.emplace "content-type" resp.mimeType).emplace "etag"
    downloaded.etag).emplace "expires" (downloaded.expirationTime p)).emplace "last-modified"
    (downloaded.lastModifiedTime p)
  { resp with headers :=
      if downloaded.cacheControl = "" then headers
      else headers.emplace "cache-control" downloaded.cacheControl }

/-- `read` of `size` bytes into a body of that size. -/
def readInto (size : ℕ) (content : Bytes) : Bytes :=
  content.take size ++ List.replicate (size - content.length) 0

def getMethods : List String := ["GET", "HEAD", "OPTIONS"]

def clearMethods : List String := ["DELETE", "OPTIONS"]

/-! ### Serving a cached object -/

variable (p : Platform) (conf : Configuration) (origins : List String)

/-- The file that is looked at for the content type and for compressibility. -/
def resourcePath (path : String) : String :=
  let full := Impl.pathCat conf.cacheDir path
  if path.toList.getLast? = some '/' then full ++ "index.html" else full

/-- Whether the compressed file is served. -/
def wantsGzip (req : Request) (path : String) : Bool :=
  req.shouldCompress && Impl.shouldCompress (resourcePath conf path)

/-- The file that is served. -/
def servedFile (compressed : Bool) (downloaded : S3Object) : String :=
  if compressed then Util.compressedFileName downloaded.fileName else downloaded.fileName

/-- The compression on demand. -/
def ensureCompressed (env : Serve) (compressed : Bool) (downloaded : S3Object) (files : Files) :
    Except Files Files :=
  let fn := servedFile compressed downloaded
  if compressed && (env.existsFails || (files fn).isNone) then
    if env.existsFails then .ok files
    else Util.compress p downloaded.fileName fn env.compressTime env.compress files
  else .ok files

/-- `file_size`. -/
def fileSize (env : Serve) (fn : String) (files : Files) : Option ℕ :=
  if env.sizeFails then none else (files fn).map List.length

/-- The file, opened for reading. -/
def openFile (env : Serve) (fn : String) (files : Files) : Option Bytes :=
  if env.openFails then none else files fn

/-- The answer once the size of the served file is known. -/
def respond (env : Serve) (req : Request) (downloaded : S3Object) (fn : String) (files : Files)
    (resp : Response) : Response :=
  if req.method = "HEAD" then
    let resp := { resp with
      contentLength := downloaded.contentLength
      headers := resp.headers.emplace "content-length" (toString downloaded.contentLength)
      status := 200 }
    additionalHeaders p downloaded (resp.set getMethods origins)
  else if downloaded.etag = req.ifNoneMatch then
    Response.set getMethods origins { resp with contentLength := 0, status := 304 }
  else if downloaded.lastModifiedTime p = req.ifModifiedSince then
    Response.set getMethods origins { resp with contentLength := 0, status := 304 }
  else
    match openFile env fn files with
    | none => fail getMethods origins 404 "Not found" resp
    | some content =>
        if env.readThrows then fail getMethods origins 500 "Unknown error" resp
        else
          additionalHeaders p downloaded (Response.set getMethods origins
            { resp with body := readInto resp.contentLength content, status := 200 })

/-- What `respond` starts from. -/
structure Prepared where
  downloaded : S3Object
  fn : String
  world : World
  resp : Response

/-- The part of `get` from the cached object to the size of the served file; an early answer is an
error. -/
def chooseFile (env : Serve) (req : Request) (downloaded : S3Object) (resp : Response) (w : World) :
    Except (Response × World) Prepared :=
  let path := resourcePath conf resp.path
  let resp := { resp with
    mimeType :=
      if downloaded.contentType = "" then Impl.mimeType path else downloaded.contentType }
  let compressed := wantsGzip conf req resp.path
  let fn := servedFile compressed downloaded
  match ensureCompressed p env compressed downloaded w.files with
  | .error files => .error (fail getMethods origins 500 "Unknown error" resp, { w with files })
  | .ok files =>
      match fileSize env fn files with
      | none => .error (fail getMethods origins 500 "I/O error" resp, { w with files })
      | some size =>
          if env.recheckFails then
            .error (fail getMethods origins 404 "Not found" resp, { w with files })
          else
            .ok ⟨downloaded, fn, { w with files }, { resp with contentLength := size, compressed }⟩

/-- The part of `get` that has a cached object in hand. -/
def serve (env : Serve) (req : Request) (downloaded : S3Object) (resp : Response) (w : World) :
    Response × World :=
  match chooseFile p conf origins env req downloaded resp w with
  | .error answer => answer
  | .ok q => (respond p origins env req q.downloaded q.fn q.world.files q.resp, q.world)

/-- `server::get`, with what becomes of an answer that it gives before it has a cached object, and
of the object that it has. -/
def getWith {α : Type} (answer : Response × World → α) (found : S3Object → Response → World → α)
    (fetch : Fetch) (req : Request) (w : World) : α :=
  let resp := { Response.ofHeaders req.header with path := targetPath req.path }
  if illegalPath resp.path then
    answer (fail getMethods origins 400 "Illegal request-target" resp, w)
  else if rejectedQuery conf resp.path then
    answer (fail getMethods origins 400 "Illegal request-target" resp, w)
  else
    let resp := { resp with path := objectKey resp.path }
    match S3Util.get p conf fetch resp.path w with
    | (none, w) => answer (fail getMethods origins 404 "Not found" resp, w)
    | (some downloaded, w) =>
        if downloaded.fileName = "" then answer (fail getMethods origins 404 "Not found" resp, w)
        else found downloaded resp w

/-- `server::get`. -/
def get (fetch : Fetch) (env : Serve) (req : Request) (w : World) : Response × World :=
  getWith p conf origins id (serve p conf origins env req) fetch req w

/-- `get` up to the point where it looks at the method; an early answer is an error. -/
def prepare (fetch : Fetch) (env : Serve) (req : Request) (w : World) :
    Except (Response × World) Prepared :=
  getWith p conf origins .error (chooseFile p conf origins env req) fetch req w

/-- `server::clear`. -/
def clear (req : Request) (w : World) : Response × World :=
  let resp := { Response.ofHeaders req.header with path := targetPath req.path }
  let bearer := req.authorise
  if bearer = "" then (fail clearMethods origins 403 "Forbidden" resp, w)
  else if !"Bearer ".toList.isPrefixOf bearer.toList then
    (fail clearMethods origins 400 "Invalid Authorization header" resp, w)
  else
    match S3Util.clear conf (String.ofList (bearer.toList.drop 7)) w with
    | (true, w) => (Response.set clearMethods origins { resp with status := 304 }, w)
    | (false, w) => (fail clearMethods origins 403 "Forbidden" resp, w)

/-! ### The part before the method is looked at -/

variable {p conf origins} {fetch : Fetch} {env : Serve} {req : Request} {w : World}

/-- `get` is its common part followed by `respond`. -/
lemma get_eq_prepare : get p conf origins fetch env req w =
    match prepare p conf origins fetch env req w with
    | .error answer => answer
    | .ok q => (respond p origins env req q.downloaded q.fn q.world.files q.resp, q.world) := by
  unfold get prepare getWith
  dsimp only
  split
  · rfl
  split
  · rfl
  split
  · rfl
  split
  · rfl
  · rfl

/-- The common part does not look at the method. -/
lemma prepare_method (m : String) :
    prepare p conf origins fetch env { req with method := m } w =
      prepare p conf origins fetch env req w := rfl

/-- The request is served from the object `o`, from a file of the given content among `files`:
its path is legal, the lookup gives `o`, the compression on demand leaves `files`, and the file
to be served is there and shows its size. -/
structure ServedFrom (p : Platform) (conf : Configuration) (fetch : Fetch) (env : Serve)
    (req : Request) (w : World) (o : S3Object) (files : Files) (content : Bytes) : Prop where
  legal : illegalPath (targetPath req.path) = false
  accepted : rejectedQuery conf (targetPath req.path) = false
  found : (S3Util.get p conf fetch (objectKey (targetPath req.path)) w).1 = some o
  hasFile : o.fileName ≠ ""
  ensured : ensureCompressed p env (wantsGzip conf req (objectKey (targetPath req.path))) o
    (S3Util.get p conf fetch (objectKey (targetPath req.path)) w).2.files = .ok files
  sized : env.sizeFails = false
  rechecked : env.recheckFails = false
  served : files (servedFile (wantsGzip conf req (objectKey (targetPath req.path))) o) =
    some content

/-- The object, the files and the content are determined by the request. -/
lemma ServedFrom.unique {o o' : S3Object} {files files' : Files} {content content' : Bytes}
    (h : ServedFrom p conf fetch env req w o files content)
    (h' : ServedFrom p conf fetch env req w o' files' content') :
    o = o' ∧ files = files' ∧ content = content' := by
  have heq : o = o' := Option.some.inj (h.found.symm.trans h'.found)
  subst heq
  have heq : files = files' := Except.ok.inj (h.ensured.symm.trans h'.ensured)
  subst heq
  exact ⟨rfl, rfl, Option.some.inj (h.served.symm.trans h'.served)⟩

/-- The fields of the response when `respond` takes over. -/
def preparedResponse (conf : Configuration) (req : Request) (o : S3Object) (size : ℕ) : Response :=
  let path := objectKey (targetPath req.path)
  { Response.ofHeaders req.header with
    path
    mimeType :=
      if o.contentType = "" then Impl.mimeType (resourcePath conf path) else o.contentType
    contentLength := size
    compressed := wantsGzip conf req path }

lemma body_preparedResponse {o : S3Object} {size : ℕ} :
    (preparedResponse conf req o size).body = [] := by
  rw [preparedResponse, Response.body_ofHeaders]

/-- The common part hands over exactly the requests that are served from a file. -/
lemma prepare_eq_ok_iff {q : Prepared} : prepare p conf origins fetch env req w = .ok q ↔
    ∃ o files content, ServedFrom p conf fetch env req w o files content ∧
      q = ⟨o, servedFile (wantsGzip conf req (objectKey (targetPath req.path))) o,
        { (S3Util.get p conf fetch (objectKey (targetPath req.path)) w).2 with files },
        preparedResponse conf req o content.length⟩ := by
  constructor
  · intro h
    unfold prepare getWith at h
    dsimp only at h
    by_cases hpath : illegalPath (targetPath req.path) = true
    · rw [if_pos hpath] at h
      cases h
    rw [if_neg hpath] at h
    by_cases hquery : rejectedQuery conf (targetPath req.path) = true
    · rw [if_pos hquery] at h
      cases h
    rw [if_neg hquery] at h
    rw [Bool.not_eq_true] at hpath hquery
    split at h
    · cases h
    rename_i o w' hget
    by_cases hfile : o.fileName = ""
    · rw [if_pos hfile] at h
      cases h
    rw [if_neg hfile] at h
    unfold chooseFile at h
    dsimp only at h
    split at h
    · cases h
    rename_i files hens
    split at h
    · cases h
    rename_i size hsize
    by_cases hre : env.recheckFails = true
    · rw [if_pos hre] at h
      cases h
    rw [if_neg hre] at h
    rw [Bool.not_eq_true] at hre
    unfold fileSize at hsize
    split_ifs at hsize with hsz
    rw [Bool.not_eq_true] at hsz
    obtain ⟨content, hcontent, rfl⟩ := Option.map_eq_some_iff.mp hsize
    have heq := Except.ok.inj h
    subst heq
    refine ⟨o, files, content, ⟨hpath, hquery, ?_, hfile, ?_, hsz, hre, hcontent⟩, ?_⟩
    · rw [hget]
    · rw [hget]
      exact hens
    · rw [hget]
      rfl
  · rintro ⟨o, files, content, hs, rfl⟩
    unfold prepare getWith
    dsimp only
    rw [if_neg (by simp [hs.legal]), if_neg (by simp [hs.accepted])]
    have hget : S3Util.get p conf fetch (objectKey (targetPath req.path)) w =
        (some o, (S3Util.get p conf fetch (objectKey (targetPath req.path)) w).2) :=
      Prod.ext hs.found rfl
    split
    · rename_i h
      rw [hget] at h
      cases h
    rename_i o' w' h
    obtain ⟨ho, rfl⟩ := Prod.mk.inj (hget.symm.trans h)
    have heq := Option.some.inj ho
    subst heq
    rw [if_neg hs.hasFile, chooseFile]
    dsimp only
    rw [hs.ensured]
    dsimp only
    rw [fileSize, hs.sized, hs.served]
    simp [hs.rechecked, preparedResponse]

/-- A request that is served from a file is answered by `respond`. -/
lemma get_eq_respond {o : S3Object} {files : Files} {content : Bytes}
    (hs : ServedFrom p conf fetch env req w o files content) :
    get p conf origins fetch env req w =
      (respond p origins env req o
          (servedFile (wantsGzip conf req (objectKey (targetPath req.path))) o) files
          (preparedResponse conf req o content.length),
        { (S3Util.get p conf fetch (objectKey (targetPath req.path)) w).2 with files }) := by
  rw [get_eq_prepare, prepare_eq_ok_iff.mpr ⟨o, files, content, hs, rfl⟩]

variable (p origins env req) in
/-- **The exits of `respond`** have in common that they fill in the headers of a response that is
marked as compressed like the one they start from. -/
lemma respond_cases (o : S3Object) (fn : String) (files : Files) (resp : Response) :
    ∃ r : Response,
      (respond p origins env req o fn files resp = r.set getMethods origins ∨
        respond p origins env req o fn files resp =
          additionalHeaders p o (r.set getMethods origins)) ∧
      r.compressed = resp.compressed ∧ r.status ∈ [200, 304, 404, 500] := by
  have hok : 200 ∈ [200, 304, 404, 500] := by decide
  have hnotModified : 304 ∈ [200, 304, 404, 500] := by decide
  have hnotFound : 404 ∈ [200, 304, 404, 500] := by decide
  have herror : 500 ∈ [200, 304, 404, 500] := by decide
  unfold respond
  dsimp only
  split
  · exact ⟨_, .inr rfl, rfl, hok⟩
  split
  · exact ⟨_, .inl rfl, rfl, hnotModified⟩
  split
  · exact ⟨_, .inl rfl, rfl, hnotModified⟩
  split
  · exact ⟨_, .inl rfl, rfl, hnotFound⟩
  split
  · exact ⟨_, .inl rfl, rfl, herror⟩
  · exact ⟨_, .inr rfl, rfl, hok⟩

lemma status_respond_mem {o : S3Object} {fn : String} {files : Files} {resp : Response} :
    (respond p origins env req o fn files resp).status ∈ [200, 304, 404, 500] := by
  obtain ⟨r, heq | heq, -, hstatus⟩ := respond_cases p origins env req o fn files resp
  · rw [heq]
    exact hstatus
  · rw [heq]
    exact hstatus

/-- The texts that stand for a file in a body. -/
def texts : List String :=
  ["", "Illegal request-target", "Not found", "I/O error", "Unknown error"]

/-- **Every early answer** is a text with the status of an error, and not marked as compressed. -/
lemma of_prepare_error {answer : Response × World}
    (h : prepare p conf origins fetch env req w = .error answer) :
    ∃ status text resp w', answer = (fail getMethods origins status text resp, w') ∧
      text ∈ texts ∧ status ∈ [400, 404, 500] ∧ resp.compressed = false := by
  have hfail : ∀ {status : ℕ} {text : String} {resp : Response} {w' : World},
      (.error (fail getMethods origins status text resp, w') :
        Except (Response × World) Prepared) = .error answer →
      text ∈ texts → status ∈ [400, 404, 500] → resp.compressed = false →
      ∃ status text resp w', answer = (fail getMethods origins status text resp, w') ∧
        text ∈ texts ∧ status ∈ [400, 404, 500] ∧ resp.compressed = false := by
    intro status text resp w' heq htext hstatus hcompressed
    exact ⟨status, text, resp, w', (Except.error.inj heq).symm, htext, hstatus, hcompressed⟩
  have hplain := Response.compressed_ofHeaders req.header
  unfold prepare getWith at h
  dsimp only at h
  split at h
  · exact hfail h (by decide) (by decide) hplain
  split at h
  · exact hfail h (by decide) (by decide) hplain
  split at h
  · exact hfail h (by decide) (by decide) hplain
  split at h
  · exact hfail h (by decide) (by decide) hplain
  unfold chooseFile at h
  dsimp only at h
  split at h
  · exact hfail h (by decide) (by decide) hplain
  split at h
  · exact hfail h (by decide) (by decide) hplain
  split at h
  · exact hfail h (by decide) (by decide) hplain
  · cases h

lemma status_of_prepare_error {answer : Response × World}
    (h : prepare p conf origins fetch env req w = .error answer) : answer.1.status ≠ 200 := by
  obtain ⟨status, text, resp, w', rfl, -, hstatus, -⟩ := of_prepare_error h
  rintro rfl
  exact absurd hstatus (by decide)

example : Impl.mimeType "/tmp/site/Index.HTML" = "text/html" := by decide

end Resource

end S3Proxy
