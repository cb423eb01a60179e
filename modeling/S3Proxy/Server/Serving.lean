import S3Proxy.Server.Resource

/-!
# What a request is served

The answer with status 200 to a `GET` request, and what serving does to the files.

## The answer

`get_of_status` is the main result: a request other than HEAD that is answered with 200 is served
from a file, and the answer is the whole of the file under the headers of the object.  The lemmas
before it are about those headers: `additionalHeaders` puts its values behind those of
`Response.set`, and a header that one of the two does not know has the values of the other
(`equalRange_additionalHeaders`).  `respond_of_read` and `of_status_respond` are the branch of
`respond` that leads to 200, in both directions.

## The files

`serve_world` says that serving changes nothing but what the compression on demand does, and
`withGzip` is what that does: it writes at most the `.gz` file of the object (`withGzip_of_ne`), and
what is in there was there before or is the gzip of the plain file (`withGzip_gz`).
`get_world_cases` is the world after a request, and `clear_world_cases` that after a request to
clear.

## Hypotheses

The second half is about requests for which no file operation fails, and for which the temporary of
the compression has a fresh name.  The first half has no such hypothesis.

## Where it is used

`Server.Site` has both halves: the answer for the fidelity of what is served, the files for the
invariant.  `Server.Head` and `Server.Conditional` use the branch of `respond`, and
`Server.Encoding` the content encoding.
-/

namespace S3Proxy

namespace Resource

variable {p : Platform} {conf : Configuration} {origins : List String} {fetch : Fetch}
  {env : Serve} {req : Request} {w : World} {o : S3Object} {fn : String} {files : Files}
  {resp : Response}

/-! ### Headers -/

/-- The headers added to a 200 response, in order. -/
def addedHeaders (p : Platform) (o : S3Object) (mimeType : String) : HeaderMap :=
  [("content-type", mimeType), ("etag", o.etag), ("expires", o.expirationTime p),
    ("last-modified", o.lastModifiedTime p)] ++
    if o.cacheControl = "" then [] else [("cache-control", o.cacheControl)]

lemma headers_additionalHeaders :
    (additionalHeaders p o resp).headers = resp.headers ++ addedHeaders p o resp.mimeType := by
  unfold additionalHeaders addedHeaders
  dsimp only
  split_ifs <;> simp [Multimap.emplace]

@[simp] lemma body_additionalHeaders : (additionalHeaders p o resp).body = resp.body := rfl

/-- The added headers do not say a content length. -/
lemma equalRange_contentLength_additionalHeaders :
    (additionalHeaders p o resp).headers.equalRange "content-length" =
      resp.headers.equalRange "content-length" := by
  have hadded : Multimap.equalRange (addedHeaders p o resp.mimeType) "content-length" = [] := by
    unfold addedHeaders
    split_ifs <;> rfl
  rw [headers_additionalHeaders, Multimap.equalRange_append, hadded, List.append_nil]

/-- Reading a file into a body of its size gives its content. -/
lemma readInto_self (content : Bytes) : readInto content.length content = content := by
  simp [readInto]

/-- The values of a header that `Response.set` does not know come from the added ones. -/
lemma equalRange_additionalHeaders (methods : List String) {key : String}
    (hkey : (resp.set methods origins).headers.equalRange key = []) :
    (additionalHeaders p o (resp.set methods origins)).headers.equalRange key =
      Multimap.equalRange (addedHeaders p o resp.mimeType) key := by
  rw [headers_additionalHeaders, Multimap.equalRange_append, hkey, List.nil_append]
  rfl

/-- `Response.set` does not know the validators. -/
lemma equalRange_validator_set (methods : List String) {key : String}
    (hkey : key = "etag" ∨ key = "last-modified") :
    (resp.set methods origins).headers.equalRange key = [] := by
  unfold Response.set
  dsimp only
  rcases hkey with rfl | rfl
  · split_ifs <;> rfl
  · split_ifs <;> rfl

lemma equalRange_etag_additionalHeaders (methods : List String) :
    (additionalHeaders p o (resp.set methods origins)).headers.equalRange "etag" = [o.etag] := by
  rw [equalRange_additionalHeaders methods (equalRange_validator_set methods (.inl rfl)),
    addedHeaders]
  split_ifs <;> rfl

lemma equalRange_lastModified_additionalHeaders (methods : List String) :
    (additionalHeaders p o (resp.set methods origins)).headers.equalRange "last-modified" =
      [o.lastModifiedTime p] := by
  rw [equalRange_additionalHeaders methods (equalRange_validator_set methods (.inr rfl)),
    addedHeaders]
  split_ifs <;> rfl

/-- The answer says gzip exactly if the response is marked as compressed. -/
lemma equalRange_contentEncoding_additionalHeaders (methods : List String) :
    (additionalHeaders p o (resp.set methods origins)).headers.equalRange "content-encoding" =
      if resp.compressed then ["gzip"] else [] := by
  have hadded : Multimap.equalRange (addedHeaders p o resp.mimeType) "content-encoding" = [] := by
    unfold addedHeaders
    split_ifs <;> rfl
  have hmime : (resp.set methods origins).mimeType = resp.mimeType := rfl
  rw [headers_additionalHeaders, Multimap.equalRange_append, hmime, hadded, List.append_nil,
    Response.equalRange_contentEncoding_set]

/-! ### Answers to GET -/

/-- The answer of a request that is neither `HEAD` nor answered with 304, if the file can be
read. -/
lemma respond_of_read {content : Bytes} (hmethod : req.method ≠ "HEAD")
    (hetag : o.etag ≠ req.ifNoneMatch) (hmodified : o.lastModifiedTime p ≠ req.ifModifiedSince)
    (hopen : openFile env fn files = some content) (hread : env.readThrows = false) :
    respond p origins env req o fn files resp =
      additionalHeaders p o (Response.set getMethods origins
        { resp with body := readInto resp.contentLength content, status := 200 }) := by
  rw [respond, if_neg hmethod, if_neg hetag, if_neg hmodified, hopen]
  dsimp only
  rw [hread, if_neg Bool.false_ne_true]

/-- Only a file that can be read leads to status 200. -/
lemma of_status_respond (hmethod : req.method ≠ "HEAD")
    (h : (respond p origins env req o fn files resp).status = 200) :
    o.etag ≠ req.ifNoneMatch ∧ env.openFails = false ∧ env.readThrows = false ∧
      o.lastModifiedTime p ≠ req.ifModifiedSince := by
  rw [respond, if_neg hmethod] at h
  by_cases hetag : o.etag = req.ifNoneMatch
  · rw [if_pos hetag] at h
    exact absurd h (show ¬ 304 = 200 by decide)
  rw [if_neg hetag] at h
  by_cases hmodified : o.lastModifiedTime p = req.ifModifiedSince
  · rw [if_pos hmodified] at h
    exact absurd h (show ¬ 304 = 200 by decide)
  rw [if_neg hmodified] at h
  cases hopen : openFile env fn files with
  | none =>
      rw [hopen] at h
      exact absurd h (show ¬ 404 = 200 by decide)
  | some content =>
      rw [hopen] at h
      dsimp only at h
      by_cases hread : env.readThrows = true
      · rw [if_pos hread] at h
        exact absurd h (show ¬ 500 = 200 by decide)
      · refine ⟨hetag, ?_, by simpa using hread, hmodified⟩
        unfold openFile at hopen
        split_ifs at hopen with hfails
        simpa using hfails

variable (p conf origins fetch env req w) in
/-- **Answers to GET.**  A request other than `HEAD` that is answered with 200 is served from a
file, and the answer carries the whole of it under the headers of the object. -/
lemma get_of_status (hmethod : req.method ≠ "HEAD")
    (h : (get p conf origins fetch env req w).1.status = 200) :
    ∃ o files content, ServedFrom p conf fetch env req w o files content ∧
      (get p conf origins fetch env req w).1 =
        additionalHeaders p o (Response.set getMethods origins
          { preparedResponse conf req o content.length with body := content, status := 200 }) := by
  rw [get_eq_prepare] at h ⊢
  cases hprep : prepare p conf origins fetch env req w with
  | error answer =>
      rw [hprep] at h
      exact absurd h (status_of_prepare_error hprep)
  | ok q =>
      obtain ⟨o, files, content, hs, rfl⟩ := prepare_eq_ok_iff.mp hprep
      rw [hprep] at h
      dsimp only at h ⊢
      obtain ⟨hetag, hopen, hread, hmodified⟩ := of_status_respond hmethod h
      have hfile : openFile env
          (servedFile (wantsGzip conf req (objectKey (targetPath req.path))) o) files =
            some content := by
        rw [openFile, hopen, if_neg Bool.false_ne_true, hs.served]
      have hlen : (preparedResponse conf req o content.length).contentLength = content.length := rfl
      refine ⟨o, files, content, hs, ?_⟩
      rw [respond_of_read hmethod hetag hmodified hfile hread, hlen, readInto_self]

/-! ### What serving does to the world -/

/-- The files that the compression on demand leaves, if nothing fails. -/
def withGzip (p : Platform) (compressed : Bool) (o : S3Object) (files : Files) : Files :=
  let gz := Util.compressedFileName o.fileName
  if compressed && (files gz).isNone then
    files.write gz (p.gzip.compress ((files o.fileName).getD []))
  else files

lemma ensureCompressed_eq_ok (hexists : env.existsFails = false)
    (hcompress : env.compress = .completes)
    (hfresh : files (Util.temporaryName o.fileName env.compressTime) = none) (compressed : Bool) :
    ensureCompressed p env compressed o files = .ok (withGzip p compressed o files) := by
  cases compressed with
  | false => rfl
  | true =>
      unfold ensureCompressed withGzip servedFile
      rw [hexists, hcompress]
      simp only [if_true, Bool.true_and, Bool.false_or, Bool.false_eq_true, if_false,
        Util.compress_of_fresh hfresh]
      split_ifs <;> rfl

/-- The compression on demand writes the `.gz` file of the object and no other file. -/
lemma withGzip_of_ne {compressed : Bool} {n : String}
    (h : n ≠ Util.compressedFileName o.fileName) : withGzip p compressed o files n = files n := by
  unfold withGzip
  split_ifs
  · exact FileStore.write_of_ne h
  · rfl

/-- What the `.gz` file holds after the compression on demand was there before, or is the gzip of
the plain file. -/
lemma withGzip_gz {compressed : Bool} {g : Bytes}
    (h : withGzip p compressed o files (Util.compressedFileName o.fileName) = some g) :
    files (Util.compressedFileName o.fileName) = some g ∨
      g = p.gzip.compress ((files o.fileName).getD []) := by
  unfold withGzip at h
  split_ifs at h
  · rw [FileStore.write_self, Option.some.injEq] at h
    exact .inr h.symm
  · exact .inl h

/-- Serving changes nothing but what the compression on demand does. -/
lemma serve_world {files : Files}
    (h : ensureCompressed p env (wantsGzip conf req resp.path) o w.files = .ok files) :
    (serve p conf origins env req o resp w).2 = { w with files } := by
  unfold serve chooseFile
  dsimp only
  rw [h]
  dsimp only
  cases fileSize env (servedFile (wantsGzip conf req resp.path) o) files with
  | none => rfl
  | some size => cases env.recheckFails <;> rfl

/-- A request with an illegal target is answered at once. -/
lemma get_of_illegal (h : illegalPath (targetPath req.path) ∨
    rejectedQuery conf (targetPath req.path)) :
    (get p conf origins fetch env req w).2 = w := by
  unfold get getWith
  dsimp only [id_eq]
  by_cases hpath : illegalPath (targetPath req.path) = true
  · rw [if_pos hpath]
  · rw [if_neg hpath, if_pos (h.resolve_left hpath)]

variable (p conf origins fetch env req w) in
/-- The world after a request, if nothing fails: untouched, as the lookup left it, or with the
`.gz` file of the object in addition. -/
lemma get_world_cases (hexists : env.existsFails = false) (hcompress : env.compress = .completes)
    (hfresh : (S3Util.get p conf fetch (objectKey (targetPath req.path)) w).2.files
      (Util.temporaryName (S3Util.fileName p conf (objectKey (targetPath req.path)))
        env.compressTime) = none)
    (hfiled : ∀ o, (S3Util.get p conf fetch (objectKey (targetPath req.path)) w).1 = some o →
      o.fileName = "" ∨ o.fileName = S3Util.fileName p conf (objectKey (targetPath req.path))) :
    (get p conf origins fetch env req w).2 = w ∨
      (get p conf origins fetch env req w).2 =
        (S3Util.get p conf fetch (objectKey (targetPath req.path)) w).2 ∨
      ∃ o, (S3Util.get p conf fetch (objectKey (targetPath req.path)) w).1 = some o ∧
        o.fileName = S3Util.fileName p conf (objectKey (targetPath req.path)) ∧
        (get p conf origins fetch env req w).2 =
          { (S3Util.get p conf fetch (objectKey (targetPath req.path)) w).2 with
            files := withGzip p (wantsGzip conf req (objectKey (targetPath req.path))) o
              (S3Util.get p conf fetch (objectKey (targetPath req.path)) w).2.files } := by
  unfold get getWith
  dsimp only [id_eq]
  split
  · exact .inl rfl
  split
  · exact .inl rfl
  cases hget : S3Util.get p conf fetch (objectKey (targetPath req.path)) w with
  | mk r w₁ =>
      rw [hget] at hfresh hfiled
      cases r with
      | none => exact .inr (.inl rfl)
      | some o =>
          dsimp only at hfresh hfiled ⊢
          by_cases hfile : o.fileName = ""
          · rw [if_pos hfile]
            exact .inr (.inl rfl)
          · rw [if_neg hfile]
            have hname := (hfiled o rfl).resolve_left hfile
            rw [← hname] at hfresh
            refine .inr (.inr ⟨o, rfl, hname, serve_world ?_⟩)
            dsimp only
            exact ensureCompressed_eq_ok hexists hcompress hfresh _

variable (conf origins req w) in
/-- A request to clear the cache leaves the world as it is, or without any entry. -/
lemma clear_world_cases : (clear conf origins req w).2 = w ∨
    (clear conf origins req w).2 = { w with cache := w.cache.clear } := by
  unfold clear S3Util.clear
  dsimp only
  split
  · exact .inl rfl
  split
  · exact .inl rfl
  by_cases hkey : conf.authKey = String.ofList (req.authorise.toList.drop 7)
  · rw [if_pos hkey]
    exact .inr rfl
  · rw [if_neg hkey]
    exact .inl rfl

end Resource

end S3Proxy
