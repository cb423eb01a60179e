import S3Proxy.Server.Serving

/-!
# HEAD and GET

`Mirrors` compares the answers to a `GET` and to a `HEAD` request for the same target, from the same
world.  Up to the point where the method is looked at the two requests share their path
(`prepare_method`); from there on `respond_head` and `respond_get` describe the two branches.

The `HEAD` branch puts the length of the object into the header map, and `Response.set`, called
right after, replaces that map: what is announced is the length of the empty body.

## Main result

`mirrors_iff`: the answer to HEAD mirrors the one to an unconditional GET exactly under
`HeadCondition`.  If the request is served from a file, then the file is empty, its object has an
etag and it can be opened and read.  A request that is not served from a file is answered alike in
both cases, and satisfies the condition for want of a file.

`mirrors_respond_iff` is the same for the branches behind the common path.  The length that HEAD
announces is that of an empty body (`equalRange_contentLength_set` of `Server.Response`), so the two
agree for an empty file only; and GET with an object without an etag is taken for a conditional
request.

## Hypotheses

The request is unconditional, in the sense of `Server.Handlers`.  Configuration, bucket, file
operations and the state of the cache are arbitrary.

## What it rests on

`ServedFrom` and its uniqueness in `Server.Resource`, and `respond_of_read` and `of_status_respond`
of `Server.Serving`.
-/

namespace S3Proxy

namespace Resource

/-- The answer to `HEAD` mirrors the one to `GET`: the same status and, if that is 200, the same
headers and a content length that is the number of bytes `GET` sends. -/
structure Mirrors (getAnswer headAnswer : Response) : Prop where
  status : headAnswer.status = getAnswer.status
  headers : getAnswer.status = 200 → headAnswer.headers.Perm getAnswer.headers
  contentLength : getAnswer.status = 200 →
    headAnswer.headers.equalRange "content-length" = [toString getAnswer.body.length]

instance (getAnswer headAnswer : Response) : Decidable (Mirrors getAnswer headAnswer) :=
  decidable_of_iff (headAnswer.status = getAnswer.status ∧
      (getAnswer.status = 200 → headAnswer.headers.Perm getAnswer.headers) ∧
      (getAnswer.status = 200 →
        headAnswer.headers.equalRange "content-length" = [toString getAnswer.body.length]))
    ⟨fun ⟨h₁, h₂, h₃⟩ => ⟨h₁, h₂, h₃⟩, fun ⟨h₁, h₂, h₃⟩ => ⟨h₁, h₂, h₃⟩⟩

/-- An answer that is not 200 is mirrored by itself. -/
lemma Mirrors.refl_of_ne {r : Response} (h : r.status ≠ 200) : Mirrors r r :=
  ⟨rfl, fun h' => absurd h' h, fun h' => absurd h' h⟩

variable {p : Platform} {conf : Configuration} {origins : List String} {fetch : Fetch}
  {env : Serve} {req : Request} {w : World} {o : S3Object} {fn : String} {files : Files}
  {resp : Response}

/-! ### The two branches -/

/-- What `HEAD` answers once the file to be served is known. -/
lemma respond_head : (respond p origins env { req with method := "HEAD" } o fn files resp) =
    additionalHeaders p o (Response.set getMethods origins
      { resp with
        contentLength := o.contentLength
        headers := resp.headers.emplace "content-length" (toString o.contentLength)
        status := 200 }) := by
  rw [respond, if_pos rfl]

/-- What an unconditional `GET` answers, if the object has an etag and the file can be read. -/
lemma respond_get {content : Bytes} (hreq : req.Unconditional) (hetag : o.etag ≠ "")
    (hopen : env.openFails = false) (hread : env.readThrows = false)
    (hfile : files fn = some content) :
    respond p origins env { req with method := "GET" } o fn files resp =
      additionalHeaders p o (Response.set getMethods origins
        { resp with body := readInto resp.contentLength content, status := 200 }) := by
  have hreq' : Request.Unconditional { req with method := "GET" } := hreq
  refine respond_of_read (show ¬ "GET" = "HEAD" by decide) ?_ ?_ ?_ hread
  · rwa [hreq'.ifNoneMatch]
  · rw [hreq'.ifModifiedSince]
    exact o.lastModifiedTime_ne_empty p
  · rw [openFile, hopen, if_neg Bool.false_ne_true, hfile]

/-! ### The comparison -/

/-- The two branches agree exactly if the object has an etag and the file is empty and can be
read. -/
lemma mirrors_respond_iff {content : Bytes} (hreq : req.Unconditional) (hbody : resp.body = [])
    (hlen : resp.contentLength = content.length) (hfile : files fn = some content) :
    Mirrors (respond p origins env { req with method := "GET" } o fn files resp)
        (respond p origins env { req with method := "HEAD" } o fn files resp) ↔
      content = [] ∧ o.etag ≠ "" ∧ env.openFails = false ∧ env.readThrows = false := by
  rw [respond_head]
  constructor
  · intro hm
    obtain ⟨hetag, hopen, hread, -⟩ := of_status_respond
      (show ¬ "GET" = "HEAD" by decide) hm.status.symm
    have hreq' : Request.Unconditional { req with method := "GET" } := hreq
    rw [hreq'.ifNoneMatch] at hetag
    refine ⟨?_, hetag, hopen, hread⟩
    have hsize := hm.contentLength hm.status.symm
    rw [respond_get hreq hetag hopen hread hfile, equalRange_contentLength_additionalHeaders,
      Response.equalRange_contentLength_set, body_additionalHeaders, Response.set_body, hlen,
      readInto_self, hbody, List.singleton_inj] at hsize
    exact List.length_eq_zero_iff.mp (Decimal.toString_nat_injective hsize).symm
  · rintro ⟨rfl, hetag, hopen, hread⟩
    rw [respond_get hreq hetag hopen hread hfile, hlen, readInto_self]
    refine ⟨rfl, fun _ => ?_, fun _ => ?_⟩
    · have hset := Response.set_headers_congr getMethods origins
        (r := { resp with
          contentLength := o.contentLength
          headers := resp.headers.emplace "content-length" (toString o.contentLength)
          status := 200 })
        (s := { resp with body := [], status := 200 }) (congrArg List.length hbody) rfl rfl
      rw [headers_additionalHeaders, headers_additionalHeaders, hset]
      exact List.Perm.refl _
    · rw [equalRange_contentLength_additionalHeaders, Response.equalRange_contentLength_set,
        hbody, body_additionalHeaders, Response.set_body]

/-- Where a request is served from a file, that file is empty, the object has an etag, and the
file can be opened and read. -/
def HeadCondition (p : Platform) (conf : Configuration) (fetch : Fetch) (env : Serve)
    (req : Request) (w : World) : Prop :=
  ∀ o files content, ServedFrom p conf fetch env req w o files content →
    content = [] ∧ o.etag ≠ "" ∧ env.openFails = false ∧ env.readThrows = false

lemma HeadCondition.of_servedFrom {content : Bytes}
    (hs : ServedFrom p conf fetch env req w o files content)
    (h : content = [] ∧ o.etag ≠ "" ∧ env.openFails = false ∧ env.readThrows = false) :
    HeadCondition p conf fetch env req w := by
  intro o' files' content' hs'
  obtain ⟨rfl, rfl, rfl⟩ := hs.unique hs'
  exact h

/-- **HEAD and GET.**  The answer to `HEAD` mirrors the one to an unconditional `GET` exactly if
the request is not served from a file at all, or from an empty one that can be read. -/
theorem mirrors_iff (hreq : req.Unconditional) :
    Mirrors (get p conf origins fetch env { req with method := "GET" } w).1
        (get p conf origins fetch env { req with method := "HEAD" } w).1 ↔
      HeadCondition p conf fetch env req w := by
  rw [get_eq_prepare, get_eq_prepare, prepare_method "GET", prepare_method "HEAD"]
  cases hprep : prepare p conf origins fetch env req w with
  | error answer =>
      have hne : answer.1.status ≠ 200 := status_of_prepare_error hprep
      dsimp only
      constructor
      · intro _ o files content hs
        cases hprep.symm.trans (prepare_eq_ok_iff.mpr ⟨o, files, content, hs, rfl⟩)
      · exact fun _ => Mirrors.refl_of_ne hne
  | ok q =>
      obtain ⟨o, files, content, hs, rfl⟩ := prepare_eq_ok_iff.mp hprep
      dsimp only
      rw [mirrors_respond_iff hreq body_preparedResponse rfl hs.served]
      exact ⟨HeadCondition.of_servedFrom hs, fun h => h o files content hs⟩

/-- An empty object, fetched by the request. -/
theorem mirrors_of_empty :
    Mirrors
      (get .sample {} [] (.at 0 (.plainText [] "e" 0)) { compressTime := 0 }
        ⟨"GET", "/empty.png", []⟩ .init).1
      (get .sample {} [] (.at 0 (.plainText [] "e" 0)) { compressTime := 0 }
        ⟨"HEAD", "/empty.png", []⟩ .init).1 := by
  have hreq : Request.Unconditional ⟨"GET", "/empty.png", []⟩ := ⟨by decide, by decide⟩
  refine (mirrors_iff hreq).mpr ?_
  exact HeadCondition.of_servedFrom ⟨by decide, by decide, rfl, by decide, rfl, rfl, rfl,
    by decide⟩ ⟨rfl, by decide, rfl, rfl⟩

/-- Three bytes, announced by `HEAD` as none. -/
theorem not_mirrors_of_three_bytes :
    ¬ Mirrors
      (get .sample {} [] (.at 0 (.plainText [1, 2, 3] "e" 0))
        { compressTime := 0 } ⟨"GET", "/a.png", []⟩ .init).1
      (get .sample {} [] (.at 0 (.plainText [1, 2, 3] "e" 0))
        { compressTime := 0 } ⟨"HEAD", "/a.png", []⟩ .init).1 := by
  decide

end Resource

end S3Proxy
