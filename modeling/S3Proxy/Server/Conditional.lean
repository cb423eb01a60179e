import S3Proxy.Server.Serving

/-!
# Conditional requests

`If-None-Match` names the version of an object that the client has, and `If-Modified-Since` is for
clients without one: `Current` says whether the client has the present version.  `get` reads an
absent header as the empty string, which is the etag of an object without one, and consults the date
whenever the etag does not match.  `Misjudged` are the requests for which that makes a difference.

## Main result

`revalidated_iff`: a request for an object that can be served is answered as `Revalidated` says,
with 304 exactly if the client has the present version and with the whole of the content otherwise,
unless it is misjudged.

The code compares (`Matches`), and the comparison comes out right exactly where the request is not
misjudged (`matches_iff_current`).  `get_of_servedFrom` is what the handler makes of the comparison.
That a rendered date is never empty keeps an absent date from matching (`lastModifiedTime_eq_iff`);
there is no such thing for etags, since the bucket may send none.

## Hypotheses

The method is GET, the object is served from a file, and the file can be opened and read.  What the
handler answers where a file fails is in `Server.Resource`.

## Where it is used

`Server.Encoding` takes `Matches` from here, since a request that matches is answered without the
file.  `get_of_servedFrom` rests on `ServedFrom` of `Server.Resource`.
-/

namespace S3Proxy

namespace Request

/-- The header `If-None-Match`, if there is one. -/
def etag? (req : Request) : Option String :=
  HeaderMap.findEither req.header "if-none-match" "If-None-Match"

/-- The header `If-Modified-Since`, if there is one. -/
def date? (req : Request) : Option String :=
  HeaderMap.findEither req.header "if-modified-since" "If-Modified-Since"

variable {req : Request} {value : String}

/-- A header that reads as the value has it, or is absent. -/
lemma headerOrEmpty_eq_iff {lower upper : String} :
    req.headerOrEmpty lower upper = value ↔
      HeaderMap.findEither req.header lower upper = some value ∨
        HeaderMap.findEither req.header lower upper = none ∧ value = "" := by
  unfold headerOrEmpty
  cases HeaderMap.findEither req.header lower upper with
  | none => simp [eq_comm]
  | some v => simp

end Request

namespace Resource

variable {p : Platform} {conf : Configuration} {origins : List String} {fetch : Fetch}
  {env : Serve} {req : Request} {w : World} {o : S3Object} {files : Files} {content : Bytes}

/-- The client has the present version of the object: it names its etag, or names none and has its
date. -/
def Current (p : Platform) (o : S3Object) (req : Request) : Prop :=
  req.etag? = some o.etag ∨ req.etag? = none ∧ req.date? = some (o.lastModifiedTime p)

instance : Decidable (Current p o req) := inferInstanceAs (Decidable (_ ∨ _ ∧ _))

/-- The client is told that it has the present version if it has, and is sent all of it
otherwise. -/
structure Revalidated (p : Platform) (o : S3Object) (req : Request) (content : Bytes)
    (answer : Response) : Prop where
  notModified : answer.status = 304 ↔ Current p o req
  sent : ¬ Current p o req → answer.status = 200 ∧ answer.body = content

/-- The object has no etag, and the request names none and does not have its date; or the request
names another etag, but has the date. -/
def Misjudged (p : Platform) (o : S3Object) (req : Request) : Prop :=
  o.etag = "" ∧ req.etag? = none ∧ req.date? ≠ some (o.lastModifiedTime p) ∨
    req.etag? ≠ none ∧ req.etag? ≠ some o.etag ∧ req.date? = some (o.lastModifiedTime p)

instance : Decidable (Misjudged p o req) := inferInstanceAs (Decidable (_ ∨ _))

/-! ### What the code compares -/

/-- Either of the two comparisons succeeds. -/
def Matches (p : Platform) (o : S3Object) (req : Request) : Prop :=
  o.etag = req.ifNoneMatch ∨ o.lastModifiedTime p = req.ifModifiedSince

instance : Decidable (Matches p o req) := inferInstanceAs (Decidable (_ ∨ _))

/-- An absent etag reads as that of an object without one. -/
lemma etag_eq_iff : o.etag = req.ifNoneMatch ↔
    req.etag? = some o.etag ∨ req.etag? = none ∧ o.etag = "" := by
  rw [eq_comm]
  exact Request.headerOrEmpty_eq_iff

/-- A date is never empty, so an absent one does not match. -/
lemma lastModifiedTime_eq_iff :
    o.lastModifiedTime p = req.ifModifiedSince ↔ req.date? = some (o.lastModifiedTime p) := by
  rw [eq_comm, Request.ifModifiedSince, Request.headerOrEmpty_eq_iff]
  simp [Request.date?, o.lastModifiedTime_ne_empty p]

/-- **The comparisons are right** but for the requests that are misjudged. -/
lemma matches_iff_current : (Matches p o req ↔ Current p o req) ↔ ¬ Misjudged p o req := by
  rw [Matches, Current, Misjudged, etag_eq_iff, lastModifiedTime_eq_iff]
  cases req.etag? with
  | none => simp
  | some etag =>
      simp only [ne_eq, Option.some.injEq, reduceCtorEq, false_and, and_false, or_false, false_or,
        not_false_eq_true, true_and]
      tauto

variable (origins) in
/-- **A request that is served from a file** is answered with 304 if a comparison succeeds, and with
the content of the file otherwise. -/
lemma get_of_servedFrom (hs : ServedFrom p conf fetch env req w o files content)
    (hmethod : req.method ≠ "HEAD") (hopen : env.openFails = false)
    (hread : env.readThrows = false) :
    (Matches p o req → (get p conf origins fetch env req w).1.status = 304) ∧
      (¬ Matches p o req → (get p conf origins fetch env req w).1.status = 200 ∧
        (get p conf origins fetch env req w).1.body = content) := by
  rw [get_eq_respond hs]
  constructor
  · intro hmatch
    rw [respond, if_neg hmethod]
    by_cases hetag : o.etag = req.ifNoneMatch
    · rw [if_pos hetag]
      rfl
    · rw [if_neg hetag, if_pos (hmatch.resolve_left hetag)]
      rfl
  · intro hmatch
    obtain ⟨hetag, hmodified⟩ := not_or.mp hmatch
    have hfile : openFile env
        (servedFile (wantsGzip conf req (objectKey (targetPath req.path))) o) files =
          some content := by
      rw [openFile, hopen, if_neg Bool.false_ne_true, hs.served]
    rw [respond_of_read hmethod hetag hmodified hfile hread]
    exact ⟨rfl, readInto_self content⟩

/-- **Conditional requests** for an object that can be served are decided by the right header,
unless they are misjudged. -/
theorem revalidated_iff (hmethod : req.method = "GET")
    (hs : ServedFrom p conf fetch env req w o files content) (hopen : env.openFails = false)
    (hread : env.readThrows = false) :
    Revalidated p o req content (get p conf origins fetch env req w).1 ↔ ¬ Misjudged p o req := by
  have hne : req.method ≠ "HEAD" := by
    rw [hmethod]
    decide
  obtain ⟨hmatch, hnoMatch⟩ := get_of_servedFrom origins hs hne hopen hread
  have hstatus : (get p conf origins fetch env req w).1.status = 304 ↔ Matches p o req := by
    refine ⟨fun h => ?_, hmatch⟩
    by_contra hno
    rw [(hnoMatch hno).1] at h
    exact absurd h (by decide)
  rw [← matches_iff_current, ← hstatus]
  constructor
  · exact fun h => h.notModified
  · intro hiff
    refine ⟨hiff, fun hcurrent => hnoMatch ?_⟩
    rwa [← hstatus, hiff]

/-- The client has the present version. -/
theorem revalidated_etag :
    let req : Request := ⟨"GET", "/a.png", [("if-none-match", "e")]⟩
    Revalidated .sample (S3Util.newObject .sample {} (.at 0 (.plainText [1, 2, 3] "e" 0)) "/a.png"
        (.plainText [1, 2, 3] "e" 0)) req [1, 2, 3]
      (get .sample {} [] (.at 0 (.plainText [1, 2, 3] "e" 0)) { compressTime := 0 } req
        .init).1 := by
  intro req
  have hs : ServedFrom .sample {} (.at 0 (.plainText [1, 2, 3] "e" 0)) { compressTime := 0 } req
      .init (S3Util.newObject .sample {} (.at 0 (.plainText [1, 2, 3] "e" 0)) "/a.png"
        (.plainText [1, 2, 3] "e" 0)) _ [1, 2, 3] :=
    ⟨by decide, by decide, by decide, by decide, rfl, rfl, rfl, by decide⟩
  exact (revalidated_iff rfl hs rfl rfl).mpr (by decide)

/-- The client has an older version, of the same second; and an object without an etag, sent to a
client that has nothing. -/
theorem not_revalidated_stale :
    let stale : Request := ⟨"GET", "/a.png",
      [("if-none-match", "d"), ("if-modified-since", toWebTime (Platform.sample.dateTime 0))]⟩
    let bare : Request := ⟨"GET", "/a.png", []⟩
    let answer := fun (etag : String) (req : Request) =>
      (get .sample {} [] (.at 0 (.plainText [1, 2, 3] etag 0)) { compressTime := 0 } req .init).1
    let o := fun (etag : String) =>
      S3Util.newObject .sample {} (.at 0 (.plainText [1, 2, 3] etag 0)) "/a.png"
        (.plainText [1, 2, 3] etag 0)
    (∃ files, ServedFrom .sample {} (.at 0 (.plainText [1, 2, 3] "e" 0)) { compressTime := 0 }
        stale .init (o "e") files [1, 2, 3]) ∧
      (answer "e" stale).status = 304 ∧
      ¬ Revalidated .sample (o "e") stale [1, 2, 3] (answer "e" stale) ∧
      (answer "" bare).status = 304 ∧
      ¬ Revalidated .sample (o "") bare [1, 2, 3] (answer "" bare) := by
  intro stale bare answer o
  have hstale : (answer "e" stale).status = 304 := by decide
  have hbare : (answer "" bare).status = 304 := by decide
  refine ⟨⟨_, by decide, by decide, by decide, by decide, rfl, rfl, rfl, by decide⟩, hstale,
    fun h => ?_, hbare, fun h => ?_⟩
  · exact absurd (h.notModified.mp hstale) (by decide)
  · exact absurd (h.notModified.mp hbare) (by decide)

end Resource

end S3Proxy
