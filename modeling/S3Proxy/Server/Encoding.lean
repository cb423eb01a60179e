import S3Proxy.Server.Conditional

/-!
# Content encodings

`bodyFile` follows `get` to the file that it reads into the body; `body_get` says that the body is
the content of that file, or one of the texts of the program.  `get` marks the response as
compressed as soon as it knows the size of the file, and `Response.set` says gzip for a response
that is marked: also for the answers that carry no file after all (`Mislabelled`).

## Main result

`truthful_iff`: an answer says gzip exactly if its body is the content of a `.gz` file (`Truthful`),
unless such a file was about to be sent and is not, because the client has the object or because the
file cannot be read.

The proof goes by the two ways through the handler.  An early answer carries no file and says so
(`truthful_of_prepare_error`).  An answer from a file says gzip if the compressed file was chosen
(`equalRange_contentEncoding_get`), which `fromGzip_iff` compares with what was sent;
`mislabelled_iff` names the difference.

## Hypotheses

The method is not HEAD, whose answers have no body.  Every outcome of every file operation is
covered: they are part of `Serve`, over which the result is universal.

## Where it is used

`Queue.Mongo` uses the notion of a body from a compressed file (`FromGzip`) to say what the metric
of a request should record.
-/

namespace S3Proxy

namespace Resource

variable {p : Platform} {conf : Configuration} {origins : List String} {fetch : Fetch}
  {env : Serve} {req : Request} {w : World} {o : S3Object} {fn : String} {files : Files}
  {resp : Response} {content : Bytes}

/-! ### Where the body comes from -/

/-- The file that `respond` reads, if it comes to that. -/
def respondFile (p : Platform) (env : Serve) (req : Request) (downloaded : S3Object) (fn : String)
    (files : Files) : Option String :=
  if req.method = "HEAD" then none
  else if downloaded.etag = req.ifNoneMatch then none
  else if downloaded.lastModifiedTime p = req.ifModifiedSince then none
  else if (openFile env fn files).isNone || env.readThrows then none
  else some fn

variable (p conf origins fetch env req w) in
/-- The file that `get` reads into the body, if it comes to that. -/
def bodyFile : Option String :=
  (prepare p conf origins fetch env req w).toOption.bind fun q =>
    respondFile p env req q.downloaded q.fn q.world.files

variable (p env o) in
lemma respondFile_eq_some_iff (hmethod : req.method ≠ "HEAD") (hfile : files fn = some content) :
    respondFile p env req o fn files = some fn ↔
      ¬ Matches p o req ∧ env.openFails = false ∧ env.readThrows = false := by
  have hopen : (openFile env fn files).isNone = env.openFails := by
    rw [openFile, hfile]
    cases env.openFails <;> rfl
  rw [respondFile, if_neg hmethod, hopen, Matches]
  by_cases hetag : o.etag = req.ifNoneMatch
  · simp [hetag]
  by_cases hmodified : o.lastModifiedTime p = req.ifModifiedSince
  · simp [hmodified]
  rw [if_neg hetag, if_neg hmodified]
  cases env.openFails <;> cases env.readThrows <;> simp [hetag, hmodified]

variable (p env req o fn files) in
lemma respondFile_eq_none_or : respondFile p env req o fn files = none ∨
    respondFile p env req o fn files = some fn := by
  unfold respondFile
  split_ifs <;> simp

lemma bodyFile_of_error {answer : Response × World}
    (h : prepare p conf origins fetch env req w = .error answer) :
    bodyFile p conf origins fetch env req w = none := by
  rw [bodyFile, h]
  rfl

lemma bodyFile_of_servedFrom (hs : ServedFrom p conf fetch env req w o files content) :
    bodyFile p conf origins fetch env req w =
      respondFile p env req o
        (servedFile (wantsGzip conf req (objectKey (targetPath req.path))) o) files := by
  rw [bodyFile, prepare_eq_ok_iff.mpr ⟨o, files, content, hs, rfl⟩]
  rfl

variable (p origins env req o) in
/-- **What the body of an answer is**: the content of the file that was read, or a text. -/
lemma body_respond (hbody : resp.body = []) (hfile : files fn = some content)
    (hlength : resp.contentLength = content.length) :
    (respondFile p env req o fn files = some fn →
      (respond p origins env req o fn files resp).body = content) ∧
    (respondFile p env req o fn files = none →
      ∃ text ∈ texts, (respond p origins env req o fn files resp).body = bytesOf text) := by
  have hempty : ∃ text ∈ texts, bytesOf text = [] := ⟨"", by decide, rfl⟩
  have hopen : openFile env fn files = if env.openFails then none else some content := by
    rw [openFile, hfile]
  unfold respondFile respond
  rw [hopen]
  dsimp only
  by_cases hmethod : req.method = "HEAD"
  · simp [hmethod, hbody, hempty]
  by_cases hetag : o.etag = req.ifNoneMatch
  · simp [hmethod, hetag, hbody, hempty]
  by_cases hmodified : o.lastModifiedTime p = req.ifModifiedSince
  · simp [hmethod, hetag, hmodified, hbody, hempty]
  rw [if_neg hmethod, if_neg hetag, if_neg hmodified, if_neg hmethod, if_neg hetag,
    if_neg hmodified]
  cases env.openFails with
  | true =>
      constructor
      · intro h
        cases h
      · exact fun _ => ⟨"Not found", by decide, rfl⟩
  | false =>
      cases env.readThrows with
      | true =>
          constructor
          · intro h
            cases h
          · exact fun _ => ⟨"Unknown error", by decide, rfl⟩
      | false =>
          constructor
          · intro _
            show readInto resp.contentLength content = content
            rw [hlength, readInto_self]
          · intro h
            cases h

variable (p conf origins fetch env req w) in
/-- **What the body of an answer is**, for the whole handler. -/
lemma body_get :
    (∀ fn, bodyFile p conf origins fetch env req w = some fn →
      (get p conf origins fetch env req w).2.files fn =
        some (get p conf origins fetch env req w).1.body) ∧
    (bodyFile p conf origins fetch env req w = none →
      ∃ text ∈ texts, (get p conf origins fetch env req w).1.body = bytesOf text) := by
  cases hprep : prepare p conf origins fetch env req w with
  | error answer =>
      obtain ⟨status, text, resp, w', rfl, htext, -, -⟩ := of_prepare_error hprep
      rw [bodyFile_of_error hprep, get_eq_prepare, hprep]
      exact ⟨nofun, fun _ => ⟨text, htext, rfl⟩⟩
  | ok q =>
      obtain ⟨o, files, content, hs, rfl⟩ := prepare_eq_ok_iff.mp hprep
      obtain ⟨hread, htext⟩ := body_respond p origins env req o
        (body_preparedResponse : (preparedResponse conf req o content.length).body = [])
        hs.served rfl
      rw [bodyFile_of_servedFrom hs, get_eq_respond hs]
      refine ⟨fun fn hfn => ?_, htext⟩
      rcases respondFile_eq_none_or p env req o
        (servedFile (wantsGzip conf req (objectKey (targetPath req.path))) o) files with
        hnone | hsome
      · rw [hnone] at hfn
        cases hfn
      · rw [hsome] at hfn
        cases hfn
        rw [hread hsome]
        exact hs.served

/-! ### What the answer says -/

/-- The body of the answer is the content of the `.gz` file of the object. -/
def FromGzip (p : Platform) (conf : Configuration) (origins : List String) (fetch : Fetch)
    (env : Serve) (req : Request) (w : World) : Prop :=
  ∃ o, (S3Util.get p conf fetch (objectKey (targetPath req.path)) w).1 = some o ∧
    bodyFile p conf origins fetch env req w = some (Util.compressedFileName o.fileName)

/-- The answer says gzip if its body is the content of a `.gz` file, and no encoding otherwise. -/
structure Truthful (p : Platform) (conf : Configuration) (origins : List String) (fetch : Fetch)
    (env : Serve) (req : Request) (w : World) : Prop where
  gzip : FromGzip p conf origins fetch env req w →
    (get p conf origins fetch env req w).1.headers.equalRange "content-encoding" = ["gzip"]
  plain : ¬ FromGzip p conf origins fetch env req w →
    (get p conf origins fetch env req w).1.headers.equalRange "content-encoding" = []

/-- The `.gz` file is there and its size is known, but it is not sent: the client has the object, or
the file cannot be read. -/
def Mislabelled (p : Platform) (conf : Configuration) (fetch : Fetch) (env : Serve)
    (req : Request) (w : World) : Prop :=
  wantsGzip conf req (objectKey (targetPath req.path)) = true ∧
    ∃ o files content, ServedFrom p conf fetch env req w o files content ∧
      (Matches p o req ∨ env.openFails = true ∨ env.readThrows = true)

/-- Every exit of `respond` says gzip exactly if the response is marked as compressed. -/
lemma equalRange_contentEncoding_respond :
    (respond p origins env req o fn files resp).headers.equalRange "content-encoding" =
      if resp.compressed then ["gzip"] else [] := by
  obtain ⟨r, heq | heq, hcompressed, -⟩ := respond_cases p origins env req o fn files resp
  · rw [heq, Response.equalRange_contentEncoding_set, hcompressed]
  · rw [heq, equalRange_contentEncoding_additionalHeaders, hcompressed]

variable (origins) in
/-- The `.gz` file is in the body precisely if it was chosen and could be sent. -/
lemma fromGzip_iff (hmethod : req.method ≠ "HEAD")
    (hs : ServedFrom p conf fetch env req w o files content) :
    FromGzip p conf origins fetch env req w ↔
      wantsGzip conf req (objectKey (targetPath req.path)) = true ∧
        ¬ Matches p o req ∧ env.openFails = false ∧ env.readThrows = false := by
  have hread := respondFile_eq_some_iff p env o hmethod hs.served
  rw [← hread, FromGzip, hs.found, bodyFile_of_servedFrom hs]
  cases hgzip : wantsGzip conf req (objectKey (targetPath req.path)) with
  | true => simp [servedFile]
  | false =>
      have hne : ¬ respondFile p env req o o.fileName files =
          some (Util.compressedFileName o.fileName) := by
        intro h
        rcases respondFile_eq_none_or p env req o o.fileName files with hnone | hsome
        · rw [hnone] at h
          cases h
        · rw [hsome, Option.some.injEq] at h
          exact Util.compressedFileName_ne _ h.symm
      simp [servedFile, hne]

/-- An early answer carries no file, and says so. -/
lemma truthful_of_prepare_error {answer : Response × World}
    (h : prepare p conf origins fetch env req w = .error answer) :
    Truthful p conf origins fetch env req w ∧ ¬ Mislabelled p conf fetch env req w := by
  have hnot : ¬ FromGzip p conf origins fetch env req w := by
    rintro ⟨o, -, hfile⟩
    rw [bodyFile_of_error h] at hfile
    cases hfile
  refine ⟨⟨fun hfrom => absurd hfrom hnot, fun _ => ?_⟩, ?_⟩
  · obtain ⟨status, text, resp, w', rfl, -, -, hcompressed⟩ := of_prepare_error h
    rw [get_eq_prepare, h]
    show (fail getMethods origins status text resp).headers.equalRange "content-encoding" = []
    rw [fail, Response.equalRange_contentEncoding_set]
    simp [hcompressed]
  · rintro ⟨-, o, files, content, hs, -⟩
    cases h.symm.trans (prepare_eq_ok_iff.mpr ⟨o, files, content, hs, rfl⟩)

variable (origins) in
/-- An answer from a file says gzip if the `.gz` file was chosen. -/
lemma equalRange_contentEncoding_get (hs : ServedFrom p conf fetch env req w o files content) :
    (get p conf origins fetch env req w).1.headers.equalRange "content-encoding" =
      if wantsGzip conf req (objectKey (targetPath req.path)) then ["gzip"] else [] := by
  rw [get_eq_respond hs]
  exact equalRange_contentEncoding_respond

/-- Whether an answer from a file is mislabelled. -/
lemma mislabelled_iff (hs : ServedFrom p conf fetch env req w o files content) :
    Mislabelled p conf fetch env req w ↔
      wantsGzip conf req (objectKey (targetPath req.path)) = true ∧
        (Matches p o req ∨ env.openFails = true ∨ env.readThrows = true) := by
  refine and_congr_right fun _ => ⟨?_, fun h => ⟨o, files, content, hs, h⟩⟩
  rintro ⟨o', files', content', hs', h⟩
  obtain ⟨rfl, -, -⟩ := hs.unique hs'
  exact h

/-- **The content encoding tells the truth** unless a `.gz` file was about to be sent and is not. -/
theorem truthful_iff (hmethod : req.method ≠ "HEAD") :
    Truthful p conf origins fetch env req w ↔ ¬ Mislabelled p conf fetch env req w := by
  cases hprep : prepare p conf origins fetch env req w with
  | error answer =>
      obtain ⟨htruthful, hlabel⟩ := truthful_of_prepare_error hprep
      exact iff_of_true htruthful hlabel
  | ok q =>
      obtain ⟨o, files, content, hs, rfl⟩ := prepare_eq_ok_iff.mp hprep
      have hheader := equalRange_contentEncoding_get origins hs
      have hgzip := fromGzip_iff origins hmethod hs
      -- the `.gz` file is sent, or there is a reason why not
      have hreason : FromGzip p conf origins fetch env req w ∨
          Mislabelled p conf fetch env req w ↔
            wantsGzip conf req (objectKey (targetPath req.path)) = true := by
        rw [hgzip, mislabelled_iff hs, ← and_or_left]
        apply and_iff_left
        by_cases hmatch : Matches p o req <;> cases env.openFails <;> cases env.readThrows <;>
          simp [hmatch]
      have hexclusive : FromGzip p conf origins fetch env req w →
          ¬ Mislabelled p conf fetch env req w := by
        rw [hgzip, mislabelled_iff hs]
        rintro ⟨-, hmatch, hopen, hread⟩
        simp [hmatch, hopen, hread]
      constructor
      · intro h hlabel
        have hplain := h.plain fun hfrom => hexclusive hfrom hlabel
        rw [hheader, if_pos (hreason.mp (.inr hlabel))] at hplain
        cases hplain
      · intro hlabel
        constructor
        · intro hfrom
          rw [hheader, if_pos (hreason.mp (.inl hfrom))]
        · intro hnot
          rw [hheader, if_neg]
          intro hwants
          rcases hreason.mpr hwants with hfrom | hlabel'
          · exact hnot hfrom
          · exact hlabel hlabel'

/-- The client takes gzip and has nothing yet. -/
theorem truthful_text :
    Truthful .sample {} [] (.at 0 (.plainText [1, 2, 3] "e" 0)) { compressTime := 0 }
      ⟨"GET", "/a.txt", [("accept-encoding", "gzip")]⟩ .init := by
  refine (truthful_iff (show "GET" ≠ "HEAD" by decide)).mpr ?_
  rintro ⟨-, o, files, content, hs, hmatch | hfails | hthrows⟩
  · obtain rfl := Option.some.inj (hs.found.symm.trans (rfl : _ = some _))
    exact absurd hmatch (by decide)
  · cases hfails
  · cases hthrows

/-- The client takes gzip and has the present version: the empty body of the answer is called
gzip. -/
theorem not_truthful_notModified :
    let req : Request := ⟨"GET", "/a.txt", [("accept-encoding", "gzip"), ("if-none-match", "e")]⟩
    let fetch := Fetch.at 0 (.plainText [1, 2, 3] "e" 0)
    let answer := (get .sample {} [] fetch { compressTime := 0 } req .init).1
    answer.status = 304 ∧ answer.body = [] ∧
      answer.headers.equalRange "content-encoding" = ["gzip"] ∧
      ¬ Truthful .sample {} [] fetch { compressTime := 0 } req .init := by
  intro req fetch answer
  have hheader : answer.headers.equalRange "content-encoding" = ["gzip"] := by decide
  refine ⟨by decide, by decide, hheader, fun h => ?_⟩
  have hnot : ¬ FromGzip .sample {} [] fetch { compressTime := 0 } req .init := by
    rintro ⟨o, -, hfile⟩
    have hnone : bodyFile .sample {} [] fetch { compressTime := 0 } req .init = none := by decide
    rw [hnone] at hfile
    cases hfile
  cases hheader.symm.trans (h.plain hnot)

end Resource

end S3Proxy
