import Mathlib.Data.List.TakeWhile
import S3Proxy.Server.Serving

/-!
# Request targets

Which targets `get` answers with 400, and which keys it asks `S3Util` for.  The query of a target is
cut off before `rejectQueryStrings` is consulted, so that test never finds one.

`getIn` is `get` over any monad in which objects are looked up and served.  In the monad of the
world it is `get` (`get_eq_getIn`); in one that also keeps a log it gives the keys (`askedKeys`).

## Main result

`validated_iff`: a request is `Validated` exactly unless queries are to be refused and its target
has one behind a path that is in order.  `Validated` has three parts: a target is answered with 400
exactly if it is `Refusable`, one that is not leads to a single question, for the key of its path,
and no key that is asked for climbs out of the bucket (`SafeKey`).

`status_get_iff` is the first part as the code has it, for the paths that are `Malformed`;
`askedKeys_eq_of_path` the second, and `safeKey_keyPart` the third.  `rejectedQuery_targetPath` is
the reason for the exception: nothing is left of the query when the test comes.

## Hypotheses

None: any configuration, any target, any state of the cache and the files, and any outcome of what
happens outside.

## What it rests on

The definitions of `Server.Resource`.  That every answer of `respond` has another status comes from
`respond_cases` there.
-/

namespace S3Proxy

namespace Resource

variable {p : Platform} {conf : Configuration} {origins : List String} {fetch : Fetch}
  {env : Serve} {req : Request} {w : World} {o : S3Object} {fn : String} {files : Files}
  {resp : Response} {target : String}

/-! ### What a target should be -/

/-- The target in front of its query; an empty target counts as a slash. -/
def pathPart (target : String) : List Char :=
  (if target = "" then ['/'] else target.toList).takeWhile (· ≠ '?')

/-- A path that is not absolute, or that climbs. -/
def Malformed (path : List Char) : Prop :=
  path = [] ∨ path.head? ≠ some '/' ∨ ['.', '.'] <:+: path

instance (path : List Char) : Decidable (Malformed path) :=
  inferInstanceAs (Decidable (_ ∨ _ ∨ _))

/-- The targets that are to be answered with 400. -/
def Refusable (conf : Configuration) (target : String) : Prop :=
  Malformed (pathPart target) ∨ ('?' ∈ target.toList ∧ conf.rejectQueryStrings = true)

instance : Decidable (Refusable conf target) := inferInstanceAs (Decidable (_ ∨ _ ∧ _))

/-- The key of a path. -/
def keyPart (path : List Char) : List Char :=
  if path.getLast? = some '/' then path ++ "index.html".toList else path

/-- A key that names a file below the root of the bucket. -/
structure SafeKey (key : List Char) : Prop where
  absolute : key.head? = some '/'
  file : key.getLast? ≠ some '/'
  no_query : '?' ∉ key
  no_climbing : ¬ ['.', '.'] <:+: key

/-! ### The keys that are asked for -/

/-- What `get` answers once the object has been looked up. -/
def answerIn {m : Type → Type} [Monad m] (origins : List String)
    (serve : S3Object → Response → m Response) (resp : Response) : Option S3Object → m Response
  | none => pure (fail getMethods origins 404 "Not found" resp)
  | some downloaded =>
      if downloaded.fileName = "" then pure (fail getMethods origins 404 "Not found" resp)
      else serve downloaded resp

/-- `get`, where looking an object up and serving it are actions of a monad. -/
def getIn {m : Type → Type} [Monad m] (conf : Configuration) (origins : List String)
    (lookup : String → m (Option S3Object)) (serve : S3Object → Response → m Response)
    (req : Request) : m Response :=
  let resp := { Response.ofHeaders req.header with path := targetPath req.path }
  if illegalPath resp.path then
    pure (fail getMethods origins 400 "Illegal request-target" resp)
  else if rejectedQuery conf resp.path then
    pure (fail getMethods origins 400 "Illegal request-target" resp)
  else
    let resp := { resp with path := objectKey resp.path }
    lookup resp.path >>= answerIn origins serve resp

private lemma bind_apply {σ α β : Type} (x : StateM σ α) (f : α → StateM σ β) (s : σ) :
    (x >>= f) s = f (x s).1 (x s).2 := rfl

/-- `get` is the handler over the world. -/
lemma get_eq_getIn : get p conf origins fetch env req w =
    getIn (m := StateM World) conf origins (fun key => S3Util.get p conf fetch key)
      (fun downloaded resp => serve p conf origins env req downloaded resp) req w := by
  unfold get getWith getIn
  dsimp only [id_eq]
  split_ifs with hpath hquery
  · rfl
  · rfl
  · rw [bind_apply]
    obtain ⟨found, w'⟩ := S3Util.get p conf fetch (objectKey (targetPath req.path)) w
    cases found with
    | none => rfl
    | some downloaded =>
        dsimp only [answerIn]
        split_ifs <;> rfl

/-- The keys that a request asks `S3Util::get` for, in order. -/
def askedKeys (p : Platform) (conf : Configuration) (origins : List String) (fetch : Fetch)
    (env : Serve) (req : Request) (w : World) : List String :=
  let lookup : String → StateM (World × List String) (Option S3Object) := fun key s =>
    let found := S3Util.get p conf fetch key s.1
    (found.1, found.2, s.2 ++ [key])
  let serve : S3Object → Response → StateM (World × List String) Response :=
    fun downloaded resp s =>
      let answer := serve p conf origins env req downloaded resp s.1
      (answer.1, answer.2, s.2)
  (getIn conf origins lookup serve req (w, [])).2.2

/-- A target is refused without a question, or one key is asked for. -/
lemma askedKeys_eq : askedKeys p conf origins fetch env req w =
    if illegalPath (targetPath req.path) = true ∨ rejectedQuery conf (targetPath req.path) = true
    then [] else [objectKey (targetPath req.path)] := by
  unfold askedKeys getIn
  dsimp only
  by_cases hpath : illegalPath (targetPath req.path) = true
  · rw [if_pos hpath, if_pos (.inl hpath)]
    rfl
  by_cases hquery : rejectedQuery conf (targetPath req.path) = true
  · rw [if_neg hpath, if_pos hquery, if_pos (.inr hquery)]
    rfl
  rw [if_neg hpath, if_neg hquery, if_neg (not_or.mpr ⟨hpath, hquery⟩), bind_apply]
  dsimp only
  cases (S3Util.get p conf fetch (objectKey (targetPath req.path)) w).1 with
  | none => rfl
  | some downloaded =>
      rw [answerIn]
      split_ifs <;> rfl

/-! ### What is refused -/

lemma toList_targetPath : (targetPath target).toList = pathPart target := by
  rw [targetPath, String.toList_ofList, pathPart]
  split_ifs <;> rfl

/-- Nothing is left of the query. -/
lemma not_mem_pathPart : '?' ∉ pathPart target := by
  intro hmem
  have hne := List.mem_takeWhile_imp hmem
  simp at hne

/-- **The test for a query string finds nothing.** -/
lemma rejectedQuery_targetPath : rejectedQuery conf (targetPath target) = false := by
  rw [rejectedQuery, toList_targetPath]
  simpa using fun _ => not_mem_pathPart

lemma illegalPath_targetPath :
    illegalPath (targetPath target) = true ↔ Malformed (pathPart target) := by
  have hempty : targetPath target = "" ↔ pathPart target = [] := by
    rw [← toList_targetPath]
    exact String.toList_eq_nil_iff.symm
  rw [illegalPath, toList_targetPath, Malformed]
  simp [hempty, or_assoc]

/-! ### The status -/

lemma status_fail_ne {methods : List String} {status : ℕ} {text : String} (h : status ≠ 400) :
    (fail methods origins status text resp).status ≠ 400 := h

lemma status_respond : (respond p origins env req o fn files resp).status ≠ 400 := by
  have hmem : (respond p origins env req o fn files resp).status ∈ [200, 304, 404, 500] :=
    status_respond_mem
  intro h
  rw [h] at hmem
  exact absurd hmem (by decide)

/-- An object that has been found is not answered with 400. -/
lemma status_serve : (serve p conf origins env req o resp w).1.status ≠ 400 := by
  unfold serve chooseFile
  dsimp only
  cases ensureCompressed p env (wantsGzip conf req resp.path) o w.files with
  | error files => exact status_fail_ne (by decide)
  | ok files =>
      dsimp only
      cases fileSize env (servedFile (wantsGzip conf req resp.path) o) files with
      | none => exact status_fail_ne (by decide)
      | some size =>
          cases env.recheckFails with
          | true => exact status_fail_ne (by decide)
          | false => exact status_respond

/-- **The answer is 400** for the paths that are illegal, and for no others. -/
lemma status_get_iff :
    (get p conf origins fetch env req w).1.status = 400 ↔ Malformed (pathPart req.path) := by
  rw [← illegalPath_targetPath]
  unfold get getWith
  dsimp only [id_eq]
  rw [rejectedQuery_targetPath]
  by_cases hpath : illegalPath (targetPath req.path) = true
  · rw [if_pos hpath]
    exact iff_of_true rfl hpath
  · rw [if_neg hpath, if_neg Bool.false_ne_true]
    refine iff_of_false ?_ hpath
    split
    · exact status_fail_ne (by decide)
    split
    · exact status_fail_ne (by decide)
    · exact status_serve

/-! ### The key -/

lemma toList_objectKey : (objectKey (targetPath target)).toList = keyPart (pathPart target) := by
  rw [objectKey, keyPart, toList_targetPath]
  split_ifs
  · rw [String.toList_append, toList_targetPath]
  · exact toList_targetPath

/-- The name of the index does not complete two dots. -/
lemma climbing_append_index {path : List Char} (hslash : path.getLast? = some '/') :
    ['.', '.'] <:+: path ++ "index.html".toList ↔ ['.', '.'] <:+: path := by
  refine ⟨fun h => ?_, fun h => h.trans (List.prefix_append _ _).isInfix⟩
  rcases List.infix_append_iff.mp h with h | h | ⟨pre, post, heq, hpre, hpost⟩
  · exact h
  · exact absurd h (by decide)
  · cases pre with
    | nil =>
        rw [List.nil_append] at heq
        rw [← heq] at hpost
        exact absurd hpost (by decide)
    | cons c pre =>
        -- the last byte in front of the index is a slash
        exfalso
        have hlast : (c :: pre).getLast? = some '/' := by
          obtain ⟨path', rfl⟩ := hpre
          rwa [List.getLast?_append_cons] at hslash
        have hmem : '/' ∈ ['.', '.'] := by
          rw [heq]
          exact List.mem_append_left _ (List.mem_of_getLast? hlast)
        exact absurd hmem (by decide)

/-- **The key of a path that is not refused is safe.** -/
lemma safeKey_keyPart (h : ¬ Malformed (pathPart target)) :
    SafeKey (keyPart (pathPart target)) := by
  rw [Malformed, not_or, not_or, not_not] at h
  obtain ⟨hne, habsolute, hclimbing⟩ := h
  rw [keyPart]
  split_ifs with hslash
  · constructor
    · rwa [List.head?_append_of_ne_nil _ hne]
    · rw [List.getLast?_append_of_ne_nil _ (by decide)]
      decide
    · rw [List.mem_append, not_or]
      exact ⟨not_mem_pathPart, by decide⟩
    · rwa [climbing_append_index hslash]
  · exact ⟨habsolute, hslash, not_mem_pathPart, hclimbing⟩

/-! ### Validation -/

/-- A request is validated as it should be: it is refused if its target is to be refused, and asks
for the key of its path otherwise. -/
structure Validated (p : Platform) (conf : Configuration) (origins : List String) (fetch : Fetch)
    (env : Serve) (req : Request) (w : World) : Prop where
  refused : (get p conf origins fetch env req w).1.status = 400 ↔ Refusable conf req.path
  asked : ¬ Refusable conf req.path →
    askedKeys p conf origins fetch env req w = [String.ofList (keyPart (pathPart req.path))]
  safe : ∀ key ∈ askedKeys p conf origins fetch env req w, SafeKey key.toList

/-- The keys that are asked for are those of the paths that are not malformed. -/
lemma askedKeys_eq_of_path : askedKeys p conf origins fetch env req w =
    if Malformed (pathPart req.path) then []
    else [String.ofList (keyPart (pathPart req.path))] := by
  have hkey : objectKey (targetPath req.path) = String.ofList (keyPart (pathPart req.path)) := by
    rw [← toList_objectKey, String.ofList_toList]
  have hiff : (illegalPath (targetPath req.path) = true ∨
      rejectedQuery conf (targetPath req.path) = true) ↔ Malformed (pathPart req.path) := by
    rw [illegalPath_targetPath, rejectedQuery_targetPath]
    simp
  rw [askedKeys_eq, hkey]
  exact if_congr hiff rfl rfl

/-- **A request is validated** unless its target has a query that should be refused, behind a path
that is in order. -/
theorem validated_iff : Validated p conf origins fetch env req w ↔
    ¬ (conf.rejectQueryStrings = true ∧ '?' ∈ req.path.toList ∧
      ¬ Malformed (pathPart req.path)) := by
  constructor
  · rintro h ⟨hreject, hquery, hpath⟩
    exact hpath (status_get_iff.mp (h.refused.mpr (.inr ⟨hquery, hreject⟩)))
  · intro h
    have hrefusable : Refusable conf req.path ↔ Malformed (pathPart req.path) := by
      refine ⟨fun hor => ?_, .inl⟩
      rcases hor with hpath | ⟨hquery, hreject⟩
      · exact hpath
      · by_contra hpath
        exact h ⟨hreject, hquery, hpath⟩
    refine ⟨?_, fun hnot => ?_, fun key hkey => ?_⟩
    · rw [status_get_iff, hrefusable]
    · rw [askedKeys_eq_of_path, if_neg fun hpath => hnot (hrefusable.mpr hpath)]
    · rw [askedKeys_eq_of_path] at hkey
      split_ifs at hkey with hpath
      · cases hkey
      · rw [List.mem_singleton.mp hkey, String.toList_ofList]
        exact safeKey_keyPart hpath

/-- A query string is not refused. -/
theorem not_validated_query :
    let conf : Configuration := { rejectQueryStrings := true }
    let req : Request := { method := "GET", path := "/index.html?query=blah", header := [] }
    Refusable conf req.path ∧
      ∀ (p : Platform) (origins : List String) (fetch : Fetch) (env : Serve) (w : World),
        (get p conf origins fetch env req w).1.status ≠ 400 ∧
        ¬ Validated p conf origins fetch env req w := by
  intro conf req
  have hrefusable : Refusable conf req.path := by decide
  have hpath : ¬ Malformed (pathPart req.path) := by decide
  refine ⟨hrefusable, fun p origins fetch env w => ?_⟩
  have hstatus : (get p conf origins fetch env req w).1.status ≠ 400 := by
    rw [Ne, status_get_iff]
    exact hpath
  exact ⟨hstatus, fun h => hstatus (h.refused.mpr hrefusable)⟩

end Resource

end S3Proxy
