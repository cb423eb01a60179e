import S3Proxy.Server.S3Util

/-!
# The cached triple of one object

What the proxy keeps about an object are three artefacts with lives of their own: the metadata
entry, the plain file and the `.gz` file.  `Triple` is this view of the world, and `Triple.download`
says what a download does to it.

## Main results

`download_triple` connects the view with the code: a download acts on the triple of its own name as
`Triple.download` does.  The files it works on are four, and `download_cases` and
`download_files_of_ne` say so; that no two of them get into each other's way comes from the lemmas
about names in `Server.S3Util` and `Util.Compress`.

`get_triple_of_hash_ne` is the other half, the frame: `S3Util::get` leaves the triples of all names
with another hash as they are.

An entry names the file it is served from.  `World.Filed` says that this is the file of the name the
entry is stored under; all operations keep it (`filed_get`), and with it `lookup_congr` says that
the lookup reads nothing but the triple.

## Hypotheses

None on the world or on the outcomes.  `get_of_hit`, `get_of_success`, `get_of_notFound` and
`get_of_failure` are the cases of a call, and one of them applies in each.

## Where it is used

`Server.Refresh` asks what a failing download leaves of the triple, `Server.Frame` and `Server.Site`
go from one call to many, and `Server.Interleaving` has the triple as the state that its threads
share.
-/

namespace S3Proxy

/-- The artefacts of one object. -/
@[ext]
structure Triple where
  entry : Option S3Object
  plain : Option Bytes
  gz : Option Bytes
  deriving DecidableEq

/-- The triple of a name. -/
def World.triple (p : Platform) (conf : Configuration) (w : World) (name : String) : Triple where
  entry := w.cache.get name
  plain := w.files (S3Util.fileName p conf name)
  gz := w.files (Util.compressedFileName (S3Util.fileName p conf name))

namespace Triple

/-- All parts of the triple describe the version. -/
structure Describes (gzip : Gzip) (t : Triple) (v : Version) : Prop where
  entry : ∃ obj, t.entry = some obj ∧ obj.Describes v
  plain : t.plain = some v.body
  gz : ∀ g, t.gz = some g → gzip.decompress g = v.body

/-- A download on the triple: `obj` is the metadata of the new version and `temp` the content
of the temporary. -/
def download (gzip : Gzip) (obj : S3Object) (temp : Option Bytes) (compress : CompressOutcome)
    (renames : Bool) (t : Triple) : Option S3Object × Triple :=
  if t.gz.isSome ∧ compress ≠ .completes then (none, t)
  else
    let gz := t.gz.map fun _ => gzip.compress (temp.getD [])
    match renames, temp with
    | true, some b => (some obj, ⟨some obj, some b, gz⟩)
    | _, _ => (none, { t with gz })

variable {gzip : Gzip} {obj : S3Object} {temp : Option Bytes} {compress : CompressOutcome}
  {renames : Bool} {t : Triple}

/-- A `.gz` file that cannot be refreshed ends the download before anything is published. -/
lemma download_of_throws (hgz : t.gz.isSome) (hc : compress ≠ .completes) :
    t.download gzip obj temp compress renames = (none, t) :=
  if_pos ⟨hgz, hc⟩

/-- Without a rename the `.gz` file is all that changes. -/
lemma download_of_stuck (hc : t.gz.isSome → compress = .completes)
    (hstuck : renames = false ∨ temp = none) :
    t.download gzip obj temp compress renames =
      (none, { t with gz := t.gz.map fun _ => gzip.compress (temp.getD []) }) := by
  rw [download, if_neg fun h => h.2 (hc h.1)]
  rcases hstuck with rfl | rfl
  · rfl
  · cases renames <;> rfl

lemma download_of_renamed {b : Bytes} (hc : t.gz.isSome → compress = .completes) :
    t.download gzip obj (some b) compress true =
      (some obj, ⟨some obj, some b, t.gz.map fun _ => gzip.compress b⟩) := by
  rw [download, if_neg fun h => h.2 (hc h.1)]
  rfl

end Triple

namespace S3Util

variable {p : Platform} {conf : Configuration} {env : Fetch} {name : String} {w : World}

/-! ### Refreshing the compressed file -/

lemma recompress_eq_error {file : String} {fs fs' : Files}
    (h : recompress p env file fs = .error fs') :
    (fs (Util.compressedFileName file)).isSome ∧ env.compress ≠ .completes ∧
      ∀ n, n ≠ Util.temporaryName (targetName file env.targetTime) env.compressTime →
        fs' n = fs n := by
  unfold recompress at h
  dsimp only at h
  split_ifs at h with hgz
  refine ⟨hgz, ?_, fun n hn => Util.compress_error_frame h hn⟩
  intro hc
  rw [hc, Util.compress_completes] at h
  cases h

lemma recompress_eq_ok {file : String} {fs fs' : Files}
    (h : recompress p env file fs = .ok fs') :
    ((fs (Util.compressedFileName file)).isSome → env.compress = .completes) ∧
      fs' (Util.compressedFileName file) = (fs (Util.compressedFileName file)).map
        (fun _ => p.gzip.compress ((fs (targetName file env.targetTime)).getD [])) ∧
      ∀ n, n ≠ Util.temporaryName (targetName file env.targetTime) env.compressTime →
        n ≠ Util.compressedFileName file → fs' n = fs n := by
  unfold recompress at h
  dsimp only at h
  split_ifs at h with hgz
  · obtain ⟨hc, rfl⟩ := Util.compress_eq_ok_iff.mp h
    obtain ⟨g, hg⟩ := Option.isSome_iff_exists.mp hgz
    refine ⟨fun _ => hc, ?_, fun n hn hn' => ?_⟩
    · rw [FileStore.write_self, hg, Option.map_some]
    · rw [FileStore.write_of_ne hn', FileStore.remove_of_ne hn]
  · have heq : fs = fs' := by simpa using h
    subst heq
    rw [Bool.not_eq_true, Option.isSome_eq_false_iff, Option.isNone_iff_eq_none] at hgz
    simp [hgz]

/-! ### The download -/

lemma download_of_error {v : Version} {fs : Files}
    (h : recompress p env (fileName p conf name) (writeTarget env (fileName p conf name) v w.files)
      = .error fs) :
    download p conf env name v w = (none, { w with files := fs }) := by
  rw [download]
  dsimp only
  rw [h]

lemma download_of_stuck {v : Version} {fs : Files}
    (h : recompress p env (fileName p conf name) (writeTarget env (fileName p conf name) v w.files)
      = .ok fs)
    (hren : env.renames = false ∨
      fs (targetName (fileName p conf name) env.targetTime) = none) :
    download p conf env name v w = (none, { w with files := fs }) := by
  have hnone : (if env.renames then
      fs.rename (targetName (fileName p conf name) env.targetTime) (fileName p conf name)
      else none) = none := by
    rcases hren with hren | hren
    · rw [hren]
      rfl
    · rw [FileStore.rename_eq_none_iff.mpr hren, ite_self]
  rw [download]
  dsimp only
  rw [h]
  dsimp only
  rw [hnone]

lemma download_of_renamed {v : Version} {fs fs' : Files}
    (h : recompress p env (fileName p conf name) (writeTarget env (fileName p conf name) v w.files)
      = .ok fs)
    (hren : env.renames = true)
    (hfs : fs.rename (targetName (fileName p conf name) env.targetTime) (fileName p conf name)
      = some fs') :
    download p conf env name v w = (some (newObject p conf env name v),
      { cache := w.cache.put name (newObject p conf env name v), files := fs' }) := by
  rw [download]
  dsimp only
  rw [h]
  dsimp only
  rw [hren, if_pos rfl, hfs]

variable (p conf env name w) in
/-- The three ways a download can go, and the files it leaves behind. -/
lemma download_cases (v : Version) :
    ∃ fs, (recompress p env (fileName p conf name)
        (writeTarget env (fileName p conf name) v w.files) = .error fs ∧
        download p conf env name v w = (none, { w with files := fs })) ∨
      (recompress p env (fileName p conf name)
        (writeTarget env (fileName p conf name) v w.files) = .ok fs ∧
        ((env.renames = false ∨ fs (targetName (fileName p conf name) env.targetTime) = none) ∧
          download p conf env name v w = (none, { w with files := fs }) ∨
        ∃ fs', env.renames = true ∧
          fs.rename (targetName (fileName p conf name) env.targetTime) (fileName p conf name)
            = some fs' ∧
          download p conf env name v w = (some (newObject p conf env name v),
            { cache := w.cache.put name (newObject p conf env name v), files := fs' }))) := by
  cases h : recompress p env (fileName p conf name)
      (writeTarget env (fileName p conf name) v w.files) with
  | error fs => exact ⟨fs, .inl ⟨rfl, download_of_error h⟩⟩
  | ok fs =>
      refine ⟨fs, .inr ⟨rfl, ?_⟩⟩
      cases hren : env.renames with
      | false => exact .inl ⟨.inl rfl, download_of_stuck h (.inl hren)⟩
      | true =>
          cases hfs : fs.rename (targetName (fileName p conf name) env.targetTime)
              (fileName p conf name) with
          | none =>
              have hnone := FileStore.rename_eq_none_iff.mp hfs
              exact .inl ⟨.inr hnone, download_of_stuck h (.inr hnone)⟩
          | some fs' => exact .inr ⟨fs', rfl, rfl, download_of_renamed h hren hfs⟩

/-- A download changes no file but the four whose names it derives from the object. -/
lemma download_files_of_ne {v : Version} {n : String}
    (htarget : n ≠ targetName (fileName p conf name) env.targetTime)
    (htemp : n ≠ Util.temporaryName (targetName (fileName p conf name) env.targetTime)
      env.compressTime)
    (hfile : n ≠ fileName p conf name)
    (hgz : n ≠ Util.compressedFileName (fileName p conf name)) :
    (download p conf env name v w).2.files n = w.files n := by
  have hwrite : writeTarget env (fileName p conf name) v w.files n = w.files n :=
    Function.update_of_ne htarget ..
  obtain ⟨fs, ⟨h, hd⟩ | ⟨h, hd⟩⟩ := download_cases p conf env name w v
  · rw [hd, ← hwrite]
    exact (recompress_eq_error h).2.2 n htemp
  · have hfs : fs n = w.files n := ((recompress_eq_ok h).2.2 n htemp hgz).trans hwrite
    rcases hd with ⟨-, hd⟩ | ⟨fs', -, hren, hd⟩
    · rw [hd]
      exact hfs
    · rw [hd, ← hfs]
      exact FileStore.rename_of_ne hren htarget hfile

lemma download_cache_of_ne {v : Version} {n : String} (h : n ≠ name) :
    (download p conf env name v w).2.cache.get n = w.cache.get n := by
  obtain ⟨fs, ⟨-, hd⟩ | ⟨-, ⟨-, hd⟩ | ⟨fs', -, -, hd⟩⟩⟩ := download_cases p conf env name w v
  · rw [hd]
  · rw [hd]
  · rw [hd]
    exact w.cache.get_put_of_ne _ h

variable (p conf env name w) in
/-- **The download, on the triple.**  The result and the triple of the name are those of
`Triple.download`. -/
lemma download_triple (v : Version) :
    ((download p conf env name v w).1, (download p conf env name v w).2.triple p conf name) =
      (w.triple p conf name).download p.gzip (newObject p conf env name v)
        (env.write.stored v.body (w.files (targetName (fileName p conf name) env.targetTime)))
        env.compress env.renames := by
  set file := fileName p conf name with hfile
  set target := targetName file env.targetTime with htarget
  set temp := env.write.stored v.body (w.files target) with htemp
  have hplain : file ≠ target := (targetName_ne_fileName _).symm
  have hgz : Util.compressedFileName file ≠ target := (targetName_ne_compressedFileName _ _ _).symm
  have hgzPlain : Util.compressedFileName file ≠ file := compressedFileName_ne_fileName
  have hplain' : file ≠ Util.temporaryName target env.compressTime :=
    (temporaryName_targetName_ne_fileName _ _).symm
  have hgz' : Util.compressedFileName file ≠ Util.temporaryName target env.compressTime :=
    (Util.temporaryName_ne_compressedFileName _ _ _).symm
  have htarget' : target ≠ Util.temporaryName target env.compressTime :=
    (Util.temporaryName_ne_source _ _).symm
  have hwrite : ∀ n, n ≠ target → writeTarget env file v w.files n = w.files n :=
    fun n hn => Function.update_of_ne hn ..
  have hwriteTarget : writeTarget env file v w.files target = temp := Function.update_self ..
  obtain ⟨fs, ⟨h, hd⟩ | ⟨h, hd⟩⟩ := download_cases p conf env name w v
  · obtain ⟨hsome, hc, hframe⟩ := recompress_eq_error h
    rw [hwrite _ hgz] at hsome
    rw [hd, Triple.download_of_throws hsome hc]
    refine Prod.ext rfl (Triple.ext rfl ?_ ?_)
    · exact (hframe _ hplain').trans (hwrite _ hplain)
    · exact (hframe _ hgz').trans (hwrite _ hgz)
  · obtain ⟨hc, hnew, hframe⟩ := recompress_eq_ok h
    rw [hwrite _ hgz, ← htarget, hwriteTarget] at hnew
    rw [hwrite _ hgz] at hc
    have hfsTarget : fs target = temp := (hframe _ htarget' hgz.symm).trans hwriteTarget
    have hfsPlain : fs file = w.files file :=
      (hframe _ hplain' hgzPlain.symm).trans (hwrite _ hplain)
    rcases hd with ⟨hstuck, hd⟩ | ⟨fs', hren, hfs', hd⟩
    · rw [← hfile, ← htarget, hfsTarget] at hstuck
      rw [hd, Triple.download_of_stuck hc hstuck]
      exact Prod.ext rfl (Triple.ext rfl hfsPlain hnew)
    · obtain ⟨b, hb, rfl⟩ := FileStore.rename_eq_some_iff.mp hfs'
      have htempb : temp = some b := hfsTarget.symm.trans hb
      rw [hd, hren, htempb, Triple.download_of_renamed hc]
      rw [htempb] at hnew
      refine Prod.ext rfl (Triple.ext ?_ ?_ ?_)
      · exact w.cache.get_put_self ..
      · exact FileStore.write_self
      · exact (FileStore.write_of_ne hgzPlain).trans ((FileStore.remove_of_ne hgz).trans hnew)

/-! ### The whole call -/

lemma get_of_hit {obj : S3Object} (h : lookup env.lookupTime name w = some obj) :
    get p conf env name w = (some obj, w) := by
  rw [get, h]

lemma get_of_success {v : Version} (h : lookup env.lookupTime name w = none)
    (hv : env.answer = .success v) : get p conf env name w = download p conf env name v w := by
  rw [get, h, hv]

lemma get_of_notFound (h : lookup env.lookupTime name w = none) (hv : env.answer = .notFound) :
    get p conf env name w =
      (some (notFoundObject conf env),
        { w with cache := w.cache.put name (notFoundObject conf env) }) := by
  rw [get, h, hv]

lemma get_of_failure (h : lookup env.lookupTime name w = none) (hv : env.answer = .failure) :
    get p conf env name w = (none, w) := by
  rw [get, h, hv]

/-- The files change only when something is downloaded. -/
lemma get_files_of_ne {n : String}
    (htarget : n ≠ targetName (fileName p conf name) env.targetTime)
    (htemp : n ≠ Util.temporaryName (targetName (fileName p conf name) env.targetTime)
      env.compressTime)
    (hfile : n ≠ fileName p conf name)
    (hgz : n ≠ Util.compressedFileName (fileName p conf name)) :
    (get p conf env name w).2.files n = w.files n := by
  cases hl : lookup env.lookupTime name w with
  | some obj => rw [get_of_hit hl]
  | none =>
      cases hv : env.answer with
      | success v =>
          rw [get_of_success hl hv]
          exact download_files_of_ne htarget htemp hfile hgz
      | notFound => rw [get_of_notFound hl hv]
      | failure => rw [get_of_failure hl hv]

/-- The metadata cache is keyed by the full name. -/
lemma get_cache_of_ne {n : String} (h : n ≠ name) :
    (get p conf env name w).2.cache.get n = w.cache.get n := by
  cases hl : lookup env.lookupTime name w with
  | some obj => rw [get_of_hit hl]
  | none =>
      cases hv : env.answer with
      | success v =>
          rw [get_of_success hl hv]
          exact download_cache_of_ne h
      | notFound =>
          rw [get_of_notFound hl hv]
          exact w.cache.get_put_of_ne _ h
      | failure => rw [get_of_failure hl hv]

variable (conf env w) in
/-- **The frame.**  A call for one name leaves the artefacts of every name with another hash
alone. -/
lemma get_triple_of_hash_ne {b : String} (h : p.hash name ≠ p.hash b) :
    (get p conf env name w).2.triple p conf b = w.triple p conf b := by
  have hfile : fileName p conf b ≠ fileName p conf name := fun he => h (fileName_eq_iff.mp he).symm
  refine Triple.ext ?_ ?_ ?_
  · apply get_cache_of_ne
    rintro rfl
    exact h rfl
  · exact get_files_of_ne (targetName_ne_fileName _).symm
      (temporaryName_targetName_ne_fileName _ _).symm hfile compressedFileName_ne_fileName.symm
  · exact get_files_of_ne (targetName_ne_compressedFileName _ _ _).symm
      (Util.temporaryName_ne_compressedFileName _ _ _).symm compressedFileName_ne_fileName
      fun he => hfile (Util.compressedFileName_injective he)

end S3Util

/-! ### Where the entries are filed -/

/-- The entry of the name is either negative or served from the file of the name. -/
def World.Filed (p : Platform) (conf : Configuration) (w : World) (name : String) : Prop :=
  ∀ obj, w.cache.get name = some obj →
    obj.fileName = "" ∨ obj.fileName = S3Util.fileName p conf name

namespace S3Util

variable {p : Platform} {conf : Configuration} {env : Fetch} {name : String} {w : World}

lemma fileName_ne_empty : fileName p conf name ≠ "" := by
  intro h
  have := congrArg (fun s => s.toList.length) h
  simp [fileName, String.toList_append] at this

lemma filed_put {obj : S3Object} {files : Files}
    (hobj : obj.fileName = "" ∨ obj.fileName = fileName p conf name)
    {n : String} (h : w.Filed p conf n) :
    World.Filed p conf { cache := w.cache.put name obj, files } n := by
  intro o ho
  by_cases hn : n = name
  · subst hn
    rw [w.cache.get_put_self, Option.some.injEq] at ho
    rw [← ho]
    exact hobj
  · rw [w.cache.get_put_of_ne _ hn] at ho
    exact h o ho

/-- `S3Util::get` files its entries properly. -/
lemma filed_get {n : String} (h : w.Filed p conf n) :
    (get p conf env name w).2.Filed p conf n := by
  cases hl : lookup env.lookupTime name w with
  | some obj =>
      rw [get_of_hit hl]
      exact h
  | none =>
      cases hv : env.answer with
      | success v =>
          rw [get_of_success hl hv]
          obtain ⟨fs, ⟨-, hd⟩ | ⟨-, ⟨-, hd⟩ | ⟨fs', -, -, hd⟩⟩⟩ :=
            download_cases p conf env name w v
          · rw [hd]
            exact h
          · rw [hd]
            exact h
          · rw [hd]
            exact filed_put (.inr rfl) h
      | notFound =>
          rw [get_of_notFound hl hv]
          exact filed_put (.inl rfl) h
      | failure =>
          rw [get_of_failure hl hv]
          exact h

/-- The object a call returns is negative or served from the file of its name. -/
lemma fileName_of_get {o : S3Object} (hfiled : w.Filed p conf name)
    (h : (get p conf env name w).1 = some o) :
    o.fileName = "" ∨ o.fileName = fileName p conf name := by
  cases hl : lookup env.lookupTime name w with
  | some obj =>
      rw [get_of_hit hl, Option.some.injEq] at h
      exact h ▸ hfiled obj (lookup_eq_some_iff.mp hl).1
  | none =>
      cases hv : env.answer with
      | success v =>
          rw [get_of_success hl hv] at h
          obtain ⟨fs, ⟨-, hd⟩ | ⟨-, ⟨-, hd⟩ | ⟨fs', -, -, hd⟩⟩⟩ :=
            download_cases p conf env name w v
          · simp [hd] at h
          · simp [hd] at h
          · rw [hd, Option.some.injEq] at h
            exact .inr (h ▸ rfl)
      | notFound =>
          rw [get_of_notFound hl hv, Option.some.injEq] at h
          exact .inl (h ▸ rfl)
      | failure =>
          rw [get_of_failure hl hv] at h
          cases h

/-- The lookup reads nothing but the triple of its name. -/
lemma lookup_congr (now : TimePoint) {w w' : World} (hfiled : w.Filed p conf name)
    (h : w'.triple p conf name = w.triple p conf name) :
    lookup now name w' = lookup now name w := by
  have hentry : w'.cache.get name = w.cache.get name := congrArg Triple.entry h
  have hplain : w'.files (fileName p conf name) = w.files (fileName p conf name) :=
    congrArg Triple.plain h
  rw [lookup_eq, lookup_eq, hentry]
  cases hobj : w.cache.get name with
  | none => rfl
  | some obj =>
      rcases hfiled obj hobj with hf | hf
      · simp [hf]
      · simp [hf, hplain]

end S3Util

end S3Proxy
