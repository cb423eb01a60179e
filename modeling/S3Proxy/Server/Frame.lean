import S3Proxy.Server.Resource
import S3Proxy.Server.Triple

/-!
# Objects do not interfere

All the files of an object, its temporaries included, carry the same hash: `family`.
`World.AgreeOn` says that two worlds look the same to whoever asks for a name, or for any other name
of the same hash: the entries agree, and the family of files does.

The argument is the usual one for non-interference.  A call for a name with another hash leads to a
world that agrees with the one before (`agreeOn_get_of_hash_ne`); a call for the name itself does
the same thing in worlds that agree, and keeps them in agreement (`get_congr`); and the handler
gives the same answer in both (`Resource.get_congr`).  The metadata cache is keyed by the name
itself and needs no hash to keep names apart.

## Main result

`get_noninterference`: a call for one name leaves the entry of every other name as it was; if the
two have different hashes it leaves the files of the other name as well, and every later request for
the other name, after any further calls, is answered as if the first call had not been made.

`Call.agreeOn_run` is the step, for a call of any name, and `Call.agreeOn_foldl` the run.  The
`congr` lemmas before them go down to the single operations on files, in the order of the code.

## Hypotheses

The last part is about reachable worlds (`World.Reachable`), in which every entry is filed under its
name.  That the hashes differ is a hypothesis where files are concerned: with one hash the second
name is answered with the file of the first, and `get_interference` has such a run.

## What it rests on

The frame lemmas of `Library.FileStore` and `Server.Triple`, and the definition of the handler in
`Server.Resource`.
-/

namespace S3Proxy

variable {p : Platform} {conf : Configuration} {origins : List String} {fetch : Fetch}
  {env : Serve} {req : Request} {w w' w'' : World} {a b c : String}

/-- The files of an object: the plain one, and all those named after it behind a dot. -/
def family (p : Platform) (conf : Configuration) (b : String) : Set String :=
  {n | n = S3Util.fileName p conf b ∨ ∃ s, n = S3Util.fileName p conf b ++ "." ++ s}

namespace S3Util

lemma fileName_mem_family : fileName p conf b ∈ family p conf b := .inl rfl

lemma compressedFileName_mem_family :
    Util.compressedFileName (fileName p conf b) ∈ family p conf b :=
  .inr ⟨"gz", by rw [Util.compressedFileName, String.append_assoc]; rfl⟩

lemma targetName_mem_family (now : TimePoint) :
    targetName (fileName p conf b) now ∈ family p conf b := .inr ⟨_, rfl⟩

lemma temporaryName_mem_family (t t' : TimePoint) :
    Util.temporaryName (targetName (fileName p conf b) t) t' ∈ family p conf b :=
  .inr ⟨toString t ++ toString t', String.append_assoc⟩

end S3Util

/-- The two worlds hold the same for all names with the hash of `b`. -/
structure World.AgreeOn (p : Platform) (conf : Configuration) (b : String) (w w' : World) :
    Prop where
  entries : ∀ c, p.hash c = p.hash b → w'.cache.get c = w.cache.get c
  files : Set.EqOn w'.files w.files (family p conf b)

namespace World.AgreeOn

lemma refl (w : World) : w.AgreeOn p conf b w := ⟨fun _ _ => rfl, fun _ _ => rfl⟩

lemma symm (h : w.AgreeOn p conf b w') : w'.AgreeOn p conf b w :=
  ⟨fun c hc => (h.entries c hc).symm, h.files.symm⟩

lemma trans (h : w.AgreeOn p conf b w') (h' : w'.AgreeOn p conf b w'') :
    w.AgreeOn p conf b w'' :=
  ⟨fun c hc => (h'.entries c hc).trans (h.entries c hc), h'.files.trans h.files⟩

lemma of_hash_eq (hc : p.hash c = p.hash b) (h : w.AgreeOn p conf b w') :
    w.AgreeOn p conf c w' := by
  refine ⟨fun d hd => h.entries d (hd.trans hc), ?_⟩
  have hfamily : family p conf c = family p conf b := by
    rw [family, family, S3Util.fileName_eq_iff.mpr hc]
  rw [hfamily]
  exact h.files

end World.AgreeOn

/-- Worlds that agree on a name have the same triple for it. -/
lemma World.AgreeOn.triple (h : w.AgreeOn p conf b w') :
    w'.triple p conf b = w.triple p conf b :=
  Triple.ext (h.entries b rfl) (h.files S3Util.fileName_mem_family)
    (h.files S3Util.compressedFileName_mem_family)

/-- The worlds a proxy can be in: started on any directory, with lookups, cache clears and any
changes of the files. -/
inductive World.Reachable (p : Platform) (conf : Configuration) : World → Prop
  | start (files : Files) : Reachable p conf ⟨ExpirationCache.empty, files⟩
  | get (fetch : Fetch) (name : String) {w : World} (h : Reachable p conf w) :
      Reachable p conf (S3Util.get p conf fetch name w).2
  | clear {w : World} (h : Reachable p conf w) :
      Reachable p conf { w with cache := w.cache.clear }
  | files (files : Files) {w : World} (h : Reachable p conf w) :
      Reachable p conf { w with files }

/-- In every reachable world the entries are filed under their names. -/
lemma World.Reachable.filed (h : w.Reachable p conf) (name : String) : w.Filed p conf name := by
  induction h with
  | start files => exact fun obj hobj => absurd hobj (by simp)
  | get fetch n h ih => exact S3Util.filed_get ih
  | clear h ih => exact fun obj hobj => absurd hobj (by simp)
  | files fs h ih => exact ih

namespace S3Util

/-! ### The family of an object -/

/-- Names with different hashes have no file in common. -/
lemma notMem_family_of_hash_ne (h : p.hash a ≠ p.hash b) {n : String}
    (hn : n ∈ family p conf a) : n ∉ family p conf b := by
  -- the numerals end where the first dot stands
  have htake : ∀ (x : UInt64) (l : List Char),
      ((toString x.toNat).toList ++ (".".toList ++ l)).takeWhile Char.isDigit =
        (toString x.toNat).toList := by
    intro x l
    rw [List.takeWhile_append_of_pos fun c hc => Decimal.isDigit_of_mem_toString_nat hc]
    exact List.append_nil _
  obtain rfl | ⟨s, rfl⟩ := hn <;> rintro (hb | ⟨t, hb⟩)
  · exact h (fileName_eq_iff.mp hb)
  · exact fileName_append_dot_ne _ hb.symm
  · exact fileName_append_dot_ne _ hb
  · have hb' := congrArg String.toList hb
    simp only [fileName, String.toList_append, List.append_assoc] at hb'
    have hdigits := congrArg (List.takeWhile Char.isDigit)
      (List.append_cancel_left (List.append_cancel_left hb'))
    rw [htake, htake] at hdigits
    exact h (UInt64.toNat_inj.mp (Decimal.toString_nat_injective (String.toList_inj.mp hdigits)))

/-- **The frame.**  A call for a name with another hash leads to a world that agrees. -/
lemma agreeOn_get_of_hash_ne (h : p.hash a ≠ p.hash b) :
    w.AgreeOn p conf b (get p conf fetch a w).2 := by
  refine ⟨fun c hc => get_cache_of_ne ?_, fun n hn => ?_⟩
  · rintro rfl
    exact h hc
  · have hne : ∀ {m}, m ∈ family p conf a → n ≠ m := by
      rintro m hm rfl
      exact notMem_family_of_hash_ne h hm hn
    exact get_files_of_ne (hne (targetName_mem_family _)) (hne (temporaryName_mem_family _ _))
      (hne fileName_mem_family) (hne compressedFileName_mem_family)

/-! ### Worlds that agree -/

lemma agreeOn_put (h : w.AgreeOn p conf b w') {files files' : Files}
    (hfiles : Set.EqOn files' files (family p conf b)) (obj : S3Object) :
    World.AgreeOn p conf b { cache := w.cache.put b obj, files }
      { cache := w'.cache.put b obj, files := files' } := by
  refine ⟨fun c hc => ?_, hfiles⟩
  by_cases hcb : c = b
  · simp only [hcb, ExpirationCache.get_put_self]
  · simp only [ExpirationCache.get_put_of_ne _ _ hcb, h.entries c hc]

variable (fetch) in
/-- In files that agree the compressed file is refreshed alike. -/
lemma recompress_congr {fs fs' : Files} (h : Set.EqOn fs' fs (family p conf b)) :
    (∃ gs gs', recompress p fetch (fileName p conf b) fs = .error gs ∧
        recompress p fetch (fileName p conf b) fs' = .error gs' ∧
        Set.EqOn gs' gs (family p conf b)) ∨
      ∃ gs gs', recompress p fetch (fileName p conf b) fs = .ok gs ∧
        recompress p fetch (fileName p conf b) fs' = .ok gs' ∧
        Set.EqOn gs' gs (family p conf b) := by
  unfold recompress
  dsimp only
  rw [h compressedFileName_mem_family]
  split_ifs
  · cases fetch.compress with
    | completes =>
        rw [Util.compress_completes, Util.compress_completes, h (targetName_mem_family _)]
        exact .inr ⟨_, _, rfl, rfl, FileStore.eqOn_write (FileStore.eqOn_remove h)⟩
    | throws leftover =>
        cases leftover with
        | none => exact .inl ⟨_, _, rfl, rfl, h⟩
        | some l => exact .inl ⟨_, _, rfl, rfl, FileStore.eqOn_write h⟩
  · exact .inr ⟨_, _, rfl, rfl, h⟩

/-- In worlds that agree a download has the same result, and leads to worlds that agree. -/
lemma download_congr (h : w.AgreeOn p conf b w') (v : Version) :
    (download p conf fetch b v w').1 = (download p conf fetch b v w).1 ∧
      (download p conf fetch b v w).2.AgreeOn p conf b (download p conf fetch b v w').2 := by
  have hwrite : Set.EqOn (writeTarget fetch (fileName p conf b) v w'.files)
      (writeTarget fetch (fileName p conf b) v w.files) (family p conf b) := by
    intro n hn
    unfold writeTarget
    rw [h.files (targetName_mem_family _)]
    by_cases hnt : n = targetName (fileName p conf b) fetch.targetTime
    · rw [hnt, Function.update_self, Function.update_self]
    · rw [Function.update_of_ne hnt, Function.update_of_ne hnt, h.files hn]
  obtain ⟨gs, gs', hgs, hgs', heq⟩ | ⟨gs, gs', hgs, hgs', heq⟩ :=
    recompress_congr fetch hwrite
  · rw [download_of_error hgs, download_of_error hgs']
    exact ⟨rfl, h.entries, heq⟩
  · cases hren : fetch.renames with
    | false =>
        rw [download_of_stuck hgs (.inl hren), download_of_stuck hgs' (.inl hren)]
        exact ⟨rfl, h.entries, heq⟩
    | true =>
        obtain ⟨hnone, hnone'⟩ | ⟨fs, fs', hfs, hfs', heq'⟩ :=
          FileStore.eqOn_rename (fileName p conf b) heq
            (targetName_mem_family fetch.targetTime)
        · rw [download_of_stuck hgs (.inr (FileStore.rename_eq_none_iff.mp hnone)),
            download_of_stuck hgs' (.inr (FileStore.rename_eq_none_iff.mp hnone'))]
          exact ⟨rfl, h.entries, heq⟩
        · rw [download_of_renamed hgs hren hfs, download_of_renamed hgs' hren hfs']
          exact ⟨rfl, agreeOn_put h heq' _⟩

variable (fetch) in
/-- In worlds that agree on a name, a call for it has the same result and leads to worlds that
agree. -/
lemma get_congr (hfiled : w.Filed p conf b) (h : w.AgreeOn p conf b w') :
    (get p conf fetch b w').1 = (get p conf fetch b w).1 ∧
      (get p conf fetch b w).2.AgreeOn p conf b (get p conf fetch b w').2 := by
  have hlookup := lookup_congr fetch.lookupTime hfiled h.triple
  cases hl : lookup fetch.lookupTime b w with
  | some obj =>
      rw [get_of_hit hl, get_of_hit (hlookup.trans hl)]
      exact ⟨rfl, h⟩
  | none =>
      rw [hl] at hlookup
      cases hv : fetch.answer with
      | success v =>
          rw [get_of_success hl hv, get_of_success hlookup hv]
          exact download_congr h v
      | notFound =>
          rw [get_of_notFound hl hv, get_of_notFound hlookup hv]
          exact ⟨rfl, agreeOn_put h h.files _⟩
      | failure =>
          rw [get_of_failure hl hv, get_of_failure hlookup hv]
          exact ⟨rfl, h⟩

end S3Util

namespace Resource

variable (p env) in
/-- The compression on demand looks at the two files of the object only. -/
lemma ensureCompressed_congr (compressed : Bool) {o : S3Object} {files files' : Files}
    (hplain : files' o.fileName = files o.fileName)
    (hgz : files' (Util.compressedFileName o.fileName) =
      files (Util.compressedFileName o.fileName)) :
    (∃ fs fs', ensureCompressed p env compressed o files = .error fs ∧
        ensureCompressed p env compressed o files' = .error fs') ∨
      ∃ fs fs', ensureCompressed p env compressed o files = .ok fs ∧
        ensureCompressed p env compressed o files' = .ok fs' ∧
        fs' (servedFile compressed o) = fs (servedFile compressed o) := by
  cases compressed with
  | false => exact .inr ⟨files, files', rfl, rfl, hplain⟩
  | true =>
      unfold ensureCompressed servedFile
      simp only [if_true, Bool.true_and, hgz]
      split_ifs with hmissing hexists
      · exact .inr ⟨files, files', rfl, rfl, hgz⟩
      · cases hc : env.compress with
        | completes =>
            rw [Util.compress_completes, Util.compress_completes]
            refine .inr ⟨_, _, rfl, rfl, ?_⟩
            rw [FileStore.write_self, FileStore.write_self, hplain]
        | throws leftover =>
            cases leftover with
            | none => exact .inl ⟨_, _, rfl, rfl⟩
            | some l => exact .inl ⟨_, _, rfl, rfl⟩
      · exact .inr ⟨files, files', rfl, rfl, hgz⟩

/-- What is behind the size of the file reads only the served file. -/
lemma respond_congr {o : S3Object} {fn : String} {files files' : Files} {resp : Response}
    (h : files' fn = files fn) :
    respond p origins env req o fn files' resp = respond p origins env req o fn files resp := by
  unfold respond openFile
  rw [h]

lemma serve_congr {o : S3Object} {resp : Response}
    (hplain : w'.files o.fileName = w.files o.fileName)
    (hgz : w'.files (Util.compressedFileName o.fileName) =
      w.files (Util.compressedFileName o.fileName)) :
    (serve p conf origins env req o resp w').1 = (serve p conf origins env req o resp w).1 := by
  unfold serve chooseFile
  dsimp only
  obtain ⟨fs, fs', h, h'⟩ | ⟨fs, fs', h, h', hserved⟩ :=
    ensureCompressed_congr p env (wantsGzip conf req resp.path) hplain hgz
  · rw [h, h']
  · rw [h, h']
    dsimp only
    rw [fileSize, fileSize, hserved]
    cases (if env.sizeFails then none
        else (fs (servedFile (wantsGzip conf req resp.path) o)).map List.length) with
    | none => rfl
    | some size =>
        cases env.recheckFails with
        | true => rfl
        | false => exact respond_congr hserved

/-- **The answer depends on the name's artefacts only.** -/
lemma get_congr (hfiled : w.Filed p conf (objectKey (targetPath req.path)))
    (h : w.AgreeOn p conf (objectKey (targetPath req.path)) w') :
    (get p conf origins fetch env req w').1 = (get p conf origins fetch env req w).1 := by
  obtain ⟨hres, hagree⟩ := S3Util.get_congr fetch hfiled h
  unfold get getWith
  dsimp only [id_eq]
  split
  · rfl
  split
  · rfl
  cases hget : S3Util.get p conf fetch (objectKey (targetPath req.path)) w with
  | mk r v =>
      cases hget' : S3Util.get p conf fetch (objectKey (targetPath req.path)) w' with
      | mk r' v' =>
          rw [hget, hget'] at hres hagree
          dsimp only at hres hagree
          subst hres
          cases r' with
          | none => rfl
          | some o =>
              dsimp only
              split
              · rfl
              · rename_i hne
                have hfile : o.fileName =
                    S3Util.fileName p conf (objectKey (targetPath req.path)) :=
                  (S3Util.fileName_of_get hfiled (by rw [hget])).resolve_left hne
                apply serve_congr
                · rw [hfile]
                  exact hagree.files S3Util.fileName_mem_family
                · rw [hfile]
                  exact hagree.files S3Util.compressedFileName_mem_family

end Resource

/-! ### Later calls -/

/-- A call of a member function of `S3Util`. -/
inductive Call
  | get (fetch : Fetch) (name : String)
  | clear (authKey : String)

/-- The world after a call. -/
def Call.run (p : Platform) (conf : Configuration) (w : World) : Call → World
  | .get fetch name => (S3Util.get p conf fetch name w).2
  | .clear authKey => (S3Util.clear conf authKey w).2

lemma Call.reachable_run (hw : w.Reachable p conf) (call : Call) :
    (call.run p conf w).Reachable p conf := by
  cases call with
  | get fetch name => exact hw.get fetch name
  | clear authKey =>
      simp only [Call.run, S3Util.clear]
      split_ifs
      · exact hw.clear
      · exact hw

/-- Worlds that agree are kept in agreement by every call, whatever it is for. -/
lemma Call.agreeOn_run (hw : w.Reachable p conf) (h : w.AgreeOn p conf b w') (call : Call) :
    (call.run p conf w).AgreeOn p conf b (call.run p conf w') := by
  cases call with
  | get fetch name =>
      by_cases hhash : p.hash name = p.hash b
      · exact (S3Util.get_congr fetch (hw.filed name) (h.of_hash_eq hhash)).2.of_hash_eq hhash.symm
      · exact ((S3Util.agreeOn_get_of_hash_ne hhash).symm.trans h).trans
          (S3Util.agreeOn_get_of_hash_ne hhash)
  | clear authKey =>
      simp only [Call.run, S3Util.clear]
      split_ifs
      · exact ⟨fun _ _ => rfl, h.files⟩
      · exact h

lemma Call.agreeOn_foldl (calls : List Call) (hw : w.Reachable p conf)
    (h : w.AgreeOn p conf b w') :
    (calls.foldl (Call.run p conf) w).AgreeOn p conf b (calls.foldl (Call.run p conf) w') := by
  induction calls generalizing w w' with
  | nil => exact h
  | cons call calls ih => exact ih (call.reachable_run hw) (call.agreeOn_run hw h)

lemma Call.reachable_foldl (calls : List Call) (hw : w.Reachable p conf) :
    (calls.foldl (Call.run p conf) w).Reachable p conf := by
  induction calls generalizing w with
  | nil => exact hw
  | cons call calls ih => exact ih (call.reachable_run hw)

/-- **Objects do not interfere.**  A call for one name leaves the entry of every other name as it
is.  If the hash tells the two apart it also leaves the files of the other one as they are, and
from a reachable world on, after any further calls, a request for the other object is answered as
if the call had not been made. -/
theorem get_noninterference (hab : a ≠ b) :
    (S3Util.get p conf fetch a w).2.cache.get b = w.cache.get b ∧
      (p.hash a ≠ p.hash b →
        (S3Util.get p conf fetch a w).2.triple p conf b = w.triple p conf b ∧
          (w.Reachable p conf →
            ∀ (calls : List Call) (fetch' : Fetch) (env : Serve) (req : Request),
              Resource.objectKey (Resource.targetPath req.path) = b →
                (Resource.get p conf origins fetch' env req
                    (calls.foldl (Call.run p conf) (S3Util.get p conf fetch a w).2)).1 =
                  (Resource.get p conf origins fetch' env req
                    (calls.foldl (Call.run p conf) w)).1)) := by
  refine ⟨S3Util.get_cache_of_ne hab.symm, fun hhash => ?_⟩
  have hagree : w.AgreeOn p conf b (S3Util.get p conf fetch a w).2 :=
    S3Util.agreeOn_get_of_hash_ne hhash
  refine ⟨hagree.triple, fun hw calls fetch' env req hkey => ?_⟩
  subst hkey
  exact Resource.get_congr ((Call.reachable_foldl calls hw).filed _)
    (Call.agreeOn_foldl calls hw hagree)

/-- Two names that the hash tells apart, and a request for the second after a call for the
first. -/
theorem get_noninterference_apart :
    (Resource.get .sample {} [] (.at 2 (.plainText [7] "v" 0)) { compressTime := 2 }
        ⟨"GET", "/bb", []⟩
        (S3Util.get .sample {} (.at 1 (.plainText [5] "u" 0)) "/a" .init).2).1 =
      (Resource.get .sample {} [] (.at 2 (.plainText [7] "v" 0)) { compressTime := 2 }
        ⟨"GET", "/bb", []⟩ .init).1 :=
  ((get_noninterference (b := "/bb") (by decide)).2 (by decide)).2 (.start _) [] _ _
    ⟨"GET", "/bb", []⟩ (by decide)

/-- Two names of one hash: after a call for the first the second is answered with the bytes of
the first, under its own etag. -/
theorem get_interference :
    let w := (S3Util.get .sample {} (.at 1 (.plainText [7] "v" 0)) "/b" .init).2
    let env : Serve := { compressTime := 3 }
    let fetch : Fetch := .at 3 (.plainText [7] "v" 0)
    (Resource.get .sample {} [] fetch env ⟨"GET", "/b", []⟩ w).1.body = [7] ∧
      (Resource.get .sample {} [] fetch env ⟨"GET", "/b", []⟩
        (S3Util.get .sample {} (.at 2 (.plainText [5] "u" 0)) "/a" w).2).1.body = [5] := by
  decide

end S3Proxy
