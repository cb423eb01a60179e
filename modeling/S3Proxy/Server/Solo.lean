import S3Proxy.Server.Interleaving

/-!
# One request on its own

The steps of the interleaved model, taken by one thread without interruption, do what the handlers
do.  `solo_get` is about `S3Util::get`: the lookup, and the refresh if there is nothing to be found.
`solo_serve` is about the rest of `server::get`: the compression on demand, and the body that is
read.

## Main result

`solo_request` is both together.  A thread that is idle and is given a request comes, after some
number of steps in which no other thread moves, to the end of the request, with the triple that the
functions leave and the body that they answer with.  So the two models describe one program:
`Server.Interleaving` at the granularity at which threads meet, `Server.S3Util` and
`Server.Resource` as functions.

`solo_refresh` is the part behind a failed lookup, a download in which nothing fails, and
`solo_send` the part from the size of the file on.  `lookup_triple` says that the lookup on the
triple is the lookup in the cache.

## Hypotheses

The state of the threads shows the triple of the world, the thread is at rest, and the entries are
filed under their names.  File operations succeed, as they do in the interleaved model; what happens
when they fail is in `Server.Refresh`.

## What it rests on

`download_triple` of `Server.Triple`, and `exec_append_of` of `Library.Run` for the composition of
the parts.
-/

namespace S3Proxy

/-- The compression on demand, on the triple. -/
def Triple.withGzip (gzip : Gzip) (compressed : Bool) (t : Triple) : Triple :=
  if compressed && t.gz.isNone then { t with gz := some (gzip.compress (t.plain.getD [])) } else t

namespace Interleaving

variable {p : Platform} {conf : Configuration} {name : String} {ι : Type*} [DecidableEq ι]
  {s : State ι} {i : ι} {ask : Ask} {obj : S3Object} {now : TimePoint} {w : World}

/-! ### The functions, on the triple -/

/-- What the handler leaves in the triple when it has compressed on demand. -/
lemma triple_withGzip (hfile : obj.fileName = S3Util.fileName p conf name) (compressed : Bool) :
    World.triple p conf { w with files := Resource.withGzip p compressed obj w.files } name =
      (w.triple p conf name).withGzip p.gzip compressed := by
  have hgzPlain : S3Util.fileName p conf name ≠
      Util.compressedFileName (S3Util.fileName p conf name) :=
    S3Util.compressedFileName_ne_fileName.symm
  unfold Triple.withGzip Resource.withGzip
  rw [hfile]
  by_cases hgz : (compressed &&
      (w.files (Util.compressedFileName (S3Util.fileName p conf name))).isNone) = true
  · rw [if_pos hgz, if_pos (show (compressed && (w.triple p conf name).gz.isNone) = true from hgz)]
    exact Triple.ext rfl (FileStore.write_of_ne hgzPlain) FileStore.write_self
  · rw [if_neg hgz,
      if_neg (show ¬ (compressed && (w.triple p conf name).gz.isNone) = true from hgz)]

variable (now) in
/-- The lookup reads the triple, if the entry is not negative. -/
lemma lookup_triple (hfiled : ∀ obj, w.cache.get name = some obj →
    obj.fileName = S3Util.fileName p conf name) :
    lookup now (w.triple p conf name) = S3Util.lookup now name w := by
  rw [S3Util.lookup_eq, lookup, World.triple]
  cases hget : w.cache.get name with
  | none => rfl
  | some obj =>
      have hfile := hfiled obj hget
      have hne : obj.fileName ≠ "" := hfile ▸ S3Util.fileName_ne_empty
      simp [hfile, S3Util.fileName_ne_empty]

/-! ### Runs of one thread -/

variable (p conf name now) in
/-- A refresh without interruption is a download in which nothing fails. -/
lemma solo_refresh (hpc : s.pc i = .getObject ask) :
    ∃ n t, PartialStep.exec (step p conf name) s (List.replicate n (.run i now)) = some t ∧
      t.triple = (s.triple.download p.gzip (build p conf name now s.current)
        (some s.current.body) .completes true).2 ∧
      t.pc i = .serve ask (build p conf name now s.current) := by
  rw [Triple.download_of_renamed fun _ => rfl]
  cases hgz : s.triple.gz with
  | none =>
      exact ⟨5, _, by simp [List.replicate, step, hpc, advance, hgz]; rfl, by simp, by simp⟩
  | some g =>
      exact ⟨6, _, by simp [List.replicate, step, hpc, advance, hgz]; rfl, by simp, by simp⟩

variable (now ask) in
/-- **A call of `S3Util::get` without interruption** leaves the triple that the function leaves,
and the thread goes on with the object that the function returns. -/
lemma solo_get (htriple : s.triple = w.triple p conf name) (hidle : (s.pc i).inProgress = false)
    (hfiled : ∀ obj, w.cache.get name = some obj → obj.fileName = S3Util.fileName p conf name) :
    ∃ n t obj, PartialStep.exec (step p conf name) s
        (.request i ask now :: List.replicate n (.run i now)) = some t ∧
      t.triple = (S3Util.get p conf (.at now s.current) name w).2.triple p conf name ∧
      (S3Util.get p conf (.at now s.current) name w).1 = some obj ∧
      obj.fileName = S3Util.fileName p conf name ∧ t.triple.plain.isSome ∧
      t.pc i = .serve ask obj := by
  have hlookup := lookup_triple now hfiled
  rw [← htriple] at hlookup
  cases hl : S3Util.lookup now name w with
  | some obj =>
      rw [S3Util.get_of_hit hl]
      refine ⟨0, { s with pc := Function.update s.pc i (.serve ask obj) }, obj, ?_, htriple, rfl,
        hfiled obj (S3Util.lookup_eq_some_iff.mp hl).1,
        (lookup_eq_some_iff.mp (hlookup.trans hl)).2.2, Function.update_self ..⟩
      simp [step, hidle, hlookup, hl, Pc.start]
  | none =>
      rw [S3Util.get_of_success hl rfl]
      have hdown := S3Util.download_triple p conf (.at now s.current) name w s.current
      have hstart : step p conf name s (.request i ask now) =
          some { s with pc := Function.update s.pc i (.getObject ask) } := by
        simp [step, hidle, hlookup, hl, Pc.start]
      obtain ⟨n, t, hrun, ht, hpc⟩ := solo_refresh p conf name now
        (s := { s with pc := Function.update s.pc i (.getObject ask) }) (i := i)
        (Function.update_self i (.getObject ask) s.pc)
      refine ⟨n, t, build p conf name now s.current, ?_, ?_, ?_, rfl, ?_, hpc⟩
      · rw [PartialStep.exec_cons, hstart]
        exact hrun
      · rw [ht, htriple]
        exact (congrArg Prod.snd hdown).symm
      · refine (congrArg Prod.fst hdown).trans ?_
        exact congrArg Prod.fst (Triple.download_of_renamed fun _ => rfl)
      · rw [ht, Triple.download_of_renamed fun _ => rfl]
        rfl

variable (p conf name now) in
/-- The part from `getFileSize` on reads the whole of the served file. -/
lemma solo_send {content : Bytes} (hpc : s.pc i = .fileSize ask obj)
    (hserved : served ask s.triple = some content) :
    ∃ n t, PartialStep.exec (step p conf name) s (List.replicate n (.run i now)) = some t ∧
      t.triple = s.triple ∧
      t.pc i = .done (if ask.body then some ⟨obj, ask.gzip, content, content⟩ else none) := by
  cases hbody : ask.body with
  | false =>
      exact ⟨2, _, by simp [List.replicate, step, hpc, advance, hserved, hbody]; rfl, by simp,
        by simp⟩
  | true =>
      exact ⟨4, _, by simp [List.replicate, step, hpc, advance, hserved, hbody]; rfl, by simp,
        by simp [Resource.readInto_self]⟩

variable (p conf name now) in
/-- **The rest of `server::get` without interruption** compresses on demand and reads the whole of
the served file. -/
lemma solo_serve (hpc : s.pc i = .serve ask obj) (hplain : s.triple.plain.isSome) :
    ∃ n t content, PartialStep.exec (step p conf name) s (List.replicate n (.run i now)) = some t ∧
      t.triple = s.triple.withGzip p.gzip ask.gzip ∧ served ask t.triple = some content ∧
      t.pc i = .done (if ask.body then some ⟨obj, ask.gzip, content, content⟩ else none) := by
  obtain ⟨b, hb⟩ := Option.isSome_iff_exists.mp hplain
  -- whatever happens first, `getFileSize` finds the file
  obtain ⟨n, u, content, hrun, htriple, hserved, hu⟩ : ∃ n u content,
      PartialStep.exec (step p conf name) s (List.replicate n (.run i now)) = some u ∧
      u.triple = s.triple.withGzip p.gzip ask.gzip ∧ served ask u.triple = some content ∧
      u.pc i = .fileSize ask obj := by
    cases hgzip : ask.gzip with
    | false =>
        refine ⟨0, s, b, rfl, by simp [Triple.withGzip], by simp [served, hgzip, hb], ?_⟩
        simpa [Pc.serve, hgzip] using hpc
    | true =>
        rw [Pc.serve, if_pos hgzip] at hpc
        cases hgz : s.triple.gz with
        | none =>
            exact ⟨3, _, _, by simp [List.replicate, step, hpc, advance, hgz]; rfl,
              by simp [Triple.withGzip, hgz], by simp [served, hgzip]; rfl, by simp⟩
        | some g =>
            exact ⟨1, _, g, by simp [List.replicate, step, hpc, advance, hgz]; rfl,
              by simp [Triple.withGzip, hgz], by simp [served, hgzip, hgz], by simp⟩
  obtain ⟨m, t, hrun', htriple', ht⟩ := solo_send p conf name now hu hserved
  refine ⟨n + m, t, content, ?_, htriple'.trans htriple, htriple' ▸ hserved, ht⟩
  rw [List.replicate_add]
  exact PartialStep.exec_append_of hrun hrun'

/-- **A request without interruption** is `S3Util::get`, the compression on demand and a read of
the served file, in this order. -/
theorem solo_request (htriple : s.triple = w.triple p conf name)
    (hidle : (s.pc i).inProgress = false)
    (hfiled : ∀ obj, w.cache.get name = some obj → obj.fileName = S3Util.fileName p conf name) :
    ∃ n t obj content, PartialStep.exec (step p conf name) s
        (.request i ask now :: List.replicate n (.run i now)) = some t ∧
      (S3Util.get p conf (.at now s.current) name w).1 = some obj ∧
      t.triple =
        World.triple p conf { (S3Util.get p conf (.at now s.current) name w).2 with
          files := Resource.withGzip p ask.gzip obj
            (S3Util.get p conf (.at now s.current) name w).2.files } name ∧
      served ask t.triple = some content ∧
      t.pc i = .done (if ask.body then some ⟨obj, ask.gzip, content, content⟩ else none) := by
  obtain ⟨n, u, obj, hrun, hu, hobj, hfile, hplain, hpc⟩ := solo_get ask now htriple hidle
    hfiled
  obtain ⟨m, t, content, hrun', ht, hserved, hdone⟩ := solo_serve p conf name now hpc
    hplain
  refine ⟨n + m, t, obj, content, ?_, hobj, ?_, hserved, hdone⟩
  · rw [List.replicate_add, ← List.cons_append]
    exact PartialStep.exec_append_of hrun hrun'
  · rw [triple_withGzip hfile, ← hu]
    exact ht

end Interleaving

end S3Proxy
