import S3Proxy.Library.Run
import S3Proxy.Server.Refresh
import S3Proxy.Server.Serving

/-!
# Freshness and fidelity, one operation after another

`Site` is the proxy together with its surroundings: the clock, the bucket with the history of each
object, and a record of what has been fetched.  An `Event` is one operation on it, from beginning to
end.  File operations succeed here; what the bucket answers and how much time passes between the
readings of the clock is up to the event.

## Main result

`faithful_of_run`: in every run of requests, clears, restarts, deletions, changes of objects and
passing time, an answer with status 200 to a GET request is `Faithful`.  Its body is one version of
the object, as it is or as gzip, under the headers of that version, and the version was fetched by
this request or by one that was over less than the time to live before.

The invariant is `World.Sound`, which relates the three artefacts of a name: an entry that is not
negative describes a version that has been fetched, early enough for the time at which the entry
expires, and the plain and the `.gz` file hold that version as far as they are there.
`soundOn_step` keeps it over one event, by `sound_get` for the name that is requested and by the
frame for the others; `soundOn_of_run` is the run, and `faithful_visit` reads the answer off it.

## Hypotheses

The cache is empty in the first state, while the files may be anything.  The hash tells the
requested objects apart, and the temporary of a compression on demand has a fresh name each time
(`FreshNames`).

## What it rests on

`get_of_status` of `Server.Serving` for the answer, `download_triple` and the frame of
`Server.Triple` for the artefacts, and the invariant rule of `Library.Run`.  Runs in which requests
overlap are in `Server.Interleaving` and `Server.Consistency`.
-/

namespace S3Proxy

/-- How the bucket reacts to `GetObject`. -/
inductive Reply
  /-- With the current version, if the object exists. -/
  | current
  | notFound
  | failure
  deriving DecidableEq, Repr

/-- A request and what happens around it. -/
structure Visit where
  req : Request
  reply : Reply
  /-- The time that passes before each reading of the clock, and up to the end. -/
  untilLookup : ℕ := 0
  untilTarget : ℕ := 0
  untilCompress : ℕ := 0
  untilBuilt : ℕ := 0
  untilServe : ℕ := 0
  untilDone : ℕ := 0
  unassigned : ℕ := 0

inductive Event
  | visit (v : Visit)
  /-- A request to clear the cache. -/
  | clear (req : Request)
  /-- The periodic `clearAll`. -/
  | expire
  | restart
  | advance (time : ℕ)
  /-- A file is deleted. -/
  | remove (path : String)
  /-- An object in the bucket is replaced, or deleted. -/
  | change (name : String) (state : Option Version)

/-- A version that was fetched from the bucket, and when the operation was over. -/
structure Fetched where
  name : String
  version : Version
  completed : TimePoint
  deriving DecidableEq

structure Site where
  world : World
  now : TimePoint
  /-- What each object has been in the course of time, latest first. -/
  history : String → List (Option Version)
  fetched : List Fetched

namespace Visit

variable (v : Visit) (s : Site)

/-- The object a request is for. -/
def key : String := Resource.objectKey (Resource.targetPath v.req.path)

/-- The answer of the bucket. -/
def answer : GetObjectOutcome :=
  match v.reply, (s.history v.key).head? with
  | .current, some (some version) => .success version
  | .failure, _ => .failure
  | _, _ => .notFound

def fetch : Fetch where
  answer := v.answer s
  lookupTime := s.now + v.untilLookup
  targetTime := s.now + v.untilLookup + v.untilTarget
  compressTime := s.now + v.untilLookup + v.untilTarget + v.untilCompress
  builtTime := s.now + v.untilLookup + v.untilTarget + v.untilCompress + v.untilBuilt
  unassigned := v.unassigned

def serveTime : TimePoint := (v.fetch s).builtTime + v.untilServe

def doneTime : TimePoint := v.serveTime s + v.untilDone

def serve : Serve where
  compressTime := v.serveTime s

end Visit

namespace Site

variable (p : Platform) (conf : Configuration) (origins : List String)

/-- The version that a request fetches from the bucket, if it gets that far. -/
def fetchedBy (s : Site) (v : Visit) : Option Version :=
  if Resource.illegalPath (Resource.targetPath v.req.path) ∨
      Resource.rejectedQuery conf (Resource.targetPath v.req.path) then none
  else if (S3Util.lookup (v.fetch s).lookupTime v.key s.world).isSome then none
  else
    match v.answer s with
    | .success version => some version
    | _ => none

/-- The answer to a request, and the site after it. -/
def visit (s : Site) (v : Visit) : Response × Site :=
  let answer := Resource.get p conf origins (v.fetch s) (v.serve s) v.req s.world
  (answer.1, { s with
    world := answer.2
    now := v.doneTime s
    fetched := s.fetched ++
      ((s.fetchedBy conf v).map fun version => ⟨v.key, version, v.doneTime s⟩).toList })

def step : PartialStep Site Event
  | s, .visit v => some (s.visit p conf origins v).2
  | s, .clear req => some { s with world := (Resource.clear conf origins req s.world).2 }
  | s, .expire => some { s with world := { s.world with cache := s.world.cache.clearAll } }
  | s, .restart => some { s with world := { s.world with cache := ExpirationCache.empty } }
  | s, .advance d => some { s with now := s.now + d }
  | s, .remove path =>
      some { s with world := { s.world with files := s.world.files.remove path } }
  | s, .change name state =>
      some { s with history := Function.update s.history name (state :: s.history name) }

lemma visit_fst (s : Site) (v : Visit) : (s.visit p conf origins v).1 =
    (Resource.get p conf origins (v.fetch s) (v.serve s) v.req s.world).1 := by
  rw [visit]

lemma world_visit (s : Site) (v : Visit) : (s.visit p conf origins v).2.world =
    (Resource.get p conf origins (v.fetch s) (v.serve s) v.req s.world).2 := by
  rw [visit]

lemma history_visit (s : Site) (v : Visit) :
    (s.visit p conf origins v).2.history = s.history := by
  rw [visit]

lemma now_visit (s : Site) (v : Visit) : (s.visit p conf origins v).2.now = v.doneTime s := by
  rw [visit]

lemma fetched_visit (s : Site) (v : Visit) : (s.visit p conf origins v).2.fetched =
    s.fetched ++
      ((s.fetchedBy conf v).map fun version => ⟨v.key, version, v.doneTime s⟩).toList := by
  rw [visit]

/-- The service has just been started, on a directory with any content. -/
def Started (s : Site) : Prop := s.world.cache = ExpirationCache.empty

/-- The objects that are requested in the course of some events. -/
def requested (es : List Event) : Set String := {n | ∃ v, Event.visit v ∈ es ∧ v.key = n}

/-- The temporary of a compression on demand has a name that no file has when it is written. -/
def FreshNames (s : Site) : Event → Prop
  | .visit v => (S3Util.get p conf (v.fetch s) v.key s.world).2.files
      (Util.temporaryName (S3Util.fileName p conf v.key) (v.serveTime s)) = none
  | _ => True

instance (s : Site) : ∀ e, Decidable (s.FreshNames p conf e)
  | .visit _ => inferInstanceAs (Decidable (_ = _))
  | .clear _ | .expire | .restart | .advance _ | .remove _ | .change .. => .isTrue trivial

/-- What an answer with status 200 has to be: one version of the object, as it is or as gzip,
under its own headers, and fetched by this very request or by an operation that was over less
than the time to live before. -/
def Faithful (s : Site) (v : Visit) (resp : Response) : Prop :=
  ∃ version, some version ∈ s.history v.key ∧
    (resp.headers.equalRange "content-encoding" = [] ∧ resp.body = version.body ∨
      resp.headers.equalRange "content-encoding" = ["gzip"] ∧
        p.gzip.decompress resp.body = version.body) ∧
    resp.headers.equalRange "etag" = [version.etag] ∧
    resp.headers.equalRange "last-modified" = [toWebTime (p.dateTime version.lastModified)] ∧
    (s.fetchedBy conf v = some version ∨
      ∃ completed, ⟨v.key, version, completed⟩ ∈ s.fetched ∧ completed ≤ s.now ∧
        (v.fetch s).lookupTime < completed + seconds conf.ttl)

/-! ### The artefacts of one name -/

end Site

/-- The files of the triple hold the version, as far as they are there. -/
structure Triple.Holds (gzip : Gzip) (t : Triple) (v : Version) : Prop where
  plain : ∀ b, t.plain = some b → b = v.body
  gz : ∀ g, t.gz = some g → gzip.decompress g = v.body

/-- The entry of the name, if it is not negative, describes a version of acceptable `origin`, and
the files hold that version. -/
def World.Sound (p : Platform) (conf : Configuration) (origin : Version → TimePoint → Prop)
    (w : World) (name : String) : Prop :=
  ∀ obj, w.cache.get name = some obj → obj.fileName = "" ∨
    obj.fileName = S3Util.fileName p conf name ∧
      ∃ v, origin v obj.expires ∧ obj.Describes v ∧ (w.triple p conf name).Holds p.gzip v

namespace World.Sound

variable {p : Platform} {conf : Configuration} {origin origin' : Version → TimePoint → Prop}
  {w w' : World} {name : String}

lemma filed (h : w.Sound p conf origin name) : w.Filed p conf name :=
  fun obj hobj => (h obj hobj).imp_right And.left

/-- Entries and files may disappear. -/
lemma mono (h : w.Sound p conf origin name) (horigin : ∀ v t, origin v t → origin' v t)
    (hentry : ∀ obj, w'.cache.get name = some obj → w.cache.get name = some obj)
    (hplain : ∀ b, w'.files (S3Util.fileName p conf name) = some b →
      w.files (S3Util.fileName p conf name) = some b)
    (hgz : ∀ g, w'.files (Util.compressedFileName (S3Util.fileName p conf name)) = some g →
      w.files (Util.compressedFileName (S3Util.fileName p conf name)) = some g) :
    w'.Sound p conf origin' name := by
  intro obj hobj
  rcases h obj (hentry obj hobj) with hneg | ⟨hfile, v, hv, hdesc, hholds⟩
  · exact .inl hneg
  · exact .inr ⟨hfile, v, horigin v _ hv, hdesc,
      ⟨fun b hb => hholds.plain b (hplain b hb), fun g hg => hholds.gz g (hgz g hg)⟩⟩

lemma of_triple_eq (h : w.Sound p conf origin name)
    (ht : w'.triple p conf name = w.triple p conf name) : w'.Sound p conf origin name := by
  have hentry : w'.cache.get name = w.cache.get name := congrArg Triple.entry ht
  intro obj hobj
  rw [ht]
  exact h obj (hentry ▸ hobj)

end World.Sound

namespace S3Util

variable {p : Platform} {conf : Configuration} {origin : Version → TimePoint → Prop}
  {env : Fetch} {w : World} {name : String}

/-- Nothing fails during the call. -/
structure Undisturbed (env : Fetch) : Prop where
  write : env.write = .complete
  compress : env.compress = .completes
  renames : env.renames = true

variable (p conf name w) in
/-- A download in which nothing fails brings the whole triple to the new version. -/
lemma download_undisturbed (henv : Undisturbed env) (v : Version) :
    (download p conf env name v w).1 = some (newObject p conf env name v) ∧
      (download p conf env name v w).2.triple p conf name =
        ⟨some (newObject p conf env name v), some v.body,
          (w.triple p conf name).gz.map fun _ => p.gzip.compress v.body⟩ := by
  have h := download_triple p conf env name w v
  rw [henv.write, henv.compress, henv.renames, WriteOutcome.stored,
    Triple.download_of_renamed fun _ => rfl] at h
  exact Prod.mk.inj h

lemma holds_refreshed {entry : Option S3Object} (v : Version) (gz : Option Bytes) :
    Triple.Holds p.gzip ⟨entry, some v.body, gz.map fun _ => p.gzip.compress v.body⟩ v := by
  refine ⟨fun b hb => (Option.some.inj hb).symm, fun g hg => ?_⟩
  obtain ⟨g', -, rfl⟩ := Option.map_eq_some_iff.mp hg
  exact p.gzip.decompress_compress _

/-- A call in which nothing fails keeps the artefacts sound. -/
lemma sound_get (henv : Undisturbed env) (h : w.Sound p conf origin name)
    (horigin : ∀ v, lookup env.lookupTime name w = none → env.answer = .success v →
      origin v (env.builtTime + seconds conf.ttl)) :
    (get p conf env name w).2.Sound p conf origin name := by
  cases hl : lookup env.lookupTime name w with
  | some obj =>
      rw [get_of_hit hl]
      exact h
  | none =>
      cases hv : env.answer with
      | success v =>
          rw [get_of_success hl hv]
          have htriple := (download_undisturbed p conf w name henv v).2
          intro obj hobj
          have hentry := congrArg Triple.entry htriple
          have heq : newObject p conf env name v = obj :=
            Option.some.inj (hentry.symm.trans hobj)
          subst heq
          refine .inr ⟨rfl, v, horigin v hl hv, newObject_describes v, ?_⟩
          rw [htriple]
          exact holds_refreshed v _
      | notFound =>
          rw [get_of_notFound hl hv]
          intro obj hobj
          rw [ExpirationCache.get_put_self, Option.some.injEq] at hobj
          exact .inl (hobj ▸ rfl)
      | failure =>
          rw [get_of_failure hl hv]
          exact h

/-- A positive object that a call returns has its file in place and describes the version that the
files hold; it was found in the cache, or that version has just been downloaded. -/
lemma found_get (henv : Undisturbed env) (h : w.Sound p conf origin name) {o : S3Object}
    (ho : (get p conf env name w).1 = some o) (hfile : o.fileName ≠ "") :
    ((get p conf env name w).2.files (fileName p conf name)).isSome ∧
      ∃ v, o.Describes v ∧ ((get p conf env name w).2.triple p conf name).Holds p.gzip v ∧
        (lookup env.lookupTime name w = some o ∧ origin v o.expires ∨
          lookup env.lookupTime name w = none ∧ env.answer = .success v) := by
  cases hl : lookup env.lookupTime name w with
  | some obj =>
      rw [get_of_hit hl] at ho ⊢
      have heq : obj = o := Option.some.inj ho
      subst heq
      obtain ⟨hentry, -, hplain⟩ := lookup_eq_some_iff.mp hl
      obtain ⟨hname, v, hv, hdesc, hholds⟩ := (h obj hentry).resolve_left hfile
      rw [hname] at hplain
      exact ⟨hplain.resolve_left fileName_ne_empty, v, hdesc, hholds, .inl ⟨rfl, hv⟩⟩
  | none =>
      cases hv : env.answer with
      | success v =>
          rw [get_of_success hl hv] at ho ⊢
          obtain ⟨hres, htriple⟩ := download_undisturbed p conf w name henv v
          have heq : newObject p conf env name v = o := Option.some.inj (hres.symm.trans ho)
          subst heq
          have hplain := congrArg Triple.plain htriple
          refine ⟨Option.isSome_iff_exists.mpr ⟨_, hplain⟩, v, newObject_describes v, ?_,
            .inr ⟨rfl, rfl⟩⟩
          rw [htriple]
          exact holds_refreshed v _
      | notFound =>
          rw [get_of_notFound hl hv] at ho
          exact absurd (Option.some.inj ho ▸ rfl) hfile
      | failure =>
          rw [get_of_failure hl hv] at ho
          cases ho

end S3Util

section

variable {p : Platform} {conf : Configuration} {origin : Version → TimePoint → Prop} {w : World}
  {name : String} {o : S3Object}

/-- After the compression on demand the files hold the version they held before. -/
lemma World.holds_withGzip {v : Version} (h : (w.triple p conf name).Holds p.gzip v)
    (hfile : o.fileName = S3Util.fileName p conf name)
    (hplain : (w.files (S3Util.fileName p conf name)).isSome) (compressed : Bool) :
    (World.triple p conf { w with files := Resource.withGzip p compressed o w.files }
      name).Holds p.gzip v := by
  have hplain' : Resource.withGzip p compressed o w.files (S3Util.fileName p conf name) =
      w.files (S3Util.fileName p conf name) :=
    Resource.withGzip_of_ne (hfile ▸ S3Util.compressedFileName_ne_fileName.symm)
  refine ⟨fun b hb => h.plain b (hplain'.symm.trans hb), fun g hg => ?_⟩
  have hg' : Resource.withGzip p compressed o w.files (Util.compressedFileName o.fileName) =
      some g := by
    rw [hfile]
    exact hg
  rcases Resource.withGzip_gz hg' with hold | rfl
  · rw [hfile] at hold
    exact h.gz g hold
  · obtain ⟨b, hb⟩ := Option.isSome_iff_exists.mp hplain
    rw [p.gzip.decompress_compress, hfile, hb, Option.getD_some, h.plain b hb]

/-- The content of the served file is the version that the files hold, or its gzip. -/
lemma World.content_of_holds {v : Version} (h : (w.triple p conf name).Holds p.gzip v)
    (hfile : o.fileName = S3Util.fileName p conf name) {compressed : Bool} {content : Bytes}
    (hserved : w.files (Resource.servedFile compressed o) = some content) :
    (compressed = false ∧ content = v.body) ∨
      (compressed = true ∧ p.gzip.decompress content = v.body) := by
  cases compressed with
  | false =>
      rw [Resource.servedFile, if_neg Bool.false_ne_true, hfile] at hserved
      exact .inl ⟨rfl, h.plain content hserved⟩
  | true =>
      rw [Resource.servedFile, if_pos rfl, hfile] at hserved
      exact .inr ⟨rfl, h.gz content hserved⟩

/-- The compression on demand keeps the artefacts of the object it serves sound. -/
lemma World.Sound.withGzip (h : w.Sound p conf origin name)
    (hfile : o.fileName = S3Util.fileName p conf name)
    (hplain : (w.files (S3Util.fileName p conf name)).isSome) (compressed : Bool) :
    World.Sound p conf origin { w with files := Resource.withGzip p compressed o w.files }
      name := by
  intro obj hobj
  rcases h obj hobj with hneg | ⟨hobjFile, v, hv, hdesc, hholds⟩
  · exact .inl hneg
  · exact .inr ⟨hobjFile, v, hv, hdesc, World.holds_withGzip hholds hfile hplain compressed⟩

/-- The compression on demand leaves the artefacts of other objects alone. -/
lemma World.triple_withGzip {b : String} (hfile : o.fileName = S3Util.fileName p conf name)
    (h : p.hash name ≠ p.hash b) (compressed : Bool) :
    World.triple p conf { w with files := Resource.withGzip p compressed o w.files } b =
      w.triple p conf b := by
  refine Triple.ext rfl (Resource.withGzip_of_ne ?_) (Resource.withGzip_of_ne ?_)
  · rw [hfile]
    exact S3Util.compressedFileName_ne_fileName.symm
  · rw [hfile]
    exact fun he => h (S3Util.fileName_eq_iff.mp (Util.compressedFileName_injective he)).symm

end

namespace Site

variable {p : Platform} {conf : Configuration} {origins : List String} {s t : Site} {v : Visit}
  {names : Set String}

/-! ### The invariant -/

/-- The version is one of the object, and has been fetched early enough for an entry that expires
then. -/
def Origin (conf : Configuration) (s : Site) (name : String) (version : Version)
    (expires : TimePoint) : Prop :=
  some version ∈ s.history name ∧ ∃ completed, ⟨name, version, completed⟩ ∈ s.fetched ∧
    completed ≤ s.now ∧ expires ≤ completed + seconds conf.ttl

/-- The artefacts of all the given names are sound. -/
def SoundOn (p : Platform) (conf : Configuration) (names : Set String) (s : Site) : Prop :=
  ∀ n ∈ names, s.world.Sound p conf (s.Origin conf n) n

lemma Origin.mono {n : String} {version : Version} {expires : TimePoint}
    (h : s.Origin conf n version expires) (hhistory : ∀ state ∈ s.history n, state ∈ t.history n)
    (hfetched : ∀ f ∈ s.fetched, f ∈ t.fetched) (hnow : s.now ≤ t.now) :
    t.Origin conf n version expires := by
  obtain ⟨hmem, completed, hf, hle, hexp⟩ := h
  exact ⟨hhistory _ hmem, completed, hfetched _ hf, hle.trans hnow, hexp⟩

lemma answer_mem_history {version : Version} (h : v.answer s = .success version) :
    some version ∈ s.history v.key := by
  unfold Visit.answer at h
  split at h
  · rename_i u _ hhead
    have heq := GetObjectOutcome.success.inj h
    subst heq
    exact List.mem_of_mem_head? hhead
  · cases h
  · cases h

lemma undisturbed_fetch : S3Util.Undisturbed (v.fetch s) := ⟨rfl, rfl, rfl⟩

/-- The clock does not go back during a request. -/
lemma now_le_builtTime : s.now ≤ (v.fetch s).builtTime := by
  simp only [Visit.fetch]
  linarith

lemma builtTime_le_doneTime : (v.fetch s).builtTime ≤ v.doneTime s := by
  simp only [Visit.doneTime, Visit.serveTime]
  linarith

lemma fetchedBy_eq_some {version : Version}
    (hlegal : ¬ (Resource.illegalPath (Resource.targetPath v.req.path) ∨
      Resource.rejectedQuery conf (Resource.targetPath v.req.path)))
    (hlookup : S3Util.lookup (v.fetch s).lookupTime v.key s.world = none)
    (hanswer : v.answer s = .success version) : s.fetchedBy conf v = some version := by
  rw [fetchedBy, if_neg hlegal, hlookup, hanswer]
  rfl

/-- What is of acceptable origin before a request is so after it. -/
lemma Origin.visit {n : String} {version : Version} {expires : TimePoint}
    (h : s.Origin conf n version expires) :
    (s.visit p conf origins v).2.Origin conf n version expires := by
  apply h.mono
  · rw [history_visit]
    exact fun _ hstate => hstate
  · rw [fetched_visit]
    exact fun _ hf => List.mem_append_left _ hf
  · rw [now_visit]
    exact now_le_builtTime.trans builtTime_le_doneTime

/-- The version that a request fetches is of acceptable origin after it. -/
lemma origin_visit_of_fetched {version : Version} (h : s.fetchedBy conf v = some version)
    (hanswer : v.answer s = .success version) :
    (s.visit p conf origins v).2.Origin conf v.key version
      ((v.fetch s).builtTime + seconds conf.ttl) := by
  have hfetched : (⟨v.key, version, v.doneTime s⟩ : Fetched) ∈
      (s.visit p conf origins v).2.fetched := by
    rw [fetched_visit, h]
    apply List.mem_append_right
    exact List.mem_singleton_self _
  have hmem : some version ∈ (s.visit p conf origins v).2.history v.key := by
    rw [history_visit]
    exact answer_mem_history hanswer
  have hnow := (now_visit p conf origins s v).ge
  exact ⟨hmem, v.doneTime s, hfetched, hnow, add_le_add_left builtTime_le_doneTime _⟩

/-- A request keeps the artefacts of the object it is for sound. -/
lemma sound_visit_self (h : s.world.Sound p conf (s.Origin conf v.key) v.key)
    (hfresh : s.FreshNames p conf (.visit v)) :
    (s.visit p conf origins v).2.world.Sound p conf
      ((s.visit p conf origins v).2.Origin conf v.key) v.key := by
  have hsame : s.world.Sound p conf ((s.visit p conf origins v).2.Origin conf v.key) v.key :=
    h.mono (fun _ _ => Origin.visit) (fun _ ho => ho) (fun _ hb => hb) (fun _ hg => hg)
  rw [world_visit]
  by_cases hlegal : Resource.illegalPath (Resource.targetPath v.req.path) ∨
      Resource.rejectedQuery conf (Resource.targetPath v.req.path)
  · rw [Resource.get_of_illegal hlegal]
    exact hsame
  have hget : (S3Util.get p conf (v.fetch s) v.key s.world).2.Sound p conf
      ((s.visit p conf origins v).2.Origin conf v.key) v.key :=
    S3Util.sound_get undisturbed_fetch hsame fun version hlookup hanswer =>
      origin_visit_of_fetched (fetchedBy_eq_some hlegal hlookup hanswer) hanswer
  obtain hw | hw | ⟨o, ho, hfile, hw⟩ := Resource.get_world_cases p conf origins (v.fetch s)
    (v.serve s) v.req s.world rfl rfl hfresh fun o ho => S3Util.fileName_of_get h.filed ho
  · rw [hw]
    exact hsame
  · rw [hw]
    exact hget
  · rw [hw]
    obtain ⟨hplain, -⟩ := S3Util.found_get undisturbed_fetch h ho
      (hfile ▸ S3Util.fileName_ne_empty)
    exact hget.withGzip hfile hplain _

/-- A request leaves the artefacts of an object with another hash as they are. -/
lemma triple_visit_of_ne {n : String} (h : s.world.Filed p conf v.key)
    (hfresh : s.FreshNames p conf (.visit v)) (hhash : p.hash v.key ≠ p.hash n) :
    (s.visit p conf origins v).2.world.triple p conf n = s.world.triple p conf n := by
  have hframe := S3Util.get_triple_of_hash_ne conf (v.fetch s) s.world hhash
  rw [world_visit]
  obtain hw | hw | ⟨o, ho, hfile, hw⟩ := Resource.get_world_cases p conf origins (v.fetch s)
    (v.serve s) v.req s.world rfl rfl hfresh fun o ho => S3Util.fileName_of_get h ho
  · rw [hw]
  · rw [hw]
    exact hframe
  · rw [hw]
    exact (World.triple_withGzip hfile hhash _).trans hframe

/-- **One event** keeps the artefacts sound. -/
lemma soundOn_step {e : Event} (hinj : Set.InjOn p.hash names) (h : s.SoundOn p conf names)
    (hfresh : s.FreshNames p conf e) (hnames : ∀ v, e = .visit v → v.key ∈ names)
    (hstep : step p conf origins s e = some t) : t.SoundOn p conf names := by
  cases e with
  | visit v =>
      have heq : (s.visit p conf origins v).2 = t := Option.some.inj hstep
      subst heq
      intro n hn
      have hkey := hnames v rfl
      by_cases hnv : n = v.key
      · subst hnv
        exact sound_visit_self (h _ hkey) hfresh
      · have hhash : p.hash v.key ≠ p.hash n := fun he => hnv (hinj hkey hn he).symm
        have htriple : (s.visit p conf origins v).2.world.triple p conf n =
            s.world.triple p conf n :=
          triple_visit_of_ne (h _ hkey).filed hfresh hhash
        exact ((h n hn).of_triple_eq htriple).mono (fun _ _ => Origin.visit) (fun _ ho => ho)
          (fun _ hb => hb) (fun _ hg => hg)
  | clear req =>
      have heq := Option.some.inj hstep
      subst heq
      rcases Resource.clear_world_cases conf origins req s.world with hw | hw
      · rw [hw]
        exact h
      · rw [hw]
        exact fun n hn obj hobj => absurd hobj (by simp)
  | expire =>
      have heq := Option.some.inj hstep
      subst heq
      exact fun n hn obj hobj =>
        absurd hobj (by simp [ExpirationCache.clearAll, ExpirationCache.get])
  | restart =>
      have heq := Option.some.inj hstep
      subst heq
      exact fun n hn obj hobj => absurd hobj (by simp)
  | advance d =>
      have heq := Option.some.inj hstep
      subst heq
      exact fun n hn => (h n hn).mono (fun _ _ ho => ho.mono (fun _ hstate => hstate)
        (fun _ hf => hf) (by simp)) (fun _ ho => ho) (fun _ hb => hb) (fun _ hg => hg)
  | remove path =>
      have heq := Option.some.inj hstep
      subst heq
      exact fun n hn => (h n hn).mono (fun _ _ ho => ho) (fun _ ho => ho)
        (fun _ => FileStore.eq_some_of_remove) (fun _ => FileStore.eq_some_of_remove)
  | change name state =>
      have heq := Option.some.inj hstep
      subst heq
      refine fun n hn => (h n hn).mono (fun _ _ ho => ho.mono (fun u hu => ?_) (fun _ hf => hf)
        (le_refl _)) (fun _ ho => ho) (fun _ hb => hb) (fun _ hg => hg)
      by_cases hname : n = name
      · subst hname
        simp only [Function.update_self]
        exact List.mem_cons_of_mem _ hu
      · simp only [Function.update_of_ne hname]
        exact hu

/-! ### Runs -/

lemma soundOn_of_started (h : s.Started) : s.SoundOn p conf names := by
  intro n _ obj hobj
  rw [h] at hobj
  exact absurd hobj (by simp)

/-- Every run of events keeps the artefacts of the requested objects sound. -/
lemma soundOn_of_run {s₀ : Site} {es : List Event} (hstart : s₀.Started)
    (hinj : Set.InjOn p.hash names) (hnames : requested es ⊆ names)
    (hfresh : PartialStep.Along (step p conf origins) (FreshNames p conf) s₀ es)
    (hrun : PartialStep.exec (step p conf origins) s₀ es = some s) : s.SoundOn p conf names := by
  refine PartialStep.exec_induction (I := SoundOn p conf names) ?_ (soundOn_of_started hstart)
    hfresh.and_mem hrun
  rintro s e t hs ⟨hfresh, hmem⟩ hstep
  refine soundOn_step hinj hs hfresh (fun v hv => hnames ⟨v, hv ▸ hmem, rfl⟩) hstep

/-- The answer to one request, from a site with sound artefacts. -/
lemma faithful_visit (h : s.world.Sound p conf (s.Origin conf v.key) v.key)
    (hfresh : s.FreshNames p conf (.visit v)) (hmethod : v.req.method ≠ "HEAD")
    (hstatus : (s.visit p conf origins v).1.status = 200) :
    s.Faithful p conf v (s.visit p conf origins v).1 := by
  rw [visit_fst] at hstatus ⊢
  obtain ⟨o, files, content, hs, hresp⟩ := Resource.get_of_status p conf origins (v.fetch s)
    (v.serve s) v.req s.world hmethod hstatus
  have hlegal : ¬ (Resource.illegalPath (Resource.targetPath v.req.path) ∨
      Resource.rejectedQuery conf (Resource.targetPath v.req.path)) := by
    simp [hs.legal, hs.accepted]
  obtain ⟨hplain, version, hdesc, hholds, hsource⟩ :=
    S3Util.found_get undisturbed_fetch h hs.found hs.hasFile
  have hfile := (S3Util.fileName_of_get h.filed hs.found).resolve_left hs.hasFile
  have heq : Resource.withGzip p (Resource.wantsGzip conf v.req v.key) o
      (S3Util.get p conf (v.fetch s) v.key s.world).2.files = files :=
    Except.ok.inj ((Resource.ensureCompressed_eq_ok rfl rfl (hfile ▸ hfresh) _).symm.trans
      hs.ensured)
  subst heq
  have hholds' := World.holds_withGzip hholds hfile hplain (Resource.wantsGzip conf v.req v.key)
  rw [hresp]
  refine ⟨version, ?_, ?_, ?_, ?_, ?_⟩
  · rcases hsource with ⟨-, horigin⟩ | ⟨-, hsuccess⟩
    · exact horigin.1
    · exact answer_mem_history hsuccess
  · rw [Resource.equalRange_contentEncoding_additionalHeaders]
    have hcompressed : (Resource.preparedResponse conf v.req o content.length).compressed =
      Resource.wantsGzip conf v.req v.key := rfl
    rcases World.content_of_holds hholds' hfile hs.served with ⟨hgz, hbody⟩ | ⟨hgz, hbody⟩
    · exact .inl ⟨if_neg (by rw [hcompressed, Visit.key, hgz]; exact Bool.false_ne_true), hbody⟩
    · exact .inr ⟨if_pos (hcompressed.trans hgz), hbody⟩
  · rw [Resource.equalRange_etag_additionalHeaders, hdesc.etag]
  · rw [Resource.equalRange_lastModified_additionalHeaders, S3Object.lastModifiedTime,
      hdesc.lastModified]
  · rcases hsource with ⟨hhit, horigin⟩ | ⟨hmiss, hsuccess⟩
    · obtain ⟨-, completed, hfetched, hle, hexp⟩ := horigin
      exact .inr ⟨completed, hfetched, hle, (S3Util.lookup_eq_some_iff.mp hhit).2.1.trans_le hexp⟩
    · exact .inl (fetchedBy_eq_some hlegal hmiss hsuccess)

/-- **Freshness and fidelity.**  In every run from the start of the service, with temporaries of
fresh names and a hash that tells the requested objects apart, every answer with status 200 is
faithful. -/
theorem faithful_of_run {s₀ : Site} {es : List Event} (hstart : s₀.Started)
    (hinj : Set.InjOn p.hash (requested (es ++ [.visit v])))
    (hfresh : PartialStep.Along (step p conf origins) (FreshNames p conf) s₀ (es ++ [.visit v]))
    (hrun : PartialStep.exec (step p conf origins) s₀ es = some s)
    (hmethod : v.req.method = "GET") (hstatus : (s.visit p conf origins v).1.status = 200) :
    s.Faithful p conf v (s.visit p conf origins v).1 := by
  obtain ⟨hbefore, hlast⟩ := (PartialStep.along_append_iff hrun).mp hfresh
  have hsub : requested es ⊆ requested (es ++ [.visit v]) := by
    rintro n ⟨u, hu, rfl⟩
    exact ⟨u, List.mem_append_left _ hu, rfl⟩
  have hkey : v.key ∈ requested (es ++ [.visit v]) := ⟨v, by simp, rfl⟩
  have hsound := soundOn_of_run hstart hinj hsub hbefore hrun
  refine faithful_visit (hsound v.key hkey) (hlast _ rfl).1 ?_ hstatus
  rw [hmethod]
  decide

/-- An object is requested, replaced in the bucket, and requested again within its time to live. -/
theorem faithful_of_run_cached :
    let s₀ : Site :=
      ⟨.init, 0, fun _ => [some (.plainText [1, 2, 3] "e" 0)], []⟩
    let v : Visit := { req := ⟨"GET", "/a.txt", [("accept-encoding", "gzip")]⟩, reply := .current }
    ∃ s, PartialStep.exec (step .sample {} []) s₀
        [.visit v, .advance (10 ^ 9), .change "/a.txt" (some (.plainText [4] "f" 7))] = some s ∧
      s.Faithful .sample {} v (s.visit .sample {} [] v).1 := by
  intro s₀ v
  have hfresh : PartialStep.Along (step .sample {} []) (FreshNames .sample {}) s₀
      ([.visit v, .advance (10 ^ 9), .change "/a.txt" (some (.plainText [4] "f" 7))] ++
        [.visit v]) := by
    decide
  refine ⟨_, rfl, faithful_of_run (show s₀.Started from rfl) ?_ hfresh rfl rfl (by decide)⟩
  rintro a ⟨u, hu, rfl⟩ b ⟨u', hu', rfl⟩ -
  have heq : u = v := by simpa using hu
  subst heq
  have heq : u' = v := by simpa using hu'
  subst heq
  rfl

end Site

end S3Proxy
