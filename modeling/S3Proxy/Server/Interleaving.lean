import S3Proxy.Library.Run
import S3Proxy.Library.Threads
import S3Proxy.Server.Refresh
import S3Proxy.Server.Serving

/-!
# Requests for one object, interleaved

Any number of threads answer requests for one object while the object changes in the bucket.  What
they share is the triple of the object; their temporaries are their own.  `Pc` names the points
between two atomic steps, in the order of `S3Util::get` and `server::get`: the lookup is one step,
and so is each later operation on a file of the triple or on the metadata cache.  Opening a file
fixes its content.

Three activities matter for what the threads do to each other.  A thread is `publishing` a version
from its test for the `.gz` file until it has stored the entry; it is `reading` from its test for
the `.gz` file until it has read the plain file for a compression on demand, and `copying` what it
read until that is the `.gz` file.

## Main result

`settled_of_orderly`: a run of orderly steps from a settled triple leads to a settled triple
whenever no operation is in progress.  `Settled` says that the entry describes the version in the
plain file and that the `.gz` file decompresses to it.

`Inv` is what holds in between, by the activities that occur.  One lemma says what each operation on
the shared triple does to it (`Inv.compress`, `Inv.rename`, `Inv.put`, `Inv.renameGz`), `Inv.move`
what a step without such an operation does, and `Inv.step` puts them together.

## Hypotheses

The run starts with no operation in progress and a settled triple.  `Orderly` is a condition on the
state before a step: a refresh starts to publish only while all other publications and compressions
under way have the bytes of its version, and a compression on demand starts only while all
publications have the bytes of the plain file.

## Where it is used

`Server.Consistency` adds the threads that send an answer.  `Server.Solo` proves that a thread that
is not interrupted does what the handlers of `Server.S3Util` and `Server.Resource` do, so that both
are about the same code.
-/

namespace S3Proxy

namespace Interleaving

/-- What a request asks for. -/
structure Ask where
  /-- The compressed file is to be served. -/
  gzip : Bool
  /-- The body is sent: a `GET` request that is not answered with 304. -/
  body : Bool
  deriving DecidableEq

/-- An answer with status 200 and a body. -/
structure Answer where
  obj : S3Object
  compressed : Bool
  /-- The content of the file that was opened. -/
  content : Bytes
  body : Bytes
  deriving DecidableEq

/-- Where a thread is. -/
inductive Pc
  | idle
  | getObject (ask : Ask)
  | writeTarget (ask : Ask) (v : Version)
  /-- Before the refresh tests for the `.gz` file. -/
  | testGz (ask : Ask) (v : Version)
  | compress (ask : Ask) (v : Version)
  | rename (ask : Ask) (v : Version)
  | put (ask : Ask) (v : Version)
  /-- Before `get` tests for the `.gz` file. -/
  | testServed (ask : Ask) (obj : S3Object)
  /-- The compression on demand: before the plain file is read. -/
  | readPlain (ask : Ask) (obj : S3Object)
  /-- The compression on demand: before its temporary is renamed. -/
  | renameGz (ask : Ask) (obj : S3Object) (source : Bytes)
  | fileSize (ask : Ask) (obj : S3Object)
  | recheck (ask : Ask) (obj : S3Object) (size : ℕ)
  | openFile (ask : Ask) (obj : S3Object) (size : ℕ)
  | read (ask : Ask) (obj : S3Object) (size : ℕ) (content : Bytes)
  | done (answer : Option Answer)
  deriving DecidableEq

/-- The version that a refresh has fetched. -/
def Pc.fetched : Pc → Option Version
  | .writeTarget _ v | .testGz _ v | .compress _ v | .rename _ v | .put _ v => some v
  | _ => none

/-- The version that a refresh is publishing. -/
def Pc.publishing : Pc → Option Version
  | .compress _ v | .rename _ v | .put _ v => some v
  | _ => none

/-- The version that a refresh is publishing, once it has dealt with the `.gz` file. -/
def Pc.replacing : Pc → Option Version
  | .rename _ v | .put _ v => some v
  | _ => none

/-- The version that a refresh is publishing, once it has renamed the plain file. -/
def Pc.storing : Pc → Option Version
  | .put _ v => some v
  | _ => none

/-- A compression on demand has not read the plain file yet. -/
def Pc.reading : Pc → Option Unit
  | .readPlain .. => some ()
  | _ => none

/-- What a compression on demand has read. -/
def Pc.copying : Pc → Option Bytes
  | .renameGz _ _ source => some source
  | _ => none

/-- A thread has an object in hand and has not opened its file yet. -/
def Pc.serving : Pc → Option S3Object
  | .testServed _ obj | .readPlain _ obj | .renameGz _ obj _ | .fileSize _ obj
  | .recheck _ obj _ | .openFile _ obj _ => some obj
  | _ => none

def Pc.inProgress : Pc → Bool
  | .idle | .done _ => false
  | _ => true

structure State (ι : Type*) where
  triple : Triple
  /-- The object in the bucket. -/
  current : Version
  /-- What it has been before. -/
  past : List Version
  pc : ι → Pc

/-- The versions that the object has had. -/
def State.versions {ι : Type*} (s : State ι) : List Version := s.current :: s.past

inductive Label (ι : Type*)
  /-- A request arrives, and looks the object up. -/
  | request (i : ι) (ask : Ask) (now : TimePoint)
  | run (i : ι) (now : TimePoint)
  /-- The object is replaced in the bucket. -/
  | replace (v : Version)

/-- The file that is served. -/
def served (ask : Ask) (t : Triple) : Option Bytes := if ask.gzip then t.gz else t.plain

/-- The first point behind the lookup, with an object in hand. -/
def Pc.serve (ask : Ask) (obj : S3Object) : Pc :=
  if ask.gzip then .testServed ask obj else .fileSize ask obj

/-- The first point behind the lookup. -/
def Pc.start (ask : Ask) : Option S3Object → Pc
  | some obj => .serve ask obj
  | none => .getObject ask

/-- The lookup, on the triple. -/
def lookup (now : TimePoint) (t : Triple) : Option S3Object :=
  t.entry.bind fun obj => if now < obj.expires ∧ t.plain.isSome then some obj else none

variable (p : Platform) (conf : Configuration) (name : String)

/-- The metadata of a downloaded version. -/
def build (now : TimePoint) (v : Version) : S3Object :=
  S3Util.newObject p conf (.at now v) name v

/-- One step of a thread that is answering a request: its next point, and the triple. -/
def advance (now : TimePoint) (current : Version) (t : Triple) : Pc → Option (Pc × Triple)
  | .getObject ask => some (.writeTarget ask current, t)
  | .writeTarget ask v => some (.testGz ask v, t)
  | .testGz ask v => some (if t.gz.isSome then .compress ask v else .rename ask v, t)
  | .compress ask v => some (.rename ask v, { t with gz := some (p.gzip.compress v.body) })
  | .rename ask v => some (.put ask v, { t with plain := some v.body })
  | .put ask v =>
      let obj := build p conf name now v
      some (.serve ask obj, { t with entry := some obj })
  | .testServed ask obj => some (if t.gz.isSome then .fileSize ask obj else .readPlain ask obj, t)
  | .readPlain ask obj => some (.renameGz ask obj (t.plain.getD []), t)
  | .renameGz ask obj source =>
      some (.fileSize ask obj, { t with gz := some (p.gzip.compress source) })
  | .fileSize ask obj =>
      match served ask t with
      | some content => some (.recheck ask obj content.length, t)
      | none => some (.done none, t)
  | .recheck ask obj size =>
      if (served ask t).isSome ∧ ask.body then some (.openFile ask obj size, t)
      else some (.done none, t)
  | .openFile ask obj size =>
      match served ask t with
      | some content => some (.read ask obj size content, t)
      | none => some (.done none, t)
  | .read ask obj size content =>
      some (.done (some ⟨obj, ask.gzip, content, Resource.readInto size content⟩), t)
  | .idle | .done _ => none

variable {ι : Type*} [DecidableEq ι]

def step : PartialStep (State ι) (Label ι)
  | s, .request i ask now =>
      if (s.pc i).inProgress then none
      else some { s with pc := Function.update s.pc i (.start ask (lookup now s.triple)) }
  | s, .run i now =>
      (advance p conf name now s.current s.triple (s.pc i)).map fun r =>
        { s with triple := r.2, pc := Function.update s.pc i r.1 }
  | s, .replace v => some { s with current := v, past := s.current :: s.past }

/-! ### The triple at rest -/

/-- The entry describes the version in the plain file, and the `.gz` file decompresses to that. -/
structure Settled (gzip : Gzip) (versions : List Version) (t : Triple) : Prop where
  entry : ∀ obj, t.entry = some obj →
    ∃ v ∈ versions, obj.Describes v ∧ t.plain = some v.body
  gz : ∀ g, t.gz = some g → t.plain = some (gzip.decompress g)

/-- No operation is in progress. -/
def AtRest (s : State ι) : Prop := ∀ i, (s.pc i).inProgress = false

instance [Fintype ι] (s : State ι) : Decidable (AtRest s) :=
  inferInstanceAs (Decidable (∀ _, _))

open Threads

/-- The condition on a step.  A refresh starts publishing only while every other publication, and
every compression on demand that is under way, has the bytes of its version; and a compression on
demand starts only while every publication has the bytes of the plain file. -/
def Orderly (s : State ι) : Label ι → Prop
  | .run i _ =>
      match s.pc i with
      | .testGz _ v =>
          (∀ u, Occurs Pc.publishing s.pc u → u.body = v.body) ∧
            (∀ b, Occurs Pc.copying s.pc b → b = v.body) ∧
            (Occurs Pc.reading s.pc () → s.triple.plain = some v.body)
      | .testServed _ _ =>
          s.triple.gz = none → ∀ u, Occurs Pc.publishing s.pc u → s.triple.plain = some u.body
      | _ => True
  | .request .. | .replace _ => True

instance [Fintype ι] (s : State ι) : ∀ e, Decidable (Orderly s e)
  | .run i _ =>
      match h : s.pc i with
      | .testGz _ v => decidable_of_iff
          ((∀ u, Occurs Pc.publishing s.pc u → u.body = v.body) ∧
            (∀ b, Occurs Pc.copying s.pc b → b = v.body) ∧
            (Occurs Pc.reading s.pc () → s.triple.plain = some v.body)) (by simp [Orderly, h])
      | .testServed _ _ => decidable_of_iff (s.triple.gz = none →
          ∀ u, Occurs Pc.publishing s.pc u → s.triple.plain = some u.body) (by simp [Orderly, h])
      | .idle | .getObject _ | .writeTarget _ _ | .compress _ _ | .rename _ _ | .put _ _
      | .readPlain _ _ | .renameGz _ _ _ | .fileSize _ _ | .recheck _ _ _ | .openFile _ _ _
      | .read _ _ _ _ | .done _ => .isTrue (by simp [Orderly, h])
  | .request .. | .replace _ => .isTrue trivial

/-- What keeps the triple consistent while it is being worked on. -/
structure Inv (gzip : Gzip) (s : State ι) : Prop where
  /-- What has been fetched is a version of the object. -/
  known : ∀ v, Occurs Pc.fetched s.pc v → v ∈ s.versions
  /-- Who serves an object has its plain file. -/
  serving : ∀ obj, Occurs Pc.serving s.pc obj → s.triple.plain.isSome
  publishing : ∀ u v, Occurs Pc.publishing s.pc u → Occurs Pc.publishing s.pc v → u.body = v.body
  copying : ∀ b, Occurs Pc.copying s.pc b →
    s.triple.plain = some b ∧ ∀ u, Occurs Pc.publishing s.pc u → u.body = b
  reading : Occurs Pc.reading s.pc () →
    ∀ u, Occurs Pc.publishing s.pc u → s.triple.plain = some u.body
  replacing : ∀ v g, Occurs Pc.replacing s.pc v → s.triple.gz = some g →
    gzip.decompress g = v.body
  storing : ∀ v, Occurs Pc.storing s.pc v → s.triple.plain = some v.body
  /-- As long as nobody replaces it, the `.gz` file belongs to the plain file. -/
  gz : (∀ v, ¬ Occurs Pc.replacing s.pc v) → ∀ g, s.triple.gz = some g →
    s.triple.plain = some (gzip.decompress g)
  /-- As long as nobody is about to store it, the entry belongs to the plain file. -/
  entry : (∀ v, ¬ Occurs Pc.storing s.pc v) → ∀ obj, s.triple.entry = some obj →
    ∃ v ∈ s.versions, obj.Describes v ∧ s.triple.plain = some v.body

variable {p conf name} {s t : State ι} {i : ι} {q : Pc} {now : TimePoint}

lemma publishing_of_replacing {q : Pc} {v : Version} (h : q.replacing = some v) :
    q.publishing = some v := by
  cases q <;> simp_all [Pc.replacing, Pc.publishing]

lemma replacing_of_storing {q : Pc} {v : Version} (h : q.storing = some v) :
    q.replacing = some v := by
  cases q <;> simp_all [Pc.replacing, Pc.storing]

lemma lookup_eq_some_iff {tr : Triple} {obj : S3Object} :
    lookup now tr = some obj ↔ tr.entry = some obj ∧ now < obj.expires ∧ tr.plain.isSome := by
  unfold lookup
  cases tr.entry with
  | none => simp
  | some o =>
      simp only [Option.bind_some, Option.ite_none_right_eq_some, Option.some.injEq]
      constructor
      · rintro ⟨h, rfl⟩
        exact ⟨rfl, h⟩
      · rintro ⟨rfl, h⟩
        exact ⟨h, rfl⟩

/-- A thread moves and leaves the triple alone. -/
lemma Inv.move (h : Inv p.gzip s) (i : ι) (q : Pc)
    (hknown : ∀ v, q.fetched = some v → v ∈ s.versions)
    (hserving : ∀ obj, q.serving = some obj → s.triple.plain.isSome)
    (hpublishing : ∀ v, q.publishing = some v → Occurs Pc.publishing s.pc v ∨
      (∀ u, Occurs Pc.publishing s.pc u → u.body = v.body) ∧
        (∀ b, Occurs Pc.copying s.pc b → b = v.body) ∧
        (Occurs Pc.reading s.pc () → s.triple.plain = some v.body))
    (hcopying : ∀ b, q.copying = some b → s.triple.plain = some b ∧
      ∀ u, Occurs Pc.publishing s.pc u → u.body = b)
    (hreading : q.reading = some () →
      ∀ u, Occurs Pc.publishing s.pc u → s.triple.plain = some u.body)
    (hreplacing : ∀ v, q.replacing = some v → Occurs Pc.replacing s.pc v ∨ s.triple.gz = none)
    (hleave : (s.pc i).replacing = none) (hstoring : q.storing = none) :
    Inv p.gzip { s with pc := Function.update s.pc i q } := by
  have hold : ∀ v, q.publishing = some v →
      (∀ u, Occurs Pc.publishing s.pc u → u.body = v.body) ∧
        (∀ b, Occurs Pc.copying s.pc b → b = v.body) ∧
        (Occurs Pc.reading s.pc () → s.triple.plain = some v.body) := by
    intro v hv
    rcases hpublishing v hv with hv | hv
    · exact ⟨fun u hu => h.publishing u v hu hv, fun b hb => ((h.copying b hb).2 v hv).symm,
        fun hr => h.reading hr v hv⟩
    · exact hv
  constructor
  case known =>
    intro v hv
    exact hv.of_update.elim (hknown v) (h.known v)
  case serving =>
    intro obj hobj
    exact hobj.of_update.elim (hserving obj) (h.serving obj)
  case publishing =>
    intro u v hu hv
    obtain hu | hu := hu.of_update <;> obtain hv | hv := hv.of_update
    · rw [Option.some.inj (hu.symm.trans hv)]
    · exact ((hold u hu).1 v hv).symm
    · exact (hold v hv).1 u hu
    · exact h.publishing u v hu hv
  case copying =>
    intro b hb
    rcases hb.of_update with hb | hb
    · refine ⟨(hcopying b hb).1, fun u hu => ?_⟩
      rcases hu.of_update with hu | hu
      · cases q <;> simp [Pc.copying, Pc.publishing] at hb hu
      · exact (hcopying b hb).2 u hu
    · refine ⟨(h.copying b hb).1, fun u hu => ?_⟩
      rcases hu.of_update with hu | hu
      · exact ((hold u hu).2.1 b hb).symm
      · exact (h.copying b hb).2 u hu
  case reading =>
    intro hr u hu
    obtain hr | hr := hr.of_update <;> obtain hu | hu := hu.of_update
    · cases q <;> simp [Pc.reading, Pc.publishing] at hr hu
    · exact hreading hr u hu
    · exact (hold u hu).2.2 hr
    · exact h.reading hr u hu
  case replacing =>
    intro v g hv hg
    rcases hv.of_update with hv | hv
    · rcases hreplacing v hv with hv | hnone
      · exact h.replacing v g hv hg
      · rw [hnone] at hg
        cases hg
    · exact h.replacing v g hv hg
  case storing =>
    intro v hv
    rcases hv.of_update with hv | hv
    · rw [hstoring] at hv
      cases hv
    · exact h.storing v hv
  case gz =>
    intro hnone
    refine h.gz fun v hv => ?_
    rcases hv.update (i := i) (q := q) with hv | hv
    · rw [hleave] at hv
      cases hv
    · exact hnone v hv
  case entry =>
    intro hnone
    refine h.entry fun v hv => ?_
    rcases hv.update (i := i) (q := q) with hv | hv
    · rw [replacing_of_storing hv] at hleave
      cases hleave
    · exact hnone v hv

/-- The refresh replaces the `.gz` file. -/
lemma Inv.compress {ask : Ask} {v : Version} (h : Inv p.gzip s) (hpc : s.pc i = .compress ask v) :
    Inv p.gzip { s with
      triple := { s.triple with gz := some (p.gzip.compress v.body) }
      pc := Function.update s.pc i (.rename ask v) } := by
  have hpub : Occurs Pc.publishing s.pc v := .of hpc rfl
  have hpublishing : ∀ u, Occurs Pc.publishing (Function.update s.pc i (.rename ask v)) u →
      Occurs Pc.publishing s.pc u := fun u hu => hu.of_update_keep hpc rfl
  constructor
  case known => exact fun u hu => h.known u (hu.of_update_keep hpc rfl)
  case serving => exact fun obj hobj => h.serving obj (hobj.of_update_none rfl)
  case publishing =>
    exact fun u w hu hw => h.publishing u w (hpublishing u hu) (hpublishing w hw)
  case copying =>
    intro b hb
    have hcopy := h.copying b (hb.of_update_none rfl)
    exact ⟨hcopy.1, fun u hu => hcopy.2 u (hpublishing u hu)⟩
  case reading =>
    exact fun hr u hu => h.reading (hr.of_update_none rfl) u (hpublishing u hu)
  case replacing =>
    intro u g hu hg
    have heq := Option.some.inj hg
    subst heq
    rw [p.gzip.decompress_compress]
    exact h.publishing v u hpub (hpublishing u (hu.mono fun _ => publishing_of_replacing))
  case storing => exact fun u hu => h.storing u (hu.of_update_none rfl)
  case gz => exact fun hnone => (hnone v (occurs_update_self rfl)).elim
  case entry =>
    exact fun hnone => h.entry fun u hu => hnone u (hu.update_none (congrArg Pc.storing hpc))

/-- The refresh replaces the plain file. -/
lemma Inv.rename {ask : Ask} {v : Version} (h : Inv p.gzip s) (hpc : s.pc i = .rename ask v) :
    Inv p.gzip { s with
      triple := { s.triple with plain := some v.body }
      pc := Function.update s.pc i (.put ask v) } := by
  have hpub : Occurs Pc.publishing s.pc v := .of hpc rfl
  have hpublishing : ∀ u, Occurs Pc.publishing (Function.update s.pc i (.put ask v)) u →
      Occurs Pc.publishing s.pc u := fun u hu => hu.of_update_keep hpc rfl
  constructor
  case known => exact fun u hu => h.known u (hu.of_update_keep hpc rfl)
  case serving => exact fun _ _ => rfl
  case publishing =>
    exact fun u w hu hw => h.publishing u w (hpublishing u hu) (hpublishing w hw)
  case copying =>
    intro b hb
    have hcopy := h.copying b (hb.of_update_none rfl)
    exact ⟨congrArg some (hcopy.2 v hpub), fun u hu => hcopy.2 u (hpublishing u hu)⟩
  case reading =>
    exact fun _ u hu => congrArg some (h.publishing v u hpub (hpublishing u hu))
  case replacing =>
    exact fun u g hu hg => h.replacing u g (hu.of_update_keep hpc rfl) hg
  case storing =>
    intro u hu
    have hu' := hu.mono fun _ hq => publishing_of_replacing (replacing_of_storing hq)
    exact congrArg some (h.publishing v u hpub (hpublishing u hu'))
  case gz => exact fun hnone => (hnone v (occurs_update_self rfl)).elim
  case entry => exact fun hnone => (hnone v (occurs_update_self rfl)).elim

/-- The refresh stores the entry, and goes on to serve the object. -/
lemma Inv.put {ask : Ask} {v : Version} {obj : S3Object} (h : Inv p.gzip s)
    (hpc : s.pc i = .put ask v) (hobj : obj.Describes v) :
    Inv p.gzip { s with
      triple := { s.triple with entry := some obj }
      pc := Function.update s.pc i (.serve ask obj) } := by
  have hplain : s.triple.plain = some v.body := h.storing v (.of hpc rfl)
  have hserve : ∀ {α : Type} {F : Pc → Option α}, F (.testServed ask obj) = none →
      F (.fileSize ask obj) = none → F (.serve ask obj) = none := by
    intro α F htest hsize
    unfold Pc.serve
    split_ifs
    · exact htest
    · exact hsize
  have hpublishing : ∀ u, Occurs Pc.publishing (Function.update s.pc i (.serve ask obj)) u →
      Occurs Pc.publishing s.pc u := fun u hu => hu.of_update_none (hserve rfl rfl)
  constructor
  case known => exact fun u hu => h.known u (hu.of_update_none (hserve rfl rfl))
  case serving => exact fun _ _ => by rw [hplain]; rfl
  case publishing =>
    exact fun u w hu hw => h.publishing u w (hpublishing u hu) (hpublishing w hw)
  case copying =>
    intro b hb
    have hcopy := h.copying b (hb.of_update_none (hserve rfl rfl))
    exact ⟨hcopy.1, fun u hu => hcopy.2 u (hpublishing u hu)⟩
  case reading =>
    exact fun hr u hu => h.reading (hr.of_update_none (hserve rfl rfl)) u (hpublishing u hu)
  case replacing =>
    exact fun u g hu hg => h.replacing u g (hu.of_update_none (hserve rfl rfl)) hg
  case storing => exact fun u hu => h.storing u (hu.of_update_none (hserve rfl rfl))
  case gz =>
    intro _ g hg
    rw [h.replacing v g (.of hpc rfl) hg]
    exact hplain
  case entry =>
    intro _ o ho
    have heq := Option.some.inj ho
    subst heq
    exact ⟨v, h.known v (.of hpc rfl), hobj, hplain⟩

/-- The compression on demand puts its `.gz` file in place. -/
lemma Inv.renameGz {ask : Ask} {obj : S3Object} {b : Bytes} (h : Inv p.gzip s)
    (hpc : s.pc i = .renameGz ask obj b) :
    Inv p.gzip { s with
      triple := { s.triple with gz := some (p.gzip.compress b) }
      pc := Function.update s.pc i (.fileSize ask obj) } := by
  obtain ⟨hplain, hbytes⟩ := h.copying b (.of hpc rfl)
  have hpublishing : ∀ u, Occurs Pc.publishing (Function.update s.pc i (.fileSize ask obj)) u →
      Occurs Pc.publishing s.pc u := fun u hu => hu.of_update_none rfl
  constructor
  case known => exact fun u hu => h.known u (hu.of_update_none rfl)
  case serving => exact fun _ _ => by rw [hplain]; rfl
  case publishing =>
    exact fun u w hu hw => h.publishing u w (hpublishing u hu) (hpublishing w hw)
  case copying =>
    intro c hc
    have hcopy := h.copying c (hc.of_update_none rfl)
    exact ⟨hcopy.1, fun u hu => hcopy.2 u (hpublishing u hu)⟩
  case reading =>
    exact fun hr u hu => h.reading (hr.of_update_none rfl) u (hpublishing u hu)
  case replacing =>
    intro u g hu hg
    have heq := Option.some.inj hg
    subst heq
    rw [p.gzip.decompress_compress]
    exact (hbytes u (hpublishing u (hu.mono fun _ => publishing_of_replacing))).symm
  case storing => exact fun u hu => h.storing u (hu.of_update_none rfl)
  case gz =>
    intro _ g hg
    have heq := Option.some.inj hg
    subst heq
    rw [p.gzip.decompress_compress]
    exact hplain
  case entry =>
    exact fun hnone => h.entry fun u hu => hnone u (hu.update_none (congrArg Pc.storing hpc))

omit [DecidableEq ι] in
/-- The object is replaced in the bucket. -/
lemma Inv.replace (h : Inv p.gzip s) (v : Version) :
    Inv p.gzip { s with current := v, past := s.current :: s.past } := by
  refine { h with known := fun u hu => ?_, entry := fun hnone obj hobj => ?_ }
  · exact List.mem_cons_of_mem v (h.known u hu)
  · obtain ⟨u, hu, hdesc⟩ := h.entry hnone obj hobj
    exact ⟨u, List.mem_cons_of_mem v hu, hdesc⟩

/-- A thread that takes no part in any publication serves on, or stops. -/
lemma Inv.serve (h : Inv p.gzip s) (hi : (s.pc i).replacing = none)
    (hq : q.fetched = none ∧ q.reading = none ∧ q.copying = none)
    (hserving : ∀ obj, q.serving = some obj → s.triple.plain.isSome) :
    Inv p.gzip { s with pc := Function.update s.pc i q } := by
  have hnone : q.publishing = none ∧ q.replacing = none ∧ q.storing = none := by
    cases q <;> simp_all [Pc.fetched, Pc.publishing, Pc.replacing, Pc.storing]
  refine h.move i q ?_ hserving ?_ ?_ ?_ ?_ hi hnone.2.2
  · simp [hq.1]
  · simp [hnone.1]
  · simp [hq.2.2]
  · simp [hq.2.1]
  · simp [hnone.2.1]

/-- **One orderly step** keeps the invariant. -/
lemma Inv.step {e : Label ι} (h : Inv p.gzip s) (horderly : Orderly s e)
    (hstep : Interleaving.step p conf name s e = some t) : Inv p.gzip t := by
  cases e with
  | request i ask now =>
      simp only [Interleaving.step, Option.ite_none_left_eq_some, Option.some.injEq] at hstep
      obtain ⟨hidle, rfl⟩ := hstep
      have hi : (s.pc i).replacing = none := by
        cases hpc : s.pc i <;> simp_all [Pc.inProgress, Pc.replacing]
      cases hlookup : lookup now s.triple with
      | none =>
          exact h.serve hi ⟨rfl, rfl, rfl⟩ (by simp [Pc.start, Pc.serving])
      | some obj =>
          refine h.serve hi ?_ fun _ _ => (lookup_eq_some_iff.mp hlookup).2.2
          unfold Pc.start Pc.serve
          dsimp only
          split_ifs <;> exact ⟨rfl, rfl, rfl⟩
  | replace v =>
      have heq := Option.some.inj hstep
      subst heq
      exact h.replace v
  | run i now =>
      obtain ⟨⟨q, triple⟩, hadv, rfl⟩ := Option.map_eq_some_iff.mp hstep
      simp only [Orderly] at horderly
      cases hpc : s.pc i with
      | idle | done _ => rw [hpc] at hadv; cases hadv
      | getObject ask =>
          rw [hpc] at hadv
          obtain ⟨rfl, rfl⟩ := Prod.mk.inj (Option.some.inj hadv)
          exact h.move i _ (by simp [Pc.fetched, State.versions]) (by simp [Pc.serving])
            (by simp [Pc.publishing]) (by simp [Pc.copying]) (by simp [Pc.reading])
            (by simp [Pc.replacing]) (congrArg Pc.replacing hpc) rfl
      | writeTarget ask v =>
          rw [hpc] at hadv
          obtain ⟨rfl, rfl⟩ := Prod.mk.inj (Option.some.inj hadv)
          have hv := h.known v (.of hpc rfl)
          exact h.move i _ (by simpa [Pc.fetched] using hv) (by simp [Pc.serving])
            (by simp [Pc.publishing]) (by simp [Pc.copying]) (by simp [Pc.reading])
            (by simp [Pc.replacing]) (congrArg Pc.replacing hpc) rfl
      | testGz ask v =>
          rw [hpc] at hadv horderly
          obtain ⟨rfl, rfl⟩ := Prod.mk.inj (Option.some.inj hadv)
          have hv := h.known v (.of hpc rfl)
          split_ifs with hgz
          · refine h.move i _ (by simpa [Pc.fetched] using hv) (by simp [Pc.serving])
              (fun u hu => .inr ?_) (by simp [Pc.copying]) (by simp [Pc.reading])
              (by simp [Pc.replacing]) (congrArg Pc.replacing hpc) rfl
            have heq := Option.some.inj hu
            subst heq
            exact horderly
          · refine h.move i _ (by simpa [Pc.fetched] using hv) (by simp [Pc.serving])
              (fun u hu => .inr ?_) (by simp [Pc.copying]) (by simp [Pc.reading])
              (fun _ _ => .inr (by simpa using hgz)) (congrArg Pc.replacing hpc) rfl
            have heq := Option.some.inj hu
            subst heq
            exact horderly
      | compress ask v =>
          rw [hpc] at hadv
          obtain ⟨rfl, rfl⟩ := Prod.mk.inj (Option.some.inj hadv)
          exact h.compress hpc
      | rename ask v =>
          rw [hpc] at hadv
          obtain ⟨rfl, rfl⟩ := Prod.mk.inj (Option.some.inj hadv)
          exact h.rename hpc
      | put ask v =>
          rw [hpc] at hadv
          obtain ⟨rfl, rfl⟩ := Prod.mk.inj (Option.some.inj hadv)
          exact h.put hpc (S3Util.newObject_describes v)
      | testServed ask obj =>
          rw [hpc] at hadv horderly
          obtain ⟨rfl, rfl⟩ := Prod.mk.inj (Option.some.inj hadv)
          have hplain := h.serving obj (.of hpc rfl)
          split_ifs with hgz
          · exact h.serve (congrArg Pc.replacing hpc) ⟨rfl, rfl, rfl⟩ fun _ _ => hplain
          · exact h.move i _ (by simp [Pc.fetched]) (fun _ _ => hplain) (by simp [Pc.publishing])
              (by simp [Pc.copying]) (fun _ => horderly (by simpa using hgz))
              (by simp [Pc.replacing]) (congrArg Pc.replacing hpc) rfl
      | readPlain ask obj =>
          rw [hpc] at hadv
          obtain ⟨rfl, rfl⟩ := Prod.mk.inj (Option.some.inj hadv)
          have hplain := h.serving obj (.of hpc rfl)
          obtain ⟨b, hb⟩ := Option.isSome_iff_exists.mp hplain
          have hread := h.reading (.of hpc rfl)
          refine h.move i _ (by simp [Pc.fetched]) (fun _ _ => hplain) (by simp [Pc.publishing])
            (fun c hc => ?_) (by simp [Pc.reading]) (by simp [Pc.replacing])
            (congrArg Pc.replacing hpc) rfl
          have heq : s.triple.plain.getD [] = c := Option.some.inj hc
          subst heq
          rw [hb, Option.getD_some]
          exact ⟨rfl, fun u hu => (Option.some.inj (hb.symm.trans (hread u hu))).symm⟩
      | renameGz ask obj source =>
          rw [hpc] at hadv
          obtain ⟨rfl, rfl⟩ := Prod.mk.inj (Option.some.inj hadv)
          exact h.renameGz hpc
      | fileSize ask obj | recheck ask obj _ | openFile ask obj _ =>
          have hplain := h.serving obj (.of hpc rfl)
          rw [hpc, advance] at hadv
          split at hadv <;> obtain ⟨rfl, rfl⟩ := Prod.mk.inj (Option.some.inj hadv) <;>
            exact h.serve (congrArg Pc.replacing hpc) ⟨rfl, rfl, rfl⟩ fun _ _ => hplain
      | read ask obj size content =>
          rw [hpc] at hadv
          obtain ⟨rfl, rfl⟩ := Prod.mk.inj (Option.some.inj hadv)
          exact h.serve (congrArg Pc.replacing hpc) ⟨rfl, rfl, rfl⟩ (by simp [Pc.serving])

/-! ### Runs -/

/-- All threads are idle. -/
def Started (s : State ι) : Prop := ∀ i, s.pc i = .idle

omit [DecidableEq ι] in
lemma Inv.of_started (h : Started s) (hsettled : Settled p.gzip s.versions s.triple) :
    Inv p.gzip s := by
  have hnone : ∀ {α : Type} {F : Pc → Option α} {a : α}, F .idle = none → ¬ Occurs F s.pc a := by
    rintro α F a hF ⟨i, hi⟩
    rw [h i, hF] at hi
    cases hi
  exact {
    known := fun _ hv => (hnone rfl hv).elim
    serving := fun _ hobj => (hnone rfl hobj).elim
    publishing := fun _ _ hu => (hnone rfl hu).elim
    copying := fun _ hb => (hnone rfl hb).elim
    reading := fun hr => (hnone rfl hr).elim
    replacing := fun _ _ hv => (hnone rfl hv).elim
    storing := fun _ hv => (hnone rfl hv).elim
    gz := fun _ => hsettled.gz
    entry := fun _ => hsettled.entry }

omit [DecidableEq ι] in
lemma Inv.settled (h : Inv p.gzip s) (hrest : AtRest s) : Settled p.gzip s.versions s.triple := by
  have hidle : ∀ i, (s.pc i).replacing = none ∧ (s.pc i).storing = none := by
    intro i
    have hi := hrest i
    cases hpc : s.pc i <;> simp_all [Pc.inProgress, Pc.replacing, Pc.storing]
  exact ⟨h.entry (not_occurs_iff.mpr fun i => (hidle i).2),
    h.gz (not_occurs_iff.mpr fun i => (hidle i).1)⟩

/-- **The triple at rest.**  A run of orderly steps from a settled triple leads to a settled triple
whenever no operation is in progress. -/
theorem settled_of_orderly {es : List (Label ι)} (hstart : Started s)
    (hsettled : Settled p.gzip s.versions s.triple)
    (horderly : PartialStep.Along (step p conf name) Orderly s es) :
    PartialStep.Visits (step p conf name)
      (fun t => AtRest t → Settled p.gzip t.versions t.triple) s es :=
  PartialStep.visits_of_along (fun _ _ _ hs hP hstep => Inv.step hs hP hstep)
    (fun _ => Inv.settled) (Inv.of_started hstart hsettled) horderly

/-- Two threads, the second of which refreshes the object after the first is done. -/
theorem settled_of_orderly_turns :
    PartialStep.Visits (step .sample {} "/a")
      (fun t => AtRest t → Settled Gzip.framed t.versions t.triple)
      (⟨⟨none, none, none⟩, .plainText [1] "u" 0, [], fun _ => .idle⟩ : State (Fin 2))
      ([.request 0 ⟨true, true⟩ 0, .request 1 ⟨true, true⟩ 0] ++ List.replicate 12 (.run 0 0) ++
        [.replace (.plainText [2, 3] "v" 1)] ++ List.replicate 11 (.run 1 0)) :=
  settled_of_orderly (p := .sample) (fun _ => rfl)
    ⟨fun _ h => by simp at h, fun _ h => by simp at h⟩ (by decide)

/-- Two refreshes overlap: the second renames and stores its version between the rename and the
`put` of the first. -/
theorem not_settled_of_overlap :
    ∃ t : State (Fin 2), PartialStep.exec (step .sample {} "/a")
        ⟨⟨none, none, none⟩, .plainText [1] "u" 0, [], fun _ => .idle⟩
        [.request 0 ⟨false, false⟩ 0, .run 0 0, .replace (.plainText [2, 3] "v" 1),
          .request 1 ⟨false, false⟩ 0, .run 1 0, .run 0 0, .run 0 0, .run 0 0,
          .run 1 0, .run 1 0, .run 1 0, .run 1 0, .run 1 0, .run 1 0,
          .run 0 0, .run 0 0, .run 0 0] = some t ∧
      AtRest t ∧ ¬ Settled Gzip.framed t.versions t.triple :=
  ⟨_, rfl, by decide, fun h => absurd (h.entry _ rfl) (by decide)⟩

end Interleaving

end S3Proxy
