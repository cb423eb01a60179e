import S3Proxy.Model.S3Object
import S3Proxy.Util.Compress
import S3Proxy.Util.ExpirationCache

/-!
# Fetching objects from the bucket

`S3Util::get` answers from the metadata cache while the entry is fresh and its file is there, and
otherwise downloads the object: it writes the body to a temporary, compresses that onto the `.gz`
file if there is one already, renames the temporary onto the file of the object and stores a new
metadata entry.  `S3Util::clear` empties the metadata cache for whoever holds the key.

`Fetch` is what the world outside decides during one call: the answer of the bucket, the clock
readings, and how each file operation goes.  An exception anywhere makes the call return null and
leaves the files as they are at that point.

## Main results

`lookup_eq_some_iff` says what the lookup answers: the entry of the name, if it is still fresh and
its file is in place.  The iterator of the source is gone from this statement; that it may be is
`deref_find` of `Util.ExpirationCache`, for a call that nobody interrupts.

The rest is about names.  `fileName_eq_iff`: objects share a file exactly if their names have one
hash.  Behind the cache directory the file of an object has digits only (`fileName_append_dot_ne`),
so neither a temporary nor a compressed file is the file of an object.

## Hypotheses

None.  Each reading of the clock is a field of its own of a `Fetch`, and nothing here relates two of
them; the results that do say so.

## Where it is used

`Server.Triple` says what a call does to the artefacts of one object, which is what the later
modules use.  `Server.Lookup` and `Server.Interleaving` take the call apart into steps, and
`Server.Resource` calls it.
-/

namespace S3Proxy

abbrev MetadataCache := ExpirationCache String S3Object

/-- The state of the proxy that outlives a request. -/
structure World where
  cache : MetadataCache
  files : Files

/-- The state of a proxy that has been set up on an empty directory. -/
def World.init : World := ⟨ExpirationCache.empty, fun _ => none⟩

inductive GetObjectOutcome
  | success (v : Version)
  /-- The error with response code 404. -/
  | notFound
  /-- Any other error. -/
  | failure
  deriving DecidableEq

/-- How the download into the temporary goes.  The stream raises no exceptions, so the caller
does not learn of it. -/
inductive WriteOutcome
  | complete
  /-- Only the first `n` bytes are written. -/
  | short (n : ℕ)
  /-- The temporary cannot be opened for writing. -/
  | unopened
  deriving DecidableEq, Repr

/-- What the environment decides during one call of `S3Util::get`. -/
structure Fetch where
  answer : GetObjectOutcome
  lookupTime : TimePoint
  targetTime : TimePoint
  compressTime : TimePoint
  /-- The reading of the clock by which a new `S3Object` is initialised. -/
  builtTime : TimePoint
  write : WriteOutcome := .complete
  compress : CompressOutcome := .completes
  renames : Bool := true
  /-- The length of an object for which none is assigned. -/
  unassigned : ℕ := 0

/-- A call at one instant, in which the bucket answers with the version and nothing fails. -/
def Fetch.at (now : TimePoint) (v : Version) : Fetch where
  answer := .success v
  lookupTime := now
  targetTime := now
  compressTime := now
  builtTime := now

/-- The content of the temporary after the download, where `old` is what it held before. -/
def WriteOutcome.stored (o : WriteOutcome) (body : Bytes) (old : Option Bytes) : Option Bytes :=
  match o with
  | .complete => some body
  | .short n => some (body.take n)
  | .unopened => old

namespace S3Util

variable (p : Platform) (conf : Configuration)

/-- The file of an object. -/
def fileName (name : String) : String := conf.cacheDir ++ "/" ++ toString (p.hash name).toNat

/-- The temporary an object is downloaded into. -/
def targetName (fileName : String) (now : TimePoint) : String := fileName ++ "." ++ toString now

/-- The part of `get` before the download: the cached object, if it may still be served. -/
def lookup (now : TimePoint) (name : String) (w : World) : Option S3Object :=
  match w.cache.find name with
  | none => none
  | some iter =>
      match w.cache.deref iter with
      | none => none
      | some obj =>
          if now < obj.expires then
            if obj.fileName = "" then some obj
            else if (w.files obj.fileName).isSome then some obj
            else none
          else none

/-- The metadata of a key that the bucket does not have. -/
def notFoundObject (env : Fetch) : S3Object where
  contentType := ""
  fileName := ""
  etag := ""
  cacheControl := ""
  expires := env.builtTime + seconds conf.ttl
  lastModified := env.builtTime
  contentLength := env.unassigned

/-- The metadata of a downloaded version. -/
def newObject (env : Fetch) (name : String) (v : Version) : S3Object where
  contentType := v.contentType
  fileName := fileName p conf name
  etag := v.etag
  cacheControl :=
    if v.cacheControl = "" then "max-age=" ++ toString conf.ttl else v.cacheControl
  expires := env.builtTime + seconds conf.ttl
  lastModified := v.lastModified
  contentLength := v.contentLength

/-- The download into the temporary. -/
def writeTarget (env : Fetch) (file : String) (v : Version) (files : Files) : Files :=
  let target := targetName file env.targetTime
  Function.update files target (env.write.stored v.body (files target))

/-- The refresh of the `.gz` file from the temporary, if there is such a file. -/
def recompress (env : Fetch) (file : String) (files : Files) : Except Files Files :=
  let tgz := Util.compressedFileName file
  if (files tgz).isSome then
    Util.compress p (targetName file env.targetTime) tgz env.compressTime env.compress files
  else .ok files

/-- The part of `get` after a successful `GetObject`. -/
def download (env : Fetch) (name : String) (v : Version) (w : World) :
    Option S3Object × World :=
  let file := fileName p conf name
  match recompress p env file (writeTarget env file v w.files) with
  | .error files => (none, { w with files })
  | .ok files =>
      match if env.renames then files.rename (targetName file env.targetTime) file else none with
      | none => (none, { w with files })
      | some files =>
          let obj := newObject p conf env name v
          (some obj, { cache := w.cache.put name obj, files })

/-- `S3Util::get`. -/
def get (env : Fetch) (name : String) (w : World) : Option S3Object × World :=
  match lookup env.lookupTime name w with
  | some obj => (some obj, w)
  | none =>
      match env.answer with
      | .success v => download p conf env name v w
      | .notFound =>
          let obj := notFoundObject conf env
          (some obj, { w with cache := w.cache.put name obj })
      | .failure => (none, w)

/-- `S3Util::clear`. -/
def clear (authKey : String) (w : World) : Bool × World :=
  if conf.authKey = authKey then (true, { w with cache := w.cache.clear }) else (false, w)

/-! ### The lookup -/

variable {p conf}

lemma lookup_eq (now : TimePoint) (name : String) (w : World) :
    lookup now name w = (w.cache.get name).bind fun obj =>
      if now < obj.expires ∧ (obj.fileName = "" ∨ (w.files obj.fileName).isSome)
      then some obj else none := by
  unfold lookup
  cases hfind : w.cache.find name with
  | none =>
      rw [(w.cache.find_eq_none_iff name).mp hfind]
      rfl
  | some iter =>
      simp only [w.cache.deref_find name hfind]
      cases w.cache.get name with
      | none => rfl
      | some obj =>
          by_cases hexp : now < obj.expires <;> by_cases hfile : obj.fileName = "" <;>
            simp [hexp, hfile]

/-- What the lookup answers is the entry of the name, still fresh, with its file in place. -/
lemma lookup_eq_some_iff {now : TimePoint} {name : String} {w : World} {obj : S3Object} :
    lookup now name w = some obj ↔ w.cache.get name = some obj ∧ now < obj.expires ∧
      (obj.fileName = "" ∨ (w.files obj.fileName).isSome) := by
  rw [lookup_eq]
  cases w.cache.get name with
  | none => simp
  | some o =>
      simp only [Option.bind_some, Option.ite_none_right_eq_some, Option.some.injEq]
      constructor
      · rintro ⟨h, rfl⟩
        exact ⟨rfl, h⟩
      · rintro ⟨rfl, h⟩
        exact ⟨h, rfl⟩

/-! ### Names -/

variable {a b : String}

lemma fileName_eq_iff : fileName p conf a = fileName p conf b ↔ p.hash a = p.hash b := by
  constructor
  · intro h
    have h' := congrArg String.toList h
    simp only [fileName, String.toList_append] at h'
    have hdigits := String.toList_inj.mp (List.append_cancel_left h')
    exact UInt64.toNat_inj.mp (Decimal.toString_nat_injective hdigits)
  · intro h
    rw [fileName, fileName, h]

/-- Behind the cache directory the file of an object has digits only, so a name with a dot
there is not one. -/
lemma fileName_append_dot_ne (s : String) : fileName p conf a ++ "." ++ s ≠ fileName p conf b := by
  intro h
  have h' := congrArg String.toList h
  simp only [fileName, String.toList_append, List.append_assoc] at h'
  have hdigits := List.append_cancel_left (List.append_cancel_left h')
  have hdot : '.' ∈ (toString (p.hash b).toNat).toList := by
    rw [← hdigits]
    simp
  exact absurd (Decimal.isDigit_of_mem_toString_nat hdot) (by decide)

lemma targetName_ne_fileName (now : TimePoint) :
    targetName (fileName p conf a) now ≠ fileName p conf b :=
  fileName_append_dot_ne _

lemma compressedFileName_ne_fileName :
    Util.compressedFileName (fileName p conf a) ≠ fileName p conf b := by
  intro h
  refine fileName_append_dot_ne "gz" (?_ : fileName p conf a ++ "." ++ "gz" = fileName p conf b)
  rw [← h, Util.compressedFileName, String.append_assoc]
  rfl

lemma targetName_ne_compressedFileName (file s : String) (now : TimePoint) :
    targetName s now ≠ Util.compressedFileName file :=
  Util.temporaryName_ne_compressedFileName (s ++ ".") file now

/-- The temporary of a compression of the download is not the file of an object. -/
lemma temporaryName_targetName_ne_fileName (t t' : TimePoint) :
    Util.temporaryName (targetName (fileName p conf a) t) t' ≠ fileName p conf b := by
  rw [Util.temporaryName, targetName, String.append_assoc]
  exact fileName_append_dot_ne _

end S3Util

end S3Proxy
