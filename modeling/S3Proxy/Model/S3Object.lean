import S3Proxy.Model.Configuration

/-!
# Cached objects

`S3Object` is the metadata the proxy keeps about one object (`model/s3object.hpp`); an object with
an empty `fileName` records that the bucket had no such key.  `toWebTime` renders the two time
points for the response headers.

`Version` is what one successful `GetObject` answers.  Its length field is the length of its body,
and the structure says so; `Version.plainText` is a small one.

## Main notions

`S3Object.Describes` relates the two: the metadata of an object is that of a version.  It is half of
what the cache promises, the other half being that the files hold the body of the same version, and
it does not mention how the metadata was made.

`toWebTime_ne_empty` and `lastModifiedTime_ne_empty` say that a rendered time is never the empty
text, which the source uses for a header that was not sent.

## Where it is used

`Server.S3Util` makes an object from a version, `Server.Triple` follows the object, its file and the
compressed file through each step of a refresh, and `Server.Site` and `Server.Consistency` state
with `S3Object.Describes` that what is served is one version.  `Server.Conditional` compares the
rendered times.
-/

namespace S3Proxy

structure S3Object where
  contentType : String
  fileName : String
  etag : String
  cacheControl : String
  expires : TimePoint
  lastModified : TimePoint
  contentLength : ℕ
  deriving DecidableEq, Repr

def DayOfWeek.webName : DayOfWeek → String
  | .sunday => "Sun, "
  | .monday => "Mon, "
  | .tuesday => "Tue, "
  | .wednesday => "Wed, "
  | .thursday => "Thu, "
  | .friday => "Fri, "
  | .saturday => "Sat, "

def Month.webName : Month → String
  | .january => "Jan "
  | .february => "Feb "
  | .march => "Mar "
  | .april => "Apr "
  | .may => "May "
  | .june => "Jun "
  | .july => "Jul "
  | .august => "Aug "
  | .september => "Sep "
  | .october => "Oct "
  | .november => "Nov "
  | .december => "Dec "

/-- A number, with a `0` in front of a single digit. -/
def twoDigits (n : ℕ) : String := (if n < 10 then "0" else "") ++ toString n

/-- `S3Object::toWebTime`, on the fields of the AWS date. -/
def toWebTime (date : DateTime) : String :=
  date.dayOfWeek.webName ++ twoDigits date.day ++ " " ++ date.month.webName ++
    toString date.year ++ " " ++ twoDigits date.hour ++ ":" ++ twoDigits date.minute ++ ":" ++
    twoDigits date.second ++ " GMT"

lemma toWebTime_ne_empty (date : DateTime) : toWebTime date ≠ "" := by
  intro h
  have := congrArg (fun s => s.toList.length) h
  simp [toWebTime, String.toList_append] at this

namespace S3Object

def expirationTime (p : Platform) (o : S3Object) : String := toWebTime (p.dateTime o.expires)

def lastModifiedTime (p : Platform) (o : S3Object) : String :=
  toWebTime (p.dateTime o.lastModified)

lemma lastModifiedTime_ne_empty (p : Platform) (o : S3Object) : o.lastModifiedTime p ≠ "" :=
  toWebTime_ne_empty _

end S3Object

/-- One version of an object in the bucket, as `GetObjectResult` carries it. -/
structure Version where
  body : Bytes
  contentType : String
  etag : String
  cacheControl : String
  lastModified : TimePoint
  contentLength : ℕ
  contentLength_eq : contentLength = body.length
  deriving DecidableEq

/-- A version that is plain text and says nothing about caching. -/
def Version.plainText (body : Bytes) (etag : String) (lastModified : TimePoint) : Version where
  body
  contentType := "text/plain"
  etag
  cacheControl := ""
  lastModified
  contentLength := body.length
  contentLength_eq := rfl

/-- The metadata entry belongs to the version: same etag, same modification time, same length. -/
structure S3Object.Describes (o : S3Object) (v : Version) : Prop where
  etag : o.etag = v.etag
  lastModified : o.lastModified = v.lastModified
  contentLength : o.contentLength = v.body.length

instance (o : S3Object) (v : Version) : Decidable (o.Describes v) :=
  decidable_of_iff (o.etag = v.etag ∧ o.lastModified = v.lastModified ∧
      o.contentLength = v.body.length)
    ⟨fun ⟨h₁, h₂, h₃⟩ => ⟨h₁, h₂, h₃⟩, fun ⟨h₁, h₂, h₃⟩ => ⟨h₁, h₂, h₃⟩⟩

end S3Proxy
