import Mathlib.Tactic

/-!
# Configuration and platform

`Configuration` holds the options of `model/config.hpp` that the modelled functions read, with the
defaults of the source.  `Platform` collects what the program takes from outside the repository: the
hash function of the standard library, the gzip codec, and the calendar of the AWS date type.

## Hypotheses

Nothing is assumed of the hash and of the calendar.  A codec carries the one fact the program relies
on as a field of `Gzip`, that decompression undoes compression, so every theorem over a `Platform`
has it and none has to ask for it.  `Gzip.framed` is a codec for which the fact is proved, and
`Platform.sample` a platform that can be run; the theorems with hypotheses are applied to it where a
concrete run is shown.

## Where it is used

The cache of objects takes both (`Util.Compress` and the modules of `Server`).  Bytes, points in
time and `bytesOf` are shared by all modules; `Model.Text` has the lemmas about `bytesOf`.  The
options that only the metrics read are in `Model.Metric`, and the command line from which the real
configuration comes is in `Main`, where the variables have their own defaults.
-/

namespace S3Proxy

/-- The content of a file or of a response body. -/
abbrev Bytes := List UInt8

/-- Two contents are the same when their bytes are, which decides membership in a list of them. -/
instance : LawfulBEq Bytes := inferInstance

/-- A reading of the system clock, in nanoseconds since the epoch. -/
abbrev TimePoint := ℤ

/-- `std::chrono::seconds`, in the unit of `TimePoint`. -/
def seconds (n : ℤ) : ℤ := n * 1000000000

/-- The bytes of an ASCII text. -/
def bytesOf (s : String) : Bytes := s.toList.map fun c => UInt8.ofNat c.toNat

structure Configuration where
  authKey : String := ""
  cacheDir : String := "/tmp"
  ttl : ℤ := 300
  rejectQueryStrings : Bool := false
  deriving DecidableEq, Repr

/-- A compressor together with its inverse. -/
structure Gzip where
  compress : Bytes → Bytes
  decompress : Bytes → Bytes
  decompress_compress : ∀ b, decompress (compress b) = b

inductive DayOfWeek
  | sunday | monday | tuesday | wednesday | thursday | friday | saturday
  deriving DecidableEq, Repr

inductive Month
  | january | february | march | april | may | june
  | july | august | september | october | november | december
  deriving DecidableEq, Repr

/-- The fields that `Aws::Utils::DateTime` derives from a time point. -/
structure DateTime where
  dayOfWeek : DayOfWeek
  day : ℕ
  month : Month
  year : ℤ
  hour : ℕ
  minute : ℕ
  second : ℕ
  deriving DecidableEq, Repr

structure Platform where
  /-- `std::hash<std::string>`. -/
  hash : String → UInt64
  gzip : Gzip
  dateTime : TimePoint → DateTime

/-- A codec that puts the first byte of the gzip format in front of the data. -/
def Gzip.framed : Gzip where
  compress b := 0x1f :: b
  decompress := List.tail
  decompress_compress _ := rfl

/-- A platform to run the model on: the calendar is that of the first hour of the epoch, and the
hash tells names apart by their length. -/
def Platform.sample : Platform where
  hash name := UInt64.ofNat name.length
  gzip := Gzip.framed
  dateTime t :=
    ⟨.thursday, 1, .january, 1970, 0, (t / seconds 60).toNat, (t % seconds 60 / seconds 1).toNat⟩

end S3Proxy
