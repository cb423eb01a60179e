import S3Proxy.Client.LineProtocol
import S3Proxy.Client.Mmdb
import S3Proxy.Library.Run
import S3Proxy.Model.Metric

/-!
# Saving metrics to the time series database

`TSDBClient::save` fills a builder with the tags and values of a metric.  `Effect` has everything
that it takes to hand a record to the ILP client: opening a record, filling it, ending it, and
writing the text.  `save` only fills: it opens no record, so its first call has no meaning, and it
writes nothing.

## Main result

`save_not_handed`: no metric reaches the time series database.  Whatever the series, the metric and
its location, the effects of `save` do not hand over a record of it (`Handed`), and no write is
among them.  The two reasons are independent, and each is a lemma: `exec_save` and
`write_notMem_save`.

`handed_of_opened` is the other side.  With a record opened before the calls, and ended and written
behind them, what `save` does would be right: the text that is written reads as the record that was
meant (`expected`).  `filterMap_tag_calls` and `filterMap_value_calls` compare the calls with that
record, where `saveLocation_eq` has the cases for the coordinates, and `wellFormed_expected` says
that the keys do no harm.

## Hypotheses

None for the first.  For the second the name of the series is plain, as the builder writes it as it
is.

## What it rests on

`Client.Builder` for the effects and `read_lines` of `Client.LineProtocol` for what a text is read
as.  Which metrics are handed to `save` is the subject of `Queue.Poller`.
-/

namespace S3Proxy

namespace Queue

open Client (Builder Properties Value)
open Client.LineProtocol (Field Record Plain)

namespace Tsdb

inductive Effect
  | startRecord (name : Bytes)
  | call (c : Builder.Call)
  | endRecord
  /-- `ILPClient::write` of what the builder has finished. -/
  | write
  deriving DecidableEq

/-- The builder of one call of `save`, and what the ILP client has been given. -/
structure Output where
  builder : Builder := {}
  written : List Bytes := []
  deriving DecidableEq

def perform (now : TimePoint) : PartialStep Output Effect
  | o, .startRecord name => some { o with builder := o.builder.startRecord name now }
  | o, .call c => (o.builder.call c).map fun builder => { o with builder }
  | o, .endRecord => o.builder.endRecord.map fun builder => { o with builder }
  | o, .write =>
      some { builder := { o.builder with value := [] }, written := o.written ++ [o.builder.finish] }

/-- The resource without its query. -/
def resource (metric : Metric) : Bytes := metric.resource.takeWhile (· ≠ chr '?')

/-- A location field as a tag, with underscores for spaces. -/
def underscored (v : Bytes) : Bytes := v.map fun c => if c = chr ' ' then chr '_' else c

def addTag (fields : Properties) (key : Bytes) : List Builder.Call :=
  match fields.find key with
  | none => []
  | some v => [.addTag key (underscored v)]

def saveLocation (fields : Properties) : List Builder.Call :=
  if fields.isEmpty then []
  else
    match fields.find (bytesOf "latitude"), fields.find (bytesOf "longitude") with
    | some lat, some lng =>
        [Builder.Call.addValue (bytesOf "latitude") (.string lat),
          .addValue (bytesOf "longitude") (.string lng)] ++
        addTag fields (bytesOf "city") ++
        addTag fields (bytesOf "continent") ++
        addTag fields (bytesOf "country") ++
        addTag fields (bytesOf "country_iso_code") ++
        addTag fields (bytesOf "subdivision")
    | _, _ => []

/-- `duration_cast` of the time to milliseconds. -/
def millis (metric : Metric) : Int64 := Int64.ofInt (metric.time.toInt.tdiv 1000000)

/-- The calls of `save` on its builder. -/
def calls (metric : Metric) (fields : Properties) : List Builder.Call :=
  [Builder.Call.addTag (bytesOf "method") metric.method,
    .addTag (bytesOf "resource") (resource metric),
    .addTag (bytesOf "ipaddress") metric.ipaddress] ++
  (if metric.mimeType = [] then []
    else [Builder.Call.addTag (bytesOf "mimeType") metric.mimeType]) ++
  [Builder.Call.addValue (bytesOf "size") (.uint64 metric.size),
    .addValue (bytesOf "time") (.int64 (millis metric)),
    .addValue (bytesOf "status") (.int32 metric.status)] ++
  (if fields.isEmpty then [] else saveLocation fields)

/-- `TSDBClient::save`. -/
def save (metric : Metric) (fields : Properties) : List Effect := (calls metric fields).map .call

/-! ### What should be handed over -/

/-- A location field as a tag, if it is known. -/
def locationTag (fields : Properties) (key : String) : Option (Bytes × Bytes) :=
  (fields.find (bytesOf key)).map fun v => (bytesOf key, underscored v)

/-- Where the visitor is, if both coordinates are known. -/
def coordinates (fields : Properties) : Option (Bytes × Bytes) :=
  (fields.find (bytesOf "latitude")).bind fun lat =>
    (fields.find (bytesOf "longitude")).map fun lng => (lat, lng)

/-- The record of a metric. -/
def expected (series : Bytes) (metric : Metric) (fields : Properties) (timestamp : TimePoint) :
    Record Value where
  name := series
  tags :=
    [(bytesOf "method", metric.method), (bytesOf "resource", resource metric),
      (bytesOf "ipaddress", metric.ipaddress)] ++
    (if metric.mimeType = [] then [] else [(bytesOf "mimeType", metric.mimeType)]) ++
    (if (coordinates fields).isSome then
      ["city", "continent", "country", "country_iso_code", "subdivision"].filterMap
        (locationTag fields)
    else [])
  values :=
    [(bytesOf "size", .uint64 metric.size), (bytesOf "time", .int64 (millis metric)),
      (bytesOf "status", .int32 metric.status)] ++
    match coordinates fields with
    | some (lat, lng) =>
        [(bytesOf "latitude", .string lat), (bytesOf "longitude", .string lng)]
    | none => []
  timestamp := timestamp

/-- Every call finds an open record, and one text is written, which reads as the record of the
metric. -/
def Handed (series : Bytes) (now : TimePoint) (metric : Metric) (fields : Properties)
    (effects : List Effect) : Prop :=
  ∃ o, PartialStep.exec (perform now) {} effects = some o ∧
    ∃ text timestamp, o.written = [text] ∧
      Client.LineProtocol.read text = some [(expected series metric fields timestamp).fields]

/-- The first call finds no open record. -/
lemma exec_save (now : TimePoint) (metric : Metric) (fields : Properties) :
    PartialStep.exec (perform now) {} (save metric fields) = none := rfl

lemma write_notMem_save (metric : Metric) (fields : Properties) :
    Effect.write ∉ save metric fields := by
  intro h
  obtain ⟨c, -, hc⟩ := List.mem_map.mp h
  cases hc

/-- **No metric reaches the time series database.**  Whatever the metric and its location, `save`
fills a record that it has not opened, and hands nothing over. -/
theorem save_not_handed (series : Bytes) (now : TimePoint) (metric : Metric)
    (fields : Properties) : ¬ Handed series now metric fields (save metric fields) ∧
      Effect.write ∉ save metric fields := by
  refine ⟨?_, write_notMem_save metric fields⟩
  rintro ⟨o, hrun, -⟩
  rw [exec_save] at hrun
  cases hrun

/-- A metric without a location. -/
theorem save_sample_not_handed :
    ¬ Handed (bytesOf "request") 0 .sample .none (save .sample .none) := by
  rintro ⟨o, hrun, -⟩
  cases hrun

/-! ### What is missing -/

/-- The calls on an open record, one after the other. -/
lemma exec_calls {now : TimePoint} (cs : List Builder.Call) (o : Output) :
    PartialStep.exec (perform now) o (cs.map .call) =
      (cs.foldlM Builder.call o.builder).map fun builder => { o with builder } := by
  induction cs generalizing o with
  | nil => rfl
  | cons c cs ih =>
      rw [List.map_cons, PartialStep.exec_cons, List.foldlM_cons, perform]
      cases o.builder.call c with
      | none => rfl
      | some builder => exact ih _

lemma filterMap_tag_addTag (fields : Properties) (key : String) :
    (addTag fields (bytesOf key)).filterMap Builder.Call.tag? =
      (locationTag fields key).toList := by
  rw [addTag, locationTag]
  cases fields.find (bytesOf key) <;> rfl

lemma filterMap_value_addTag (fields : Properties) (key : Bytes) :
    (addTag fields key).filterMap Builder.Call.value? = [] := by
  rw [addTag]
  cases fields.find key <;> rfl

/-- **The calls for the location**, if both coordinates are known. -/
lemma saveLocation_eq (fields : Properties) :
    (if fields.isEmpty then [] else saveLocation fields) =
      match coordinates fields with
      | some (lat, lng) =>
          [Builder.Call.addValue (bytesOf "latitude") (.string lat),
            .addValue (bytesOf "longitude") (.string lng)] ++
          ["city", "continent", "country", "country_iso_code", "subdivision"].flatMap
            fun key => addTag fields (bytesOf key)
      | none => [] := by
  cases hempty : fields.isEmpty with
  | true => simp [coordinates, Assoc.find_of_isEmpty hempty]
  | false =>
      rw [if_neg (by simp), saveLocation, if_neg (by simp [hempty]), coordinates]
      cases fields.find (bytesOf "latitude") with
      | none => rfl
      | some lat =>
          cases fields.find (bytesOf "longitude") with
          | none => rfl
          | some lng => simp

/-- The tags of the calls are those of the record. -/
lemma filterMap_tag_calls (series : Bytes) (metric : Metric) (fields : Properties)
    (timestamp : TimePoint) : (calls metric fields).filterMap Builder.Call.tag? =
      (expected series metric fields timestamp).tags := by
  have hmime : (if metric.mimeType = [] then [] else
      [Builder.Call.addTag (bytesOf "mimeType") metric.mimeType]).filterMap Builder.Call.tag? =
        if metric.mimeType = [] then [] else [(bytesOf "mimeType", metric.mimeType)] := by
    split_ifs <;> rfl
  have hlocation : (if fields.isEmpty then [] else saveLocation fields).filterMap
      Builder.Call.tag? = if (coordinates fields).isSome then
        ["city", "continent", "country", "country_iso_code", "subdivision"].filterMap
          (locationTag fields) else [] := by
    rw [saveLocation_eq]
    cases coordinates fields with
    | none => rfl
    | some place =>
        rw [Option.isSome_some, if_pos rfl, List.filterMap_append, List.filterMap_flatMap,
          List.filterMap_eq_flatMap_toList (locationTag fields)]
        simp only [filterMap_tag_addTag]
        rfl
  rw [calls, List.filterMap_append, List.filterMap_append, List.filterMap_append, hmime, hlocation,
    expected]
  simp [Builder.Call.tag?]

/-- The values of the calls are those of the record. -/
lemma filterMap_value_calls (series : Bytes) (metric : Metric) (fields : Properties)
    (timestamp : TimePoint) : (calls metric fields).filterMap Builder.Call.value? =
      (expected series metric fields timestamp).values := by
  have hmime : (if metric.mimeType = [] then [] else
      [Builder.Call.addTag (bytesOf "mimeType") metric.mimeType]).filterMap
        Builder.Call.value? = [] := by
    split_ifs <;> rfl
  have hlocation : (if fields.isEmpty then [] else saveLocation fields).filterMap
      Builder.Call.value? = match coordinates fields with
        | some (lat, lng) =>
            [(bytesOf "latitude", .string lat), (bytesOf "longitude", .string lng)]
        | none => [] := by
    rw [saveLocation_eq]
    cases coordinates fields with
    | none => rfl
    | some place =>
        rw [List.filterMap_append, List.filterMap_flatMap]
        simp only [filterMap_value_addTag]
        rfl
  rw [calls, List.filterMap_append, List.filterMap_append, List.filterMap_append, hmime, hlocation,
    expected]
  simp [Builder.Call.value?]

/-- The keys that `save` uses. -/
lemma plain_key : ∀ key ∈ ["method", "resource", "ipaddress", "mimeType", "city", "continent",
    "country", "country_iso_code", "subdivision", "size", "time", "status", "latitude",
    "longitude"], Plain (bytesOf key) := by
  decide

lemma wellFormed_expected {series : Bytes} (hseries : Plain series) (metric : Metric)
    (fields : Properties) (timestamp : TimePoint) :
    (expected series metric fields timestamp).WellFormed := by
  constructor
  · exact hseries
  · exact nofun
  · intro t ht
    rcases List.mem_append.mp ht with ht | ht
    · rcases List.mem_append.mp ht with ht | ht
      · simp only [List.mem_cons, List.not_mem_nil, or_false] at ht
        rcases ht with rfl | rfl | rfl
        · exact plain_key "method" (by simp)
        · exact plain_key "resource" (by simp)
        · exact plain_key "ipaddress" (by simp)
      · split_ifs at ht
        · cases ht
        · rw [List.mem_singleton.mp ht]
          exact plain_key "mimeType" (by simp)
    · split_ifs at ht
      · obtain ⟨key, hkey, ht⟩ := List.mem_filterMap.mp ht
        obtain ⟨v, -, heq⟩ := Option.map_eq_some_iff.mp ht
        rw [← heq]
        apply plain_key key
        fin_cases hkey <;> simp
      · cases ht
  · exact nofun
  · intro t ht
    rcases List.mem_append.mp ht with ht | ht
    · simp only [List.mem_cons, List.not_mem_nil, or_false] at ht
      rcases ht with rfl | rfl | rfl
      · exact plain_key "size" (by simp)
      · exact plain_key "time" (by simp)
      · exact plain_key "status" (by simp)
    · cases hcoord : coordinates fields with
      | none =>
          rw [hcoord] at ht
          cases ht
      | some c =>
          rw [hcoord] at ht
          simp only [List.mem_cons, List.not_mem_nil, or_false] at ht
          rcases ht with rfl | rfl
          · exact plain_key "latitude" (by simp)
          · exact plain_key "longitude" (by simp)

/-- **What is missing** in `save` is that a record is opened before its calls, and ended and written
behind them. -/
lemma handed_of_opened {series : Bytes} (hseries : Plain series) (now timestamp : TimePoint)
    (metric : Metric) (fields : Properties) :
    Handed series now metric fields (Effect.startRecord series :: save metric fields ++
      [Effect.call (.timestamp timestamp), Effect.endRecord, Effect.write]) := by
  let script : Builder.Script := ⟨series, now, calls metric fields ++ [.timestamp timestamp]⟩
  have hrecord : Client.LineProtocol.record script = expected series metric fields timestamp := by
    have htags : script.tags = (expected series metric fields timestamp).tags := by
      rw [← filterMap_tag_calls]
      simp [script, Builder.Script.tags, Builder.Call.tag?]
    have hvalues : script.values = (expected series metric fields timestamp).values := by
      rw [← filterMap_value_calls]
      simp [script, Builder.Script.values, Builder.Call.value?]
    have htime : script.time = timestamp := by
      simp [script, Builder.Script.time, Builder.Call.timestamp?]
    rw [Client.LineProtocol.record, htags, hvalues, htime]
    rfl
  have hwf := wellFormed_expected hseries metric fields timestamp
  rw [← hrecord] at hwf
  obtain ⟨b, hput, hvalue⟩ := Builder.value_put {} script hwf.tags_ne_nil
  obtain ⟨b', hcalls, hend⟩ := Option.bind_eq_some_iff.mp hput
  refine ⟨⟨{ b with value := [] }, [b.finish]⟩, ?_, b.finish, timestamp, rfl, ?_⟩
  · have heffects : Effect.startRecord series :: save metric fields ++
        [Effect.call (.timestamp timestamp), Effect.endRecord, Effect.write] =
          Effect.startRecord series ::
            (script.calls.map Effect.call ++ [Effect.endRecord, Effect.write]) := by
      simp [script, save]
    rw [heffects, PartialStep.exec_cons, perform, Option.bind_some]
    refine PartialStep.exec_append_of (t := ⟨b', []⟩) ?_ ?_
    · rw [exec_calls, hcalls]
      rfl
    · rw [PartialStep.exec_cons, perform, hend]
      rfl
  · have hscripts : ∀ s ∈ [script], (Client.LineProtocol.record s).WellFormed := by simpa using hwf
    have hread := Client.LineProtocol.read_lines hscripts
    rw [Builder.finish, hvalue, ← hrecord]
    simpa using hread

end Tsdb

end Queue

end S3Proxy
