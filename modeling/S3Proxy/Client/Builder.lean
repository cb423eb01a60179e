import S3Proxy.Model.Text

/-!
# The ILP builder

`Builder` collects records of the InfluxDB line protocol.  A record is opened by `startRecord`,
filled by the overloads of `addTag` and `addValue` and by `timestamp`, and written out by
`endRecord`.  The open record is an `std::optional`, and the operations that look into it have no
meaning while it is empty: they are partial here.

`Call` names the operations on an open record.  `Script` is everything that one record is made of:
the name, the time at which the record is opened, and the calls, in any order.

## Main results

`value_put`: what a script writes is its `line`, behind what was there before.  `value_foldlM_put`
is the same for a sequence of scripts, whose lines follow each other.  So what a builder holds is
known from the scripts alone, and the order of the calls in a script matters only as far as `tags`,
`values` and `time` of the script say.

`call_of_record` is the step, one call on an open record, and `foldlM_call` the induction over the
calls.  `foldl_append` is why the commas come out right however the items are added.

## Hypotheses

Each script has a tag.  A record without tags is written with a comma behind its name all the same,
and `endRecord` does not test for it.

## Where it is used

`Client.LineProtocol` reads the lines back, `Client.Ilp` sends them, and `Queue.Tsdb` has the
scripts that the program makes of a metric, or means to make.
-/

namespace S3Proxy

namespace Client

/-- What one byte contributes to `clean`. -/
def cleanByte (space : Bool) (c : UInt8) : Bytes :=
  if c = chr ',' then bytesOf "\\,"
  else if c = chr '"' then bytesOf "\\\""
  else if c = chr '=' then bytesOf "\\="
  else if c = chr '\n' then bytesOf "\\\n"
  else if c = chr '\r' then bytesOf "\\\r"
  else if c = chr '\\' then bytesOf "\\\\"
  else if c = chr ' ' then if space then bytesOf "\\ " else [c]
  else [c]

/-- `pbuilder::clean`. -/
def clean (view : Bytes) (space : Bool) : Bytes := view.flatMap (cleanByte space)

/-- The argument of the overloads of `addValue`; those for floating point are not used. -/
inductive Value
  | bool (v : Bool)
  | int32 (v : Int32)
  | uint32 (v : UInt32)
  | int64 (v : Int64)
  | uint64 (v : UInt64)
  | string (v : Bytes)
  deriving DecidableEq

/-- What the overloads of `addValue` put behind the key and `=`. -/
def Value.format : Value → Bytes
  | .bool v => bytesOf (toString v)
  | .int32 v => formatInt v.toInt ++ bytesOf "i"
  | .uint32 v => formatNat v.toNat ++ bytesOf "u"
  | .int64 v => formatInt v.toInt ++ bytesOf "i"
  | .uint64 v => formatNat v.toNat ++ bytesOf "u"
  | .string v => bytesOf "\"" ++ clean v false ++ bytesOf "\""

/-- `Builder::Record`. -/
structure Builder.Record where
  name : Bytes
  tags : Bytes := []
  value : Bytes := []
  timestamp : TimePoint
  deriving DecidableEq

structure Builder where
  value : Bytes := []
  record : Option Builder.Record := none
  deriving DecidableEq

namespace Builder

/-- Append `key=text`, behind a comma unless it is the first. -/
def Record.append (acc key text : Bytes) : Bytes :=
  (if acc = [] then acc else acc ++ bytesOf ",") ++ (key ++ bytesOf "=" ++ text)

/-- `now` is what the constructor of the record reads off the clock. -/
def startRecord (b : Builder) (name : Bytes) (now : TimePoint) : Builder :=
  { b with record := some { name, timestamp := now } }

/-- An operation on the open record. -/
def onRecord (b : Builder) (f : Record → Record) : Option Builder :=
  b.record.map fun r => { b with record := some (f r) }

def addTag (b : Builder) (key v : Bytes) : Option Builder :=
  b.onRecord fun r => { r with tags := Record.append r.tags key (clean v true) }

def addValue (b : Builder) (key : Bytes) (v : Value) : Option Builder :=
  b.onRecord fun r => { r with value := Record.append r.value key v.format }

def timestamp (b : Builder) (v : TimePoint) : Option Builder :=
  b.onRecord fun r => { r with timestamp := v }

/-- The record stays open. -/
def endRecord (b : Builder) : Option Builder :=
  b.record.map fun r =>
    { b with value := b.value ++ (r.name ++ bytesOf "," ++ r.tags ++ bytesOf " " ++ r.value ++
        bytesOf " " ++ formatInt r.timestamp ++ bytesOf "\n") }

def finish (b : Builder) : Bytes := b.value

/-- The operations on an open record. -/
inductive Call
  | addTag (key v : Bytes)
  | addValue (key : Bytes) (v : Value)
  | timestamp (v : TimePoint)
  deriving DecidableEq

def call (b : Builder) : Call → Option Builder
  | .addTag key v => b.addTag key v
  | .addValue key v => b.addValue key v
  | .timestamp v => b.timestamp v

/-- Everything that one record is made of. -/
structure Script where
  name : Bytes
  now : TimePoint
  calls : List Call
  deriving DecidableEq

/-- Open a record, fill it and write it out. -/
def put (b : Builder) (script : Script) : Option Builder := do
  let b ← script.calls.foldlM call (b.startRecord script.name script.now)
  b.endRecord

/-! ### What a record accumulates -/

def Call.tag? : Call → Option (Bytes × Bytes)
  | .addTag key v => some (key, v)
  | .addValue .. | .timestamp _ => none

def Call.value? : Call → Option (Bytes × Value)
  | .addValue key v => some (key, v)
  | .addTag .. | .timestamp _ => none

def Call.timestamp? : Call → Option TimePoint
  | .timestamp v => some v
  | .addTag .. | .addValue .. => none

namespace Script

variable (script : Script)

/-- The tags, in the order in which they are added. -/
def tags : List (Bytes × Bytes) := script.calls.filterMap Call.tag?

def values : List (Bytes × Value) := script.calls.filterMap Call.value?

/-- The last time that was set, or else the one at which the record was opened. -/
def time : TimePoint := (script.calls.filterMap Call.timestamp?).getLastD script.now

end Script

/-- A comma-separated list of items. -/
def joined (items : List Bytes) : Bytes := (bytesOf ",").intercalate items

/-- The text of an item. -/
def item (key text : Bytes) : Bytes := key ++ bytesOf "=" ++ text

/-- What a record holds that was opened as `r` and has seen some calls. -/
def Record.after (r : Record) (calls : List Call) : Record where
  name := r.name
  tags := (calls.filterMap Call.tag?).foldl
    (fun acc t => Record.append acc t.1 (clean t.2 true)) r.tags
  value := (calls.filterMap Call.value?).foldl
    (fun acc t => Record.append acc t.1 t.2.format) r.value
  timestamp := (calls.filterMap Call.timestamp?).getLastD r.timestamp

lemma item_ne_nil (key text : Bytes) : item key text ≠ [] := by
  intro h
  have := congrArg List.length h
  simp [item, bytesOf] at this

/-- Behind the first item, every item brings its comma. -/
lemma joined_cons (x : Bytes) (xs : List Bytes) :
    joined (x :: xs) = x ++ xs.flatMap (bytesOf "," ++ ·) := by
  induction xs generalizing x with
  | nil => simp [joined]
  | cons y ys ih =>
      have hy : joined (y :: ys) = y ++ ys.flatMap (bytesOf "," ++ ·) := ih y
      rw [joined, List.intercalate_cons_cons, ← joined, hy]
      simp [List.append_assoc]

/-- The items are separated by commas however they are added one by one. -/
lemma foldl_append {α : Type*} (key text : α → Bytes) (l : List α) :
    l.foldl (fun acc t => Record.append acc (key t) (text t)) [] =
      joined (l.map fun t => item (key t) (text t)) := by
  have hrest : ∀ (l : List α) {acc : Bytes}, acc ≠ [] →
      l.foldl (fun acc t => Record.append acc (key t) (text t)) acc =
        acc ++ (l.map fun t => item (key t) (text t)).flatMap (bytesOf "," ++ ·) := by
    intro l
    induction l with
    | nil => simp
    | cons t l ih =>
        intro acc hacc
        have happend : Record.append acc (key t) (text t) =
            acc ++ (bytesOf "," ++ item (key t) (text t)) := by
          rw [Record.append, if_neg hacc, List.append_assoc, item]
        rw [List.foldl_cons, happend, ih (by simp [hacc])]
        simp [List.append_assoc]
  cases l with
  | nil => rfl
  | cons t l =>
      have hfirst : Record.append [] (key t) (text t) = item (key t) (text t) := rfl
      rw [List.foldl_cons, hfirst, hrest l (item_ne_nil _ _), List.map_cons, joined_cons]

/-! ### What a script writes -/

/-- One call changes the open record, and nothing else. -/
lemma call_of_record {b : Builder} {r : Record} (hopen : b.record = some r) (c : Call) :
    b.call c = some { b with record := some (r.after [c]) } := by
  cases c with
  | addTag key v =>
      rw [call, addTag, onRecord, hopen]
      rfl
  | addValue key v =>
      rw [call, addValue, onRecord, hopen]
      rfl
  | timestamp v =>
      rw [call, timestamp, onRecord, hopen]
      rfl

lemma Record.after_cons (r : Record) (c : Call) (calls : List Call) :
    r.after (c :: calls) = (r.after [c]).after calls := by
  cases c with
  | addTag key v => rfl
  | addValue key v => rfl
  | timestamp v =>
      simp only [Record.after, Call.tag?, Call.value?, Call.timestamp?, List.filterMap_cons,
        List.filterMap_nil, List.foldl_nil, List.getLastD_cons, List.getLastD_nil]

/-- The calls of a script accumulate in the record that it opens. -/
lemma foldlM_call {b : Builder} {r : Record} (hopen : b.record = some r) (calls : List Call) :
    calls.foldlM call b = some { b with record := some (r.after calls) } := by
  induction calls generalizing b r with
  | nil =>
      cases b
      simp_all [Record.after]
  | cons c calls ih =>
      rw [List.foldlM_cons, call_of_record hopen c]
      refine (ih rfl).trans ?_
      rw [← Record.after_cons]

namespace Script

variable (script : Script)

/-- The line that a script writes. -/
def line : Bytes :=
  joined (script.name :: script.tags.map fun t => item t.1 (clean t.2 true)) ++ bytesOf " " ++
    joined (script.values.map fun t => item t.1 t.2.format) ++ bytesOf " " ++
      formatInt script.time

end Script

/-- **What a script writes** is its line, behind what was there before. -/
lemma value_put (b : Builder) (script : Script) (htags : script.tags ≠ []) :
    ∃ b', b.put script = some b' ∧ b'.value = b.value ++ (script.line ++ bytesOf "\n") := by
  have hline : joined (script.name :: script.tags.map fun t => item t.1 (clean t.2 true)) =
      script.name ++ bytesOf "," ++
        joined (script.tags.map fun t => item t.1 (clean t.2 true)) := by
    cases htag : script.tags with
    | nil => exact absurd htag htags
    | cons t ts => rw [List.map_cons, joined, List.intercalate_cons_cons, joined]
  let opened : Record := { name := script.name, timestamp := script.now }
  have hcalls : script.calls.foldlM call (b.startRecord script.name script.now) =
      some { b with record := some (opened.after script.calls) } := foldlM_call rfl _
  rw [put, hcalls]
  refine ⟨_, rfl, ?_⟩
  dsimp only [Record.after, opened]
  rw [foldl_append, foldl_append, Script.line, hline]
  simp only [List.append_assoc, Script.tags, Script.values, Script.time]

/-- A sequence of scripts writes its lines one behind the other. -/
lemma value_foldlM_put (scripts : List Script) (htags : ∀ s ∈ scripts, s.tags ≠ [])
    (b : Builder) : ∃ b', scripts.foldlM put b = some b' ∧
      b'.value = b.value ++ scripts.flatMap fun s => s.line ++ bytesOf "\n" := by
  induction scripts generalizing b with
  | nil => exact ⟨b, rfl, by simp⟩
  | cons s scripts ih =>
      obtain ⟨b₁, hput, hvalue⟩ := value_put b s (htags s List.mem_cons_self)
      obtain ⟨b₂, hrest, hvalue'⟩ := ih (fun t ht => htags t (List.mem_cons_of_mem s ht)) b₁
      refine ⟨b₂, ?_, ?_⟩
      · rw [List.foldlM_cons, hput]
        exact hrest
      · rw [hvalue', hvalue, List.flatMap_cons, List.append_assoc]

end Builder

end Client

end S3Proxy
