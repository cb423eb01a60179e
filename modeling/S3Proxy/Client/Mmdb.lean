import S3Proxy.Library.Assoc
import S3Proxy.Library.Split
import S3Proxy.Model.Text

/-!
# The connection to the MMDB service

`execute` sends a query line and reads the answer up to a blank line.  One `streambuf` serves both
directions.  Here it is a list of octets, and each octet remembers where it comes from; the program
looks at the bytes only.  `Io` says what the socket does during one call.

A call is `Unmixed` if what it hands to `send` is its query line, and what it returns arrived during
this call.

## Main result

`allUnmixed_iff_orderly`: on a new connection, requests and answers do not mix in any of the calls
exactly if the calls are `Orderly`.  Every call is `Covered`, so that what was not sent of its query
does not show in its answer, and every call but the last is `Tidy`, so that it leaves an empty
buffer.  Both are conditions on the query and on what the socket does.

`execute_cases` says what a call can do, for any state of the buffer.  `buffer_execute_eq_nil_iff`
is exact about what a call leaves behind, `origin_iff_covered` about what it answers, and
`unmixed_iff` puts these together for one call.

## Hypotheses

None but an open socket with an empty buffer, which a new connection has.  What the service answers
is arbitrary.

## Where it is used

`Client.Fields` parses the answer.  `Client.Session` has these connections in a pool and uses
`isOpen_execute`, `v_execute` and `failed_execute`, which say what no call ever changes, and
`Queue.Poller` takes the properties of an address as given.  The relation between the splitting here
and the loop of the source is in `Util.Split`.
-/

namespace S3Proxy

namespace Client

/-- `MMDBConnection::Properties`. -/
abbrev Properties := Assoc Bytes Bytes

/-- `std::isspace`. -/
def isspace (c : UInt8) : Bool := c = chr ' ' || (9 ≤ c && c ≤ 13)

/-- `pmmdb::split`. -/
def Mmdb.split (text delims : Bytes) : List Bytes := Text.split (· ∈ delims) text

/-- Where an octet comes from: the query of a call, or the socket during a call. -/
inductive Origin
  | query (call : ℕ)
  | reply (call : ℕ)
  deriving DecidableEq

structure Octet where
  byte : UInt8
  origin : Origin
  deriving DecidableEq

structure MMDBConnection where
  buffer : List Octet := []
  isOpen : Bool := true
  v : Bool := true
  /-- Whether a send or a read has failed on the present socket; the program does not look. -/
  failed : Bool := false
  deriving DecidableEq

/-- What the socket does during a call of `execute`. -/
structure Io where
  /-- Whether a connection can be made, should the socket be closed. -/
  connect : Bool := true
  /-- How many bytes `send` accepts; it may throw. -/
  send : Option ℕ
  /-- What `read_until` gets from the socket, if it has to read. -/
  arrived : Bytes
  deriving DecidableEq

/-- What a call of `execute` does. -/
structure Execution where
  /-- The argument of `send`, if it comes to that. -/
  handed : Option (List Octet)
  /-- The text that is returned; the call may throw. -/
  text : Option (List Octet)
  connection : MMDBConnection
  deriving DecidableEq

namespace MMDBConnection

/-- The line that a query is sent as. -/
def request (query : Bytes) : Bytes := bytesOf "f:" ++ query ++ bytesOf "\n"

/-- The octets of a query line. -/
def sent (n : ℕ) (query : Bytes) : List Octet := (request query).map (Octet.mk · (.query n))

/-- The octets of an answer. -/
def got (n : ℕ) (arrived : Bytes) : List Octet := arrived.map (Octet.mk · (.reply n))

/-- `socket()`: connects a closed socket, or throws. -/
def socket (c : MMDBConnection) (connect : Bool) : Option MMDBConnection :=
  if c.isOpen then some c
  else if connect then some { c with isOpen := true, failed := false }
  else none

def isLf (o : Octet) : Bool := o.byte = chr '\n'

/-- `read_until`: it looks at the buffer before it reads, and on an error keeps what it has read.
The result is the length up to the end of the blank line. -/
def readUntil (buffer arrived : List Octet) : Option ℕ × List Octet :=
  match Text.blankLine isLf buffer with
  | some osize => (some osize, buffer)
  | none => (Text.blankLine isLf (buffer ++ arrived), buffer ++ arrived)

/-- Trim, and remove the zero bytes. -/
def cleanUp (resp : List Octet) : List Octet :=
  (Text.trim (fun o => isspace o.byte) resp).filter fun o => o.byte ≠ 0

/-- `execute`, in the `n`-th call on this connection. -/
def execute (n : ℕ) (c : MMDBConnection) (query : Bytes) (io : Io) : Execution :=
  let c := { c with buffer := c.buffer ++ sent n query }
  match c.socket io.connect with
  | none => ⟨none, none, c⟩
  | some c =>
      match io.send with
      | none => ⟨some c.buffer, none, { c with failed := true }⟩
      | some isize =>
          -- `socket()` has nothing to do the second time
          match readUntil (c.buffer.drop isize) (got n io.arrived) with
          | (none, buffer) => ⟨some c.buffer, some [], { c with buffer, failed := true }⟩
          | (some osize, buffer) =>
              -- what `commit` adds lies behind the answer, and all is consumed
              ⟨some c.buffer, some (cleanUp (buffer.take osize)), { c with buffer := [] }⟩

/-- The body of `fields` behind `execute`; a line without two parts has no meaning. -/
def parse (text ip : Bytes) : Option Properties :=
  if text = ip then some .none
  else
    (Mmdb.split text (bytesOf "\n")).foldlM (fun props line =>
      match Mmdb.split line (bytesOf ":") with
      | key :: value :: _ =>
          some (props.emplace (Text.trim isspace key) (Text.trim isspace value))
      | _ => none) Assoc.none

/-- `fields`; an exception of `execute` ends in no properties. -/
def fields (n : ℕ) (c : MMDBConnection) (ip : Bytes) (io : Io) :
    Option Properties × MMDBConnection :=
  let e := c.execute n ip io
  match e.text with
  | none => (some .none, e.connection)
  | some text => (parse (text.map Octet.byte) ip, e.connection)

lemma connection_fields (n : ℕ) (c : MMDBConnection) (ip : Bytes) (io : Io) :
    (c.fields n ip io).2 = (c.execute n ip io).connection := by
  rw [fields]
  cases (c.execute n ip io).text <;> rfl

end MMDBConnection

/-- The bytes handed to `send` are the query line, and the text returned came from the socket
during the call. -/
structure Execution.Unmixed (n : ℕ) (query : Bytes) (e : Execution) : Prop where
  handed : ∀ h ∈ e.handed, h.map Octet.byte = MMDBConnection.request query
  text : ∀ t ∈ e.text, ∀ o ∈ t, o.origin = .reply n

instance (n : ℕ) (query : Bytes) (e : Execution) : Decidable (e.Unmixed n query) :=
  decidable_of_iff ((∀ h ∈ e.handed, h.map Octet.byte = MMDBConnection.request query) ∧
      ∀ t ∈ e.text, ∀ o ∈ t, o.origin = .reply n)
    ⟨fun h => ⟨h.1, h.2⟩, fun h => ⟨h.handed, h.text⟩⟩

namespace MMDBConnection

/-- Every one of successive calls is unmixed; the calls are numbered from `n` on. -/
def AllUnmixed : ℕ → MMDBConnection → List (Bytes × Io) → Prop
  | _, _, [] => True
  | n, c, (query, io) :: calls => (c.execute n query io).Unmixed n query ∧
      AllUnmixed (n + 1) (c.execute n query io).connection calls

def isLfByte (b : UInt8) : Bool := b = chr '\n'

/-- The call leaves nothing behind: `send` does not throw, and the blank line arrives, or else all
was sent and nothing has arrived. -/
def Tidy (query : Bytes) (io : Io) : Prop :=
  ∃ isize ∈ io.send, (Text.blankLine isLfByte ((request query).drop isize ++ io.arrived)).isSome ∨
    (request query).drop isize = [] ∧ io.arrived = []

/-- What trimming leaves of `unsent` when it is followed by `answer`. -/
def uncovered (unsent answer : Bytes) : Bytes :=
  if answer.all isspace then Text.trim isspace unsent else unsent.dropWhile isspace

/-- If there is an answer, what was not sent of the query is zero bytes, as far as it comes before
the blank line, but for white space in front and, if only white space follows, behind. -/
def Covered (query : Bytes) (io : Io) : Prop :=
  ∀ isize ∈ io.send,
    ∀ osize ∈ Text.blankLine isLfByte ((request query).drop isize ++ io.arrived),
      ∀ b ∈ uncovered (((request query).drop isize).take osize)
        (io.arrived.take (osize - ((request query).drop isize).length)), b = 0

variable {n : ℕ} {c : MMDBConnection} {query : Bytes} {io : Io}

/-! ### One call -/

lemma blankLine_octets (buffer : List Octet) :
    Text.blankLine isLf buffer = Text.blankLine isLfByte (buffer.map Octet.byte) := by
  rw [Text.blankLine_map]
  rfl

lemma byte_sent : (sent n query).map Octet.byte = request query := by
  simp [sent, List.map_map, Function.comp_def]

lemma byte_got {arrived : Bytes} : (got n arrived).map Octet.byte = arrived := by
  simp [got, List.map_map, Function.comp_def]

lemma readUntil_none {buffer arrived : List Octet}
    (h : Text.blankLine isLf (buffer ++ arrived) = none) :
    readUntil buffer arrived = (none, buffer ++ arrived) := by
  have hbuffer : Text.blankLine isLf buffer = none := by
    by_contra hne
    obtain ⟨osize, hosize⟩ := Option.ne_none_iff_exists'.mp hne
    rw [Text.blankLine_append hosize] at h
    cases h
  rw [readUntil, hbuffer, h]

/-- Whether it has to read or not, `read_until` answers with what comes first. -/
lemma readUntil_some {buffer arrived : List Octet} {osize : ℕ}
    (h : Text.blankLine isLf (buffer ++ arrived) = some osize) :
    ∃ rest, readUntil buffer arrived = (some osize, rest) ∧
      rest.take osize = (buffer ++ arrived).take osize := by
  rw [readUntil]
  cases hbuffer : Text.blankLine isLf buffer with
  | none => exact ⟨_, by rw [h], rfl⟩
  | some osize' =>
      have heq : osize' = osize :=
        Option.some.inj ((Text.blankLine_append hbuffer).symm.trans h)
      subst heq
      refine ⟨_, rfl, ?_⟩
      rw [List.take_append_of_le_length (Text.blankLine_le hbuffer)]

/-- **What an answer is made of**, when octets of the query stand in front of those that arrived. -/
lemma origin_cleanUp_iff {unsent answer : Bytes} :
    (∀ o ∈ cleanUp (unsent.map (Octet.mk · (.query n)) ++ answer.map (Octet.mk · (.reply n))),
        o.origin = .reply n) ↔ ∀ b ∈ uncovered unsent answer, b = 0 := by
  have hzero : ∀ l : Bytes, (∀ o ∈ (l.map (Octet.mk · (Origin.query n))).filter
      fun o => decide (o.byte ≠ 0), o.origin = .reply n) ↔ ∀ b ∈ l, b = 0 := by
    intro l
    constructor
    · intro h b hb
      by_contra hne
      have horigin := h ⟨b, .query n⟩
        (List.mem_filter.mpr ⟨List.mem_map_of_mem hb, by simpa using hne⟩)
      cases horigin
    · intro h o ho
      obtain ⟨hmem, hne⟩ := List.mem_filter.mp ho
      obtain ⟨b, hb, rfl⟩ := List.mem_map.mp hmem
      simp [h b hb] at hne
  rw [cleanUp, uncovered]
  by_cases hspace : answer.all isspace = true
  · rw [if_pos hspace, Text.trim_append_of_blank (by simpa using hspace), Text.trim_map]
    exact hzero _
  · have hstays : ¬ ∀ o ∈ answer.map (Octet.mk · (.reply n)), isspace o.byte = true := by
      simpa using hspace
    obtain ⟨l, hl, htrim⟩ :=
      Text.exists_trim_append (p := unsent.map (Octet.mk · (.query n))) hstays
    rw [if_neg hspace, htrim, List.filter_append, List.forall_mem_append, List.dropWhile_map, hzero]
    refine and_iff_left fun o ho => ?_
    obtain ⟨b, -, rfl⟩ := List.mem_map.mp (hl (List.mem_filter.mp ho).1)
    rfl

section Open

variable (hopen : c.isOpen = true)
include hopen

lemma socket_of_open {buffer : List Octet} {connect : Bool} :
    socket { c with buffer } connect = some { c with buffer } := if_pos hopen

/-- **A call on an open socket** hands over the buffer with the query line.  Then it fails and keeps
a buffer, or it returns a text and keeps nothing. -/
lemma execute_cases (n : ℕ) (query : Bytes) (io : Io) :
    (∃ text buffer, c.execute n query io =
      ⟨some (c.buffer ++ sent n query), text, { c with buffer, failed := true }⟩) ∨
    ∃ text, c.execute n query io =
      ⟨some (c.buffer ++ sent n query), some text, { c with buffer := [] }⟩ := by
  rw [execute, socket_of_open hopen]
  cases io.send with
  | none => exact .inl ⟨none, _, rfl⟩
  | some isize =>
      dsimp only
      cases readUntil ((c.buffer ++ sent n query).drop isize) (got n io.arrived) with
      | mk r buffer =>
          cases r with
          | none => exact .inl ⟨some [], buffer, rfl⟩
          | some osize => exact .inr ⟨_, rfl⟩

lemma handed_execute :
    (c.execute n query io).handed = some (c.buffer ++ sent n query) := by
  obtain ⟨text, buffer, heq⟩ | ⟨text, heq⟩ := execute_cases hopen n query io
  · rw [heq]
  · rw [heq]

/-- Nothing closes the socket. -/
lemma isOpen_execute : (c.execute n query io).connection.isOpen = true := by
  obtain ⟨text, buffer, heq⟩ | ⟨text, heq⟩ := execute_cases hopen n query io
  · rw [heq]
    exact hopen
  · rw [heq]
    exact hopen

/-- Nothing clears the flag that `valid` reads. -/
lemma v_execute : (c.execute n query io).connection.v = c.v := by
  obtain ⟨text, buffer, heq⟩ | ⟨text, heq⟩ := execute_cases hopen n query io
  · rw [heq]
  · rw [heq]

/-- A connection that has failed stays that way. -/
lemma failed_execute (hfailed : c.failed = true) :
    (c.execute n query io).connection.failed = true := by
  obtain ⟨text, buffer, heq⟩ | ⟨text, heq⟩ := execute_cases hopen n query io
  · rw [heq]
  · rw [heq]
    exact hfailed

/-- A call that does not fail leaves nothing behind. -/
lemma buffer_execute (h : (c.execute n query io).connection.failed = false) :
    (c.execute n query io).connection.buffer = [] := by
  obtain ⟨text, buffer, heq⟩ | ⟨text, heq⟩ := execute_cases hopen n query io
  · rw [heq] at h
    cases h
  · rw [heq]

lemma execute_of_threw (hbuffer : c.buffer = []) (hsend : io.send = none) :
    (c.execute n query io).text = none ∧
      (c.execute n query io).connection.buffer = sent n query := by
  rw [execute, socket_of_open hopen, hsend, hbuffer]
  exact ⟨rfl, rfl⟩

lemma execute_of_no_answer (hbuffer : c.buffer = []) {isize : ℕ} (hsend : io.send = some isize)
    (hblank : Text.blankLine isLfByte ((request query).drop isize ++ io.arrived) = none) :
    (c.execute n query io).text = some [] ∧
      (c.execute n query io).connection.buffer =
        (sent n query).drop isize ++ got n io.arrived := by
  have hnone : Text.blankLine isLf ((sent n query).drop isize ++ got n io.arrived) = none := by
    rw [blankLine_octets, List.map_append, List.map_drop, byte_sent, byte_got, hblank]
  rw [execute, socket_of_open hopen, hsend, hbuffer, List.nil_append]
  dsimp only
  rw [readUntil_none hnone]
  exact ⟨rfl, rfl⟩

lemma execute_of_answer (hbuffer : c.buffer = []) {isize osize : ℕ} (hsend : io.send = some isize)
    (hblank : Text.blankLine isLfByte ((request query).drop isize ++ io.arrived) = some osize) :
    (c.execute n query io).text =
        some (cleanUp (((sent n query).drop isize ++ got n io.arrived).take osize)) ∧
      (c.execute n query io).connection.buffer = [] := by
  have hsome : Text.blankLine isLf ((sent n query).drop isize ++ got n io.arrived) =
      some osize := by
    rw [blankLine_octets, List.map_append, List.map_drop, byte_sent, byte_got, hblank]
  obtain ⟨rest, hread, htake⟩ := readUntil_some hsome
  rw [execute, socket_of_open hopen, hsend, hbuffer, List.nil_append]
  dsimp only
  rw [hread]
  exact ⟨by rw [← htake], rfl⟩

/-- **What a call leaves behind.** -/
lemma buffer_execute_eq_nil_iff (hbuffer : c.buffer = []) :
    (c.execute n query io).connection.buffer = [] ↔ Tidy query io := by
  have hlength : (sent n query).length = (request query).length := List.length_map _
  cases hsend : io.send with
  | none =>
      rw [(execute_of_threw hopen hbuffer hsend).2]
      have hne : sent n query ≠ [] := by simp [sent, request, bytesOf]
      simp [hne, Tidy, hsend]
  | some isize =>
      cases hblank : Text.blankLine isLfByte ((request query).drop isize ++ io.arrived) with
      | none =>
          rw [(execute_of_no_answer hopen hbuffer hsend hblank).2]
          simp [Tidy, hsend, hblank, got, hlength]
      | some osize =>
          rw [(execute_of_answer hopen hbuffer hsend hblank).2]
          simp [Tidy, hsend, hblank]

/-- **What a call answers.**  A call that starts with an empty buffer answers with a part of its own
query precisely if that is not covered. -/
lemma origin_iff_covered (hbuffer : c.buffer = []) :
    (∀ t ∈ (c.execute n query io).text, ∀ o ∈ t, o.origin = .reply n) ↔ Covered query io := by
  cases hsend : io.send with
  | none =>
      rw [(execute_of_threw hopen hbuffer hsend).1]
      simp [Covered, hsend]
  | some isize =>
      cases hblank : Text.blankLine isLfByte ((request query).drop isize ++ io.arrived) with
      | none =>
          rw [(execute_of_no_answer hopen hbuffer hsend hblank).1]
          simp [Covered, hsend, hblank]
      | some osize =>
          have hcovered : Covered query io ↔
              ∀ b ∈ uncovered (((request query).drop isize).take osize)
                (io.arrived.take (osize - ((request query).drop isize).length)), b = 0 := by
            simp [Covered, hsend, hblank]
          have hparts : ((sent n query).drop isize ++ got n io.arrived).take osize =
              (((request query).drop isize).take osize).map (Octet.mk · (.query n)) ++
                (io.arrived.take (osize - ((request query).drop isize).length)).map
                  (Octet.mk · (.reply n)) := by
            rw [List.take_append, sent, got, ← List.map_drop, List.map_take, List.map_take,
              List.length_map]
          rw [(execute_of_answer hopen hbuffer hsend hblank).1, hcovered, hparts,
            ← origin_cleanUp_iff (n := n)]
          simp

end Open

/-! ### Successive calls -/

/-- The first call to see something in the buffer is mixed up with an earlier one. -/
lemma handed_iff (hopen : c.isOpen = true) :
    (∀ h ∈ (c.execute n query io).handed, h.map Octet.byte = request query) ↔ c.buffer = [] := by
  rw [handed_execute hopen]
  simp [byte_sent]

/-- Every call is covered, and every call but the last is tidy. -/
def Orderly (calls : List (Bytes × Io)) : Prop :=
  (∀ call ∈ calls, Covered call.1 call.2) ∧ ∀ call ∈ calls.dropLast, Tidy call.1 call.2

lemma orderly_cons {call call' : Bytes × Io} {calls : List (Bytes × Io)} :
    Orderly (call :: call' :: calls) ↔
      Covered call.1 call.2 ∧ Tidy call.1 call.2 ∧ Orderly (call' :: calls) := by
  simp only [Orderly, List.dropLast_cons_cons, List.forall_mem_cons]
  tauto

/-- **One call** is unmixed precisely if nothing was in the buffer and its answer is covered. -/
lemma unmixed_iff (hopen : c.isOpen = true) :
    (c.execute n query io).Unmixed n query ↔ c.buffer = [] ∧ Covered query io := by
  constructor
  · intro h
    have hbuffer := (handed_iff hopen).mp h.handed
    exact ⟨hbuffer, (origin_iff_covered hopen hbuffer).mp h.text⟩
  · rintro ⟨hbuffer, hcovered⟩
    exact ⟨(handed_iff hopen).mpr hbuffer, (origin_iff_covered hopen hbuffer).mpr hcovered⟩

/-- What one call leaves in the buffer is handed to the next `send`. -/
lemma allUnmixed_iff {calls : List (Bytes × Io)} (hopen : c.isOpen = true)
    (hbuffer : c.buffer = []) : AllUnmixed n c calls ↔ Orderly calls := by
  induction calls generalizing n c with
  | nil => exact iff_of_true trivial ⟨nofun, nofun⟩
  | cons call calls ih =>
      have hcall : (c.execute n call.1 call.2).Unmixed n call.1 ↔
          c.buffer = [] ∧ Covered call.1 call.2 := unmixed_iff hopen
      have htidy : (c.execute n call.1 call.2).connection.buffer = [] ↔ Tidy call.1 call.2 :=
        buffer_execute_eq_nil_iff hopen hbuffer
      rw [AllUnmixed, hcall, and_iff_right hbuffer]
      cases calls with
      | nil => simp [AllUnmixed, Orderly]
      | cons call' calls =>
          rw [orderly_cons]
          refine and_congr_right fun _ => ?_
          constructor
          · intro h
            have hnext := ((unmixed_iff (isOpen_execute hopen)).mp h.1).1
            exact ⟨htidy.mp hnext, (ih (isOpen_execute hopen) hnext).mp h⟩
          · intro h
            exact (ih (isOpen_execute hopen) (htidy.mpr h.1)).mpr h.2

/-- **Requests and answers do not mix** on a connection precisely if the calls are orderly. -/
theorem allUnmixed_iff_orderly (calls : List (Bytes × Io)) :
    AllUnmixed 0 {} calls ↔ Orderly calls :=
  allUnmixed_iff rfl rfl

/-- The first `send` throws: the second one is handed both queries. -/
theorem not_allUnmixed_of_threw :
    ¬ AllUnmixed 0 {} [(bytesOf "1.1.1.1", { send := none, arrived := [] }),
      (bytesOf "2.2.2.2", { send := some 19, arrived := bytesOf "city: A\n\n" })] := by
  rintro ⟨-, h, -⟩
  exact absurd h.handed (by decide)

end MMDBConnection

end Client

end S3Proxy
