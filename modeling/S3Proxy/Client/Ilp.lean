import S3Proxy.Client.LineProtocol
import S3Proxy.Library.Run
import S3Proxy.Library.Segments

/-!
# The connection to the time series database

`ILPClient.write` puts its data behind what earlier calls could not send, and sends as much of the
buffer as the socket takes.  The socket is closed after an error and after four minutes without a
call, and opened again for the next `send`.  `Io` is what the system does in one call.

## Main results

`sent_append_buffer_run`: no byte is lost, repeated or moved.  After any sequence of calls, what was
sent over all the connections and what is in the buffer add up to the data of the calls.

But what is left in the buffer goes over whichever connection is next, and it may begin in the
middle of a record (`Torn`).  `framed_iff_not_torn`: connections begin with a record throughout a
run exactly if no call of it is torn.  `Framed.whole` says what that gives, that a record which has
begun on one connection is not continued on another.

`write_spec` is the one lemma about a call: what was sent, and over which connections, covering the
second attempt after an error and both of the ways to a new socket (`socket_cases`).
`framed_step_iff` decides the step.

## Hypotheses

For the first result none.  In the second the data of each call is made of whole records, none of
which has a line feed but at its end, as `Client.LineProtocol` proves of what the builder writes.

## What it rests on

`Library.Segments`, with the records as pieces and the connections as channels, and the exact rule
for runs in `Library.Run`.
-/

namespace S3Proxy

namespace Client

open Quoting Segments

namespace ILPClient

/-- What comes of opening the socket. -/
inductive Connect
  | connected
  /-- No endpoint takes the connection; the socket may stay open. -/
  | refused (isOpen : Bool)
  /-- There is a connection, but its options cannot be set. -/
  | optionThrows
  deriving DecidableEq

inductive Send
  /-- Nothing is accepted. -/
  | error
  /-- As many bytes are accepted, or all if there are less. -/
  | accepted (n : ℕ)
  deriving DecidableEq

/-- What the system does in one call of `write`. -/
structure Io where
  now : TimePoint
  connect : Connect := .connected
  send : Send
  /-- The second attempt, after an error of the first. -/
  retryNow : TimePoint := now
  retryConnect : Connect := .connected
  retrySend : Send := .error
  done : TimePoint := now
  deriving DecidableEq

end ILPClient

structure ILPClient where
  buffer : Bytes := []
  isOpen : Bool := true
  last : TimePoint
  /-- What was sent over the present connection. -/
  connection : Bytes := []
  /-- What was sent over each of those before it, the newest first. -/
  older : List Bytes := []
  deriving DecidableEq

namespace ILPClient

/-- A client as its constructor leaves it. -/
def start (now : TimePoint) : ILPClient := { last := now }

def close (s : ILPClient) : ILPClient := { s with isOpen := false }

/-- The socket is opened, for a connection of its own. -/
def reopen (s : ILPClient) : ILPClient :=
  { s with isOpen := true, connection := [], older := s.connection :: s.older }

/-- The part of `socket` that opens it; with the state that it leaves where it throws. -/
def connect (s : ILPClient) : Connect → Except ILPClient ILPClient
  | .connected => .ok s.reopen
  | .refused isOpen => .error (if isOpen then s.reopen else s)
  | .optionThrows => .error s.reopen

def socket (s : ILPClient) (now : TimePoint) (c : Connect) : Except ILPClient ILPClient :=
  let s := if now - s.last > seconds 240 then s.close else s
  if s.isOpen then .ok s else s.connect c

/-- `send` of the buffer: the number of bytes that are accepted, unless there is an error. -/
def send (s : ILPClient) : Send → Option ℕ × ILPClient
  | .error => (none, s)
  | .accepted n =>
      (some (min n s.buffer.length), { s with connection := s.connection ++ s.buffer.take n })

/-- The end of `write`. -/
def consume (s : ILPClient) (isize : ℕ) (now : TimePoint) : ILPClient :=
  { s with buffer := s.buffer.drop isize, last := now }

def write (s : ILPClient) (data : Bytes) (io : Io) : Except ILPClient ILPClient :=
  let s := { s with buffer := s.buffer ++ data }
  match s.socket io.now io.connect with
  | .error s => .error s
  | .ok s =>
      match s.send io.send with
      | (some isize, s) => .ok (s.consume isize io.done)
      | (none, s) =>
          match s.close.socket io.retryNow io.retryConnect with
          | .error s => .error s
          | .ok s =>
              let (isize, s) := s.send io.retrySend
              .ok (s.consume (isize.getD 0) io.done)

/-- The client after a call of `write`, with or without an exception. -/
def written (s : ILPClient) (data : Bytes) (io : Io) : ILPClient :=
  match s.write data io with
  | .ok s | .error s => s

/-- The connections, the newest first. -/
def connections (s : ILPClient) : List Bytes := s.connection :: s.older

/-! ### One call -/

/-- `socket` finds the connection closed, or idle for too long. -/
def Reopens (s : ILPClient) (now : TimePoint) : Prop :=
  now - s.last > seconds 240 ∨ s.isOpen = false

/-- The call sends the first bytes that go over a connection. -/
def Begins (s : ILPClient) (data : Bytes) (io : Io) : Prop :=
  s.buffer ++ data ≠ [] ∧
    ((s.Reopens io.now ∧ io.connect = .connected ∨ ¬ s.Reopens io.now ∧ s.connection = []) ∧
        (∃ n, io.send = .accepted (n + 1)) ∨
      (s.Reopens io.now ∧ io.connect = .connected ∨ ¬ s.Reopens io.now) ∧ io.send = .error ∧
        io.retryConnect = .connected ∧ ∃ n, io.retrySend = .accepted (n + 1))

variable {s t : ILPClient} {data : Bytes} {io : Io}

/-- The client is another one only in its connections, of which there may be new ones. -/
structure Reconnected (s t : ILPClient) : Prop where
  buffer : t.buffer = s.buffer
  connections : ∃ k, t.connections = List.replicate k [] ++ s.connections

lemma Reconnected.refl (s : ILPClient) : Reconnected s s := ⟨rfl, 0, rfl⟩

lemma Reconnected.trans {u : ILPClient} (h : Reconnected s t) (h' : Reconnected t u) :
    Reconnected s u := by
  obtain ⟨hbuffer, k, hk⟩ := h
  obtain ⟨hbuffer', k', hk'⟩ := h'
  refine ⟨hbuffer'.trans hbuffer, k' + k, ?_⟩
  rw [hk', hk, List.replicate_add, List.append_assoc]

lemma Reconnected.reopen (h : Reconnected s t) : Reconnected s t.reopen := by
  obtain ⟨hbuffer, k, hk⟩ := h
  exact ⟨hbuffer, k + 1, congrArg ([] :: ·) hk⟩

variable (s) in
lemma connect_cases (c : Connect) :
    c = .connected ∧ s.connect c = .ok s.reopen ∨
      c ≠ .connected ∧ ∃ t, s.connect c = .error t ∧ Reconnected s t := by
  cases c with
  | connected => exact .inl ⟨rfl, rfl⟩
  | refused isOpen =>
      refine .inr ⟨nofun, _, rfl, ?_⟩
      cases isOpen with
      | true => exact (Reconnected.refl s).reopen
      | false => exact .refl s
  | optionThrows => exact .inr ⟨nofun, _, rfl, (Reconnected.refl s).reopen⟩

variable (s) in
/-- What `socket` does: it keeps the connection, makes a new one, or throws. -/
lemma socket_cases (now : TimePoint) (c : Connect) :
    (¬ s.Reopens now ∧ s.socket now c = .ok s) ∨
    (s.Reopens now ∧ c = .connected ∧ s.socket now c = .ok s.reopen) ∨
    (s.Reopens now ∧ c ≠ .connected ∧ ∃ t, s.socket now c = .error t ∧ Reconnected s t) := by
  unfold Reopens
  by_cases hidle : now - s.last > seconds 240
  · have hsocket : s.socket now c = s.close.connect c := by
      rw [socket, if_pos hidle]
      rfl
    rw [hsocket]
    rcases s.close.connect_cases c with ⟨hc, hok⟩ | ⟨hc, t, herror, ht⟩
    · exact .inr (.inl ⟨.inl hidle, hc, hok⟩)
    · exact .inr (.inr ⟨.inl hidle, hc, t, herror, ht.buffer, ht.connections⟩)
  cases hopen : s.isOpen with
  | true =>
      have hsocket : s.socket now c = .ok s := by
        rw [socket, if_neg hidle]
        exact if_pos hopen
      exact .inl ⟨by simp [hidle], hsocket⟩
  | false =>
      have hsocket : s.socket now c = s.connect c := by
        rw [socket, if_neg hidle]
        exact if_neg (by simp [hopen])
      rw [hsocket]
      rcases s.connect_cases c with ⟨hc, hok⟩ | ⟨hc, t, herror, ht⟩
      · exact .inr (.inl ⟨.inr rfl, hc, hok⟩)
      · exact .inr (.inr ⟨.inr rfl, hc, t, herror, ht⟩)

/-- `send`, and what `write` does behind it. -/
def finish (s : ILPClient) (sending : Send) (done : TimePoint) : ILPClient :=
  (s.send sending).2.consume ((s.send sending).1.getD 0) done

/-- The bytes that are sent leave the buffer. -/
lemma finish_spec (s : ILPClient) (sending : Send) (done : TimePoint) :
    ∃ sent, (s.finish sending done).connections = (s.connection ++ sent) :: s.older ∧
      sent ++ (s.finish sending done).buffer = s.buffer ∧
      (sent ≠ [] ↔ s.buffer ≠ [] ∧ ∃ n, sending = .accepted (n + 1)) := by
  cases sending with
  | error => exact ⟨[], by simp [finish, send, consume, connections], rfl, by simp⟩
  | accepted n =>
      have hdrop : s.buffer.drop (min n s.buffer.length) = s.buffer.drop n := by
        rcases Nat.le_total n s.buffer.length with hle | hge
        · rw [min_eq_left hle]
        · rw [min_eq_right hge, List.drop_length, List.drop_eq_nil_of_le hge]
      refine ⟨s.buffer.take n, rfl, ?_, ?_⟩
      · show s.buffer.take n ++ s.buffer.drop (min n s.buffer.length) = s.buffer
        rw [hdrop, List.take_append_drop]
      · cases n with
        | zero => simp
        | succ n => simp

/-- `write` is a `send`, and a second one over a new connection if the first one fails. -/
lemma written_eq (s : ILPClient) (data : Bytes) (io : Io) :
    s.written data io =
      match ({ s with buffer := s.buffer ++ data } : ILPClient).socket io.now io.connect with
      | .error t => t
      | .ok t =>
          if io.send = .error then
            match t.close.socket io.retryNow io.retryConnect with
            | .error t => t
            | .ok t => t.finish io.retrySend io.done
          else t.finish io.send io.done := by
  unfold written write
  dsimp only
  cases ({ s with buffer := s.buffer ++ data } : ILPClient).socket io.now io.connect with
  | error t => rfl
  | ok t =>
      dsimp only
      cases io.send with
      | error =>
          rw [if_pos rfl]
          show (match (match t.close.socket io.retryNow io.retryConnect with
            | .error t => _ | .ok t => _ : Except ILPClient ILPClient) with
              | .ok t | .error t => t) = _
          cases t.close.socket io.retryNow io.retryConnect with
          | error t => rfl
          | ok t => rfl
      | accepted n =>
          rw [if_neg nofun]
          rfl

/-- What `write` does with the bytes: those that are sent go over the connection it has come to, and
the rest stays in the buffer. -/
structure Written (s : ILPClient) (data : Bytes) (io : Io) (t : ILPClient) (channel sent : Bytes)
    (older : List Bytes) : Prop where
  fresh : ∃ k, channel :: older = List.replicate k [] ++ s.connections
  connections : t.connections = (channel ++ sent) :: older
  buffer : sent ++ t.buffer = s.buffer ++ data
  begins : s.Begins data io ↔ channel = [] ∧ sent ≠ []

/-- The data of a call goes behind what is left in the buffer. -/
def append (s : ILPClient) (data : Bytes) : ILPClient := { s with buffer := s.buffer ++ data }

lemma Written.of_throw (ht : Reconnected (s.append data) t) (hbegins : ¬ s.Begins data io) :
    Written s data io t t.connection [] t.older where
  fresh := ht.connections
  connections := by
    rw [List.append_nil]
    rfl
  buffer := ht.buffer
  begins := iff_of_false hbegins fun h => h.2 rfl

lemma Written.of_finish {sending : Send} (ht : Reconnected (s.append data) t)
    (hbegins : s.Begins data io ↔
      t.connection = [] ∧ s.buffer ++ data ≠ [] ∧ ∃ n, sending = .accepted (n + 1)) :
    ∃ sent, Written s data io (t.finish sending io.done) t.connection sent t.older := by
  obtain ⟨sent, hconnections, hbuffer, hsent⟩ := t.finish_spec sending io.done
  rw [ht.buffer] at hbuffer hsent
  refine ⟨sent, ht.connections, hconnections, hbuffer, ?_⟩
  rw [hbegins, hsent]
  rfl

/-- **One call of `write`.** -/
lemma write_spec (s : ILPClient) (data : Bytes) (io : Io) :
    ∃ channel sent older, Written s data io (s.written data io) channel sent older := by
  have hrefl := Reconnected.refl (s.append data)
  rw [written_eq, ← append]
  -- the first `socket`, with what it says about the connection behind it
  have hfirst : (∃ t, (s.append data).socket io.now io.connect = .error t ∧
        Reconnected (s.append data) t ∧ s.Reopens io.now ∧ io.connect ≠ .connected) ∨
      ∃ t, (s.append data).socket io.now io.connect = .ok t ∧ Reconnected (s.append data) t ∧
        (s.Reopens io.now ∧ io.connect = .connected ∨ ¬ s.Reopens io.now) ∧
        (s.Reopens io.now ∧ io.connect = .connected ∨ ¬ s.Reopens io.now ∧ s.connection = [] ↔
          t.connection = []) := by
    rcases (s.append data).socket_cases io.now io.connect with
      ⟨hkeep, hok⟩ | ⟨hreopens, hc, hok⟩ | ⟨hreopens, hc, t, herror, ht⟩
    · have hno : ¬ s.Reopens io.now := hkeep
      exact .inr ⟨_, hok, hrefl, .inr hno, by simp [hno, append]⟩
    · have hyes : s.Reopens io.now := hreopens
      exact .inr ⟨_, hok, hrefl.reopen, .inl ⟨hyes, hc⟩, by simp [hyes, hc, reopen]⟩
    · exact .inl ⟨t, herror, ht, hreopens, hc⟩
  obtain ⟨t, herror, ht, hreopens, hc⟩ | ⟨t, hok, ht, hgot, hfresh⟩ := hfirst
  · rw [herror]
    exact ⟨_, _, _, .of_throw ht fun h => by simp_all [Begins]⟩
  rw [hok]
  dsimp only
  by_cases hsend : io.send = .error
  · rw [if_pos hsend]
    have hclosed : Reconnected (s.append data) t.close := ⟨ht.buffer, ht.connections⟩
    rcases t.close.socket_cases io.retryNow io.retryConnect with
      ⟨hkeep, -⟩ | ⟨-, hc, hok⟩ | ⟨-, hc, t', herror, ht'⟩
    · exact absurd (.inr rfl) hkeep
    · rw [hok]
      have hbegins : s.Begins data io ↔ t.close.reopen.connection = [] ∧
          s.buffer ++ data ≠ [] ∧ ∃ n, io.retrySend = .accepted (n + 1) := by
        simp [Begins, hsend, hc, hgot, reopen]
      obtain ⟨sent, hsent⟩ := Written.of_finish hclosed.reopen hbegins
      exact ⟨_, sent, _, hsent⟩
    · rw [herror]
      exact ⟨_, _, _, .of_throw (hclosed.trans ht') fun h => by simp_all [Begins]⟩
  · rw [if_neg hsend]
    have hbegins : s.Begins data io ↔ t.connection = [] ∧
        s.buffer ++ data ≠ [] ∧ ∃ n, io.send = .accepted (n + 1) := by
      rw [Begins, hfresh]
      simp only [hsend, false_and, and_false, or_false]
      tauto
    obtain ⟨sent, hsent⟩ := Written.of_finish ht hbegins
    exact ⟨_, sent, _, hsent⟩

/-! ### Runs -/

/-- Everything that was sent. -/
def sent (s : ILPClient) : Bytes := carried s.connections

/-- The bytes of a call are sent or stay in the buffer, behind those of earlier calls. -/
lemma sent_append_buffer_written (s : ILPClient) (data : Bytes) (io : Io) :
    (s.written data io).sent ++ (s.written data io).buffer = s.sent ++ s.buffer ++ data := by
  obtain ⟨channel, sent, older, h⟩ := s.write_spec data io
  obtain ⟨k, hfresh⟩ := h.fresh
  have hcarried : carried older ++ channel = s.sent := by
    rw [← carried_cons, hfresh, carried_replicate_nil_append, ILPClient.sent]
  rw [ILPClient.sent, h.connections, carried_cons, ← List.append_assoc, hcarried,
    List.append_assoc, h.buffer, List.append_assoc]

/-- The client after a sequence of calls. -/
def run (s : ILPClient) (calls : List (Bytes × Io)) : ILPClient :=
  calls.foldl (fun s call => s.written call.1 call.2) s

/-- **No byte is lost, repeated or moved.**  After any sequence of calls, what was sent over all the
connections and what is in the buffer add up to the data of the calls. -/
theorem sent_append_buffer_run (now : TimePoint) (calls : List (Bytes × Io)) :
    ((start now).run calls).sent ++ ((start now).run calls).buffer = calls.flatMap Prod.fst := by
  have hrun : ∀ s : ILPClient, (s.run calls).sent ++ (s.run calls).buffer =
      s.sent ++ s.buffer ++ calls.flatMap Prod.fst := by
    induction calls with
    | nil => simp [run]
    | cons call calls ih =>
        intro s
        rw [List.flatMap_cons, ← List.append_assoc, ← sent_append_buffer_written]
        exact ih _
  exact hrun (start now)

end ILPClient

/-! ### Records -/

/-- A record as a text: its only LF that is not escaped is the last byte. -/
structure RecordText where
  body : Bytes
  passes : LineProtocol.marks.Passes (unescapedAt (chr '\n')) {} body
  ended : (LineProtocol.marks.after {} body).escaped = false

def RecordText.text (r : RecordText) : Bytes := r.body ++ bytesOf "\n"

/-- What `Builder.endRecord` writes is a record. -/
def RecordText.ofScript (s : Builder.Script) (hs : (LineProtocol.record s).WellFormed) :
    RecordText :=
  have hclosed := LineProtocol.closed_line_lf hs
  ⟨s.line, hclosed.passes, by rw [hclosed.after]⟩

/-- A client with the records that were given to it. -/
structure Feed where
  client : ILPClient
  records : List RecordText := []

namespace Feed

/-- The bytes of some records. -/
def bytes (records : List RecordText) : Bytes := (records.map RecordText.text).flatten

def step : PartialStep Feed (List RecordText × ILPClient.Io)
  | s, (records, io) => some ⟨s.client.written (bytes records) io, s.records ++ records⟩

/-- Every connection that carries something starts with a record. -/
def Framed (s : Feed) : Prop := Aligned (s.records.map RecordText.text) s.client.connections

/-- The call sends the first bytes of a connection while a part of a record has already gone over
another one. -/
def Torn (s : Feed) (call : List RecordText × ILPClient.Io) : Prop :=
  s.client.Begins (bytes call.1) call.2 ∧
    ¬ ∃ last, last <:+ s.records ∧ bytes last = s.client.buffer

variable {s t : Feed} {call : List RecordText × ILPClient.Io}

/-- What was sent and what is in the buffer add up to the records. -/
def Inv (s : Feed) : Prop := s.client.sent ++ s.client.buffer = bytes s.records

lemma bytes_append (records more : List RecordText) :
    bytes (records ++ more) = bytes records ++ bytes more := by
  rw [bytes, List.map_append, List.flatten_append, bytes, bytes]

lemma Inv.step (h : Inv s) (hstep : Feed.step s call = some t) : Inv t := by
  obtain rfl := Option.some.inj hstep
  rw [Inv, ILPClient.sent_append_buffer_written, h, ← bytes_append]

/-- The buffer begins with a record exactly if whole records were sent. -/
lemma Inv.whole_iff (h : Inv s) : Whole (s.records.map RecordText.text) s.client.sent ↔
    ∃ last, last <:+ s.records ∧ bytes last = s.client.buffer := by
  rw [whole_iff_rest h]
  constructor
  · rintro ⟨last, ⟨first, hsuffix⟩, hlast⟩
    obtain ⟨firsts, lasts, hrecords, rfl, rfl⟩ := List.map_eq_append_iff.mp hsuffix.symm
    exact ⟨lasts, ⟨firsts, hrecords.symm⟩, hlast⟩
  · rintro ⟨last, hsuffix, hlast⟩
    exact ⟨_, hsuffix.map _, hlast⟩

/-- **One call** keeps the connections framed precisely if it does not tear a record. -/
lemma framed_step_iff (h : Inv s) (hs : s.Framed) (hstep : Feed.step s call = some t) :
    t.Framed ↔ ¬ s.Torn call := by
  obtain ⟨channel, sent, older, hw⟩ := s.client.write_spec (bytes call.1) call.2
  obtain ⟨k, hfresh⟩ := hw.fresh
  have hcarried : carried (channel :: older) = s.client.sent := by
    rw [hfresh, carried_replicate_nil_append, ILPClient.sent]
  have haligned : Aligned (s.records.map RecordText.text) (channel :: older) := by
    rw [hfresh, aligned_replicate_nil_append]
    exact hs
  have hsum : carried (channel :: older) ++ s.client.buffer =
      (s.records.map RecordText.text).flatten := by
    rw [hcarried]
    exact h
  obtain rfl := Option.some.inj hstep
  rw [Framed, Torn, List.map_append, hw.connections, aligned_append_iff, aligned_more_iff hsum,
    hw.begins, ← h.whole_iff]
  simp only [haligned, true_and, not_and, not_not, and_imp]
  refine forall_congr' fun hchannel => forall_congr' fun _ => ?_
  rw [hchannel, carried_cons, List.append_nil] at hcarried hsum
  rw [whole_more_iff hsum, hcarried]

/-- **Connections begin with a record** throughout a run precisely if no call of it sends the first
bytes of a connection while a part of a record has gone over another one. -/
theorem framed_iff_not_torn (now : TimePoint) (calls : List (List RecordText × ILPClient.Io)) :
    PartialStep.Visits step Framed ⟨.start now, []⟩ calls ↔
      PartialStep.Along step (fun s call => ¬ s.Torn call) ⟨.start now, []⟩ calls := by
  refine PartialStep.visits_iff_along (I := Inv) (fun s call t h _ hstep _ => h.step hstep)
    (fun s call t h hs hstep => framed_step_iff h hs hstep) rfl ?_
  exact aligned_nil_cons.mpr trivial

/-- Then a record that has begun on a connection is not continued on another one. -/
lemma Framed.whole {connection : Bytes} {newer older : List Bytes} (hs : s.Framed)
    (hconnections : s.client.connections = newer ++ connection :: older)
    (hnewer : carried newer ≠ []) :
    ∃ records, records <:+: s.records ∧ bytes records = connection := by
  rw [Framed, hconnections] at hs
  obtain ⟨ps, ⟨first, last, hinfix⟩, hps⟩ := hs.whole hnewer
  obtain ⟨l, lasts, hrecords, hl, -⟩ := List.map_eq_append_iff.mp hinfix.symm
  obtain ⟨firsts, records, rfl, -, rfl⟩ := List.map_eq_append_iff.mp hl
  exact ⟨records, ⟨firsts, lasts, hrecords.symm⟩, hps⟩

/-- Two bytes of a record are sent, and the rest after five minutes. -/
theorem not_framed_of_idle :
    let record : RecordText :=
      ⟨bytesOf "a b=1 1", ⟨rfl, rfl, rfl, rfl, rfl, rfl, rfl, trivial⟩, by decide⟩
    let calls : List (List RecordText × ILPClient.Io) :=
      [([record], { now := 0, send := .accepted 2 }),
        ([record], { now := seconds 300, send := .accepted 100 })]
    ¬ PartialStep.Visits step Framed ⟨.start 0, []⟩ calls := by
  intro record calls h
  have hframed : Framed _ := (h.2 _ rfl).2 _ rfl
  exact absurd (hframed.1 (by decide)) (by decide)

end Feed

end Client

end S3Proxy
