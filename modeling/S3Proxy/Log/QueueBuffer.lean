import S3Proxy.Library.Run
import S3Proxy.Library.Threads

/-!
# The queue of log lines

`QueueBuffer` takes lines from any number of threads and hands them to one reader.  A thread claims
a slot of the current `Buffer` by raising the write index, puts its line there, marks the slot and
counts it; the one whose count makes the buffer full sets up the next buffer and only then resets
the write index.  Threads that find the index past the end spin until then.  The reader takes the
slots in their order, and frees a buffer once it has taken the last one.

Every step of the model is one access to what the threads share, as if each of them came at once
into effect for all threads.  The sections under `m_flag` are one step of the reader and two of a
thread: they exclude one another, but the write index is also read outside of them.

`counted`, `claims`, `popped` and `undefined` are not the program's: they record what has happened.

## Freed buffers

A thread may use a buffer after it was freed, and the model says so: the step is there, it may leave
any state behind (`stray`), and `undefined` is set from then on (`Moves.defined`).  What is proved
of the queue is therefore proved of runs in which this has not happened, with `undefined` in the
hypothesis.  When it happens is settled in `Log.Release`.

## The modules

`moves_of_step` says once what each step can do, as the relation `Moves`, and the invariants are
kept by `Moves`.

* `Log.Handover`: what the threads that log agree on.
* `Log.Delivery`: the reader gets every line, in the order of the claims.
* `Log.Release`: which runs leave a thread with a freed buffer, and that nobody waits for ever.
* `Log.NanoLogger` and `Log.Shutdown`: the thread that reads, and its end.

The size of a buffer is a parameter; `Buffer.size` is that of the source.
-/

namespace S3Proxy

namespace Log

/-- `Buffer`.  Its last `m_write_state` is the `count`. -/
structure Buffer (α : Type*) where
  items : ℕ → Option α := fun _ => none
  writeState : ℕ → Bool := fun _ => false
  count : ℕ := 0
  /-- The slots that `count` was raised for. -/
  counted : Finset ℕ := ∅

/-- `Buffer::size`. -/
def Buffer.size : ℕ := 32768

namespace QueueBuffer

/-- Where a thread is in `push`. -/
inductive Writer (α : Type*) where
  | outside
  /-- Before `m_write_index.fetch_add`. -/
  | entered (line : α)
  | claimed (line : α) (k : ℕ)
  /-- With the pointer that was in `m_current_write_buffer`. -/
  | loaded (line : α) (b k : ℕ)
  | constructed (b k : ℕ)
  | stored (b k : ℕ)
  /-- In `while ( m_write_index.load() >= Buffer::size )`. -/
  | spinning (line : α)
  /-- At the beginning of `setup_next_write_buffer`. -/
  | switching
  /-- `m_current_write_buffer` is set. -/
  | linking
  /-- The new buffer is in the queue, and the lock is held. -/
  | linked
  deriving DecidableEq

/-- The buffer that a thread uses in its next step. -/
def Writer.uses {α : Type*} : Writer α → Option ℕ
  | .loaded _ b _ | .constructed b _ | .stored b _ => some b
  | _ => none

/-- What the threads that log work on. -/
structure Writing (ι α : Type*) where
  buffers : ℕ → Buffer α := fun _ => {}
  /-- `m_current_write_buffer`; buffers are named in the order in which they are made. -/
  current : ℕ := 0
  writeIndex : ℕ := 0
  pc : ι → Writer α := fun _ => .outside
  claims : List (ι × α) := []

structure State (ι α : Type*) extends Writing ι α where
  /-- `m_buffers`. -/
  queue : List ℕ := [0]
  /-- `m_flag`. -/
  flag : Bool := false
  freed : List ℕ := []
  /-- `m_current_read_buffer`. -/
  reading : Option ℕ := none
  readIndex : ℕ := 0
  /-- The reader has taken the last line of a buffer and is about to free it. -/
  releasing : Bool := false
  popped : List α := []
  /-- A buffer was used after it was freed. -/
  undefined : Bool := false

inductive Label (ι α : Type*) where
  | push (i : ι) (line : α)
  | claim (i : ι)
  | spin (i : ι)
  | load (i : ι)
  | construct (i : ι)
  | store (i : ι)
  | count (i : ι)
  | allocate (i : ι)
  | link (i : ι)
  | reset (i : ι)
  /-- A thread uses a buffer that was freed. -/
  | stray (i : ι) (after : State ι α)
  /-- `get_next_read_buffer`. -/
  | fetch
  | pop
  /-- `m_buffers.pop()`. -/
  | release

variable {ι α : Type*}

/-- A buffer changes. -/
def Writing.setBuffer (s : Writing ι α) (b : ℕ) (buffer : Buffer α) : Writing ι α :=
  { s with buffers := Function.update s.buffers b buffer }

@[simp] lemma Writing.buffers_setBuffer (s : Writing ι α) (b : ℕ) (buffer : Buffer α) :
    (s.setBuffer b buffer).buffers b = buffer :=
  Function.update_self ..

lemma Writing.buffers_setBuffer_of_ne (s : Writing ι α) {b b' : ℕ} (h : b' ≠ b)
    (buffer : Buffer α) : (s.setBuffer b buffer).buffers b' = s.buffers b' :=
  Function.update_of_ne h ..

variable [DecidableEq ι]

/-- A thread goes on. -/
def Writing.move (s : Writing ι α) (i : ι) (q : Writer α) : Writing ι α :=
  { s with pc := Function.update s.pc i q }

@[simp] lemma Writing.pc_move (s : Writing ι α) (i : ι) (q : Writer α) : (s.move i q).pc i = q :=
  Function.update_self ..

lemma Writing.pc_move_of_ne (s : Writing ι α) {i j : ι} (h : j ≠ i) (q : Writer α) :
    (s.move i q).pc j = s.pc j :=
  Function.update_of_ne h ..

/-- `m_write_index.fetch_add`, and the test of what it gave. -/
def Writing.claim (size : ℕ) (s : Writing ι α) (i : ι) (line : α) : Writing ι α :=
  if s.writeIndex < size then
    { s with writeIndex := s.writeIndex + 1, claims := s.claims ++ [(i, line)] }.move i
      (.claimed line s.writeIndex)
  else { s with writeIndex := s.writeIndex + 1 }.move i (.spinning line)

/-- `new ( &m_buffer[write_index] ) Item`. -/
def Writing.construct (s : Writing ι α) (i : ι) (line : α) (b k : ℕ) : Writing ι α :=
  let buffer := s.buffers b
  (s.setBuffer b { buffer with items := Function.update buffer.items k (some line) }).move i
    (.constructed b k)

/-- `m_write_state[write_index].store( 1 )`. -/
def Writing.store (s : Writing ι α) (i : ι) (b k : ℕ) : Writing ι α :=
  let buffer := s.buffers b
  (s.setBuffer b { buffer with writeState := Function.update buffer.writeState k true }).move i
    (.stored b k)

/-- `m_write_state[size].fetch_add( 1 )`, and the test whether the buffer is full. -/
def Writing.count (size : ℕ) (s : Writing ι α) (i : ι) (b k : ℕ) : Writing ι α :=
  let buffer := s.buffers b
  (s.setBuffer b { buffer with
    count := buffer.count + 1
    counted := insert k buffer.counted }).move i
    (if buffer.count + 1 = size then .switching else .outside)

/-- `new Buffer()`, and its pointer in `m_current_write_buffer`. -/
def Writing.allocate (s : Writing ι α) (i : ι) : Writing ι α :=
  { s with current := s.current + 1 }.move i .linking

/-- `m_write_index.store( 0 )`. -/
def Writing.reset (s : Writing ι α) (i : ι) : Writing ι α :=
  { s with writeIndex := 0 }.move i .outside

/-- What the threads do to what they share with the reader. -/
def State.write (s : State ι α) (w : Writing ι α) : State ι α := { s with toWriting := w }

/-- `try_pop` of the reader's buffer, once the slot is marked. -/
def State.take (size : ℕ) (s : State ι α) (line : α) : State ι α :=
  if s.readIndex + 1 = size then
    { s with readIndex := 0, reading := none, releasing := true, popped := s.popped ++ [line] }
  else { s with readIndex := s.readIndex + 1, popped := s.popped ++ [line] }

def step (size : ℕ) : PartialStep (State ι α) (Label ι α)
  | s, .push i line =>
      match s.pc i with
      | .outside => some (s.write (s.move i (.entered line)))
      | _ => none
  | s, .claim i =>
      match s.pc i with
      | .entered line => some (s.write (s.claim size i line))
      | _ => none
  | s, .spin i =>
      match s.pc i with
      | .spinning line =>
          if s.writeIndex < size then some (s.write (s.move i (.entered line))) else none
      | _ => none
  | s, .load i =>
      match s.pc i with
      | .claimed line k => some (s.write (s.move i (.loaded line s.current k)))
      | _ => none
  | s, .construct i =>
      match s.pc i with
      | .loaded line b k => if b ∈ s.freed then none else some (s.write (s.construct i line b k))
      | _ => none
  | s, .store i =>
      match s.pc i with
      | .constructed b k => if b ∈ s.freed then none else some (s.write (s.store i b k))
      | _ => none
  | s, .count i =>
      match s.pc i with
      | .stored b k => if b ∈ s.freed then none else some (s.write (s.count size i b k))
      | _ => none
  | s, .allocate i =>
      match s.pc i with
      | .switching => some (s.write (s.allocate i))
      | _ => none
  | s, .link i =>
      match s.pc i with
      | .linking =>
          if s.flag then none
          else some { s.write (s.move i .linked) with queue := s.queue ++ [s.current], flag := true }
      | _ => none
  | s, .reset i =>
      match s.pc i with
      | .linked => some { s.write (s.reset i) with flag := false }
      | _ => none
  | s, .stray i after =>
      match (s.pc i).uses with
      | some b => if b ∈ s.freed then some { after with undefined := true } else none
      | none => none
  | s, .fetch =>
      match s.reading, s.releasing, s.flag with
      | none, false, false => some { s with reading := s.queue.head? }
      | _, _, _ => none
  | s, .pop =>
      match s.reading with
      | some b =>
          if b ∈ s.freed then none
          else if (s.buffers b).writeState s.readIndex then
            ((s.buffers b).items s.readIndex).map (s.take size)
          else none
      | none => none
  | s, .release =>
      match s.releasing, s.flag, s.queue with
      | true, false, b :: queue =>
          some { s with queue := queue, freed := s.freed ++ [b], releasing := false }
      | _, _, _ => none

/-- The steps, each with what it requires and what it does. -/
inductive Moves (size : ℕ) (s : State ι α) : Label ι α → State ι α → Prop
  | push (i : ι) (line : α) (hpc : s.pc i = .outside) :
      Moves size s (.push i line) (s.write (s.move i (.entered line)))
  | claim (i : ι) (line : α) (hpc : s.pc i = .entered line) :
      Moves size s (.claim i) (s.write (s.claim size i line))
  | spin (i : ι) (line : α) (hpc : s.pc i = .spinning line) (hlt : s.writeIndex < size) :
      Moves size s (.spin i) (s.write (s.move i (.entered line)))
  | load (i : ι) (line : α) (k : ℕ) (hpc : s.pc i = .claimed line k) :
      Moves size s (.load i) (s.write (s.move i (.loaded line s.current k)))
  | construct (i : ι) (line : α) (b k : ℕ) (hpc : s.pc i = .loaded line b k)
      (hlive : b ∉ s.freed) : Moves size s (.construct i) (s.write (s.construct i line b k))
  | store (i : ι) (b k : ℕ) (hpc : s.pc i = .constructed b k) (hlive : b ∉ s.freed) :
      Moves size s (.store i) (s.write (s.store i b k))
  | count (i : ι) (b k : ℕ) (hpc : s.pc i = .stored b k) (hlive : b ∉ s.freed) :
      Moves size s (.count i) (s.write (s.count size i b k))
  | allocate (i : ι) (hpc : s.pc i = .switching) :
      Moves size s (.allocate i) (s.write (s.allocate i))
  | link (i : ι) (hpc : s.pc i = .linking) (hflag : s.flag = false) :
      Moves size s (.link i)
        { s.write (s.move i .linked) with queue := s.queue ++ [s.current], flag := true }
  | reset (i : ι) (hpc : s.pc i = .linked) :
      Moves size s (.reset i) { s.write (s.reset i) with flag := false }
  | stray (i : ι) (b : ℕ) (after : State ι α) (huses : (s.pc i).uses = some b)
      (hfreed : b ∈ s.freed) : Moves size s (.stray i after) { after with undefined := true }
  | fetch (hreading : s.reading = none) (hreleasing : s.releasing = false)
      (hflag : s.flag = false) : Moves size s .fetch { s with reading := s.queue.head? }
  | pop (b : ℕ) (line : α) (hreading : s.reading = some b) (hlive : b ∉ s.freed)
      (hstate : (s.buffers b).writeState s.readIndex = true)
      (hitem : (s.buffers b).items s.readIndex = some line) :
      Moves size s .pop (s.take size line)
  | release (b : ℕ) (queue : List ℕ) (hreleasing : s.releasing = true) (hflag : s.flag = false)
      (hqueue : s.queue = b :: queue) :
      Moves size s .release
        { s with queue := queue, freed := s.freed ++ [b], releasing := false }

variable {size : ℕ} {s t : State ι α} {e : Label ι α}

lemma moves_of_step (h : step size s e = some t) : Moves size s e t := by
  cases e with
  | push i line =>
      rw [step] at h
      split at h
      · rename_i hpc
        cases h
        exact .push i line hpc
      · cases h
  | claim i =>
      rw [step] at h
      split at h
      · rename_i line hpc
        cases h
        exact .claim i line hpc
      · cases h
  | spin i =>
      rw [step] at h
      split at h
      · rename_i line hpc
        obtain ⟨hlt, ⟨⟩⟩ := Option.ite_none_right_eq_some.mp h
        exact .spin i line hpc hlt
      · cases h
  | load i =>
      rw [step] at h
      split at h
      · rename_i line k hpc
        cases h
        exact .load i line k hpc
      · cases h
  | construct i =>
      rw [step] at h
      split at h
      · rename_i line b k hpc
        obtain ⟨hlive, ⟨⟩⟩ := Option.ite_none_left_eq_some.mp h
        exact .construct i line b k hpc hlive
      · cases h
  | store i =>
      rw [step] at h
      split at h
      · rename_i b k hpc
        obtain ⟨hlive, ⟨⟩⟩ := Option.ite_none_left_eq_some.mp h
        exact .store i b k hpc hlive
      · cases h
  | count i =>
      rw [step] at h
      split at h
      · rename_i b k hpc
        obtain ⟨hlive, ⟨⟩⟩ := Option.ite_none_left_eq_some.mp h
        exact .count i b k hpc hlive
      · cases h
  | allocate i =>
      rw [step] at h
      split at h
      · rename_i hpc
        cases h
        exact .allocate i hpc
      · cases h
  | link i =>
      rw [step] at h
      split at h
      · rename_i hpc
        obtain ⟨hflag, ⟨⟩⟩ := Option.ite_none_left_eq_some.mp h
        exact .link i hpc (by simpa using hflag)
      · cases h
  | reset i =>
      rw [step] at h
      split at h
      · rename_i hpc
        cases h
        exact .reset i hpc
      · cases h
  | stray i after =>
      rw [step] at h
      split at h
      · rename_i b huses
        obtain ⟨hfreed, ⟨⟩⟩ := Option.ite_none_right_eq_some.mp h
        exact .stray i b after huses hfreed
      · cases h
  | fetch =>
      rw [step] at h
      split at h
      · rename_i hreading hreleasing hflag
        cases h
        exact .fetch hreading hreleasing hflag
      · cases h
  | pop =>
      rw [step] at h
      split at h
      · rename_i b hreading
        obtain ⟨hlive, h⟩ := Option.ite_none_left_eq_some.mp h
        obtain ⟨hstate, h⟩ := Option.ite_none_right_eq_some.mp h
        obtain ⟨line, hitem, rfl⟩ := Option.map_eq_some_iff.mp h
        exact .pop b line hreading hlive hstate hitem
      · cases h
  | release =>
      rw [step] at h
      split at h
      · rename_i b queue hreleasing hflag hqueue
        cases h
        exact .release b queue hreleasing hflag hqueue
      · cases h

/-- What is undefined stays that way. -/
lemma Moves.defined (hmoves : Moves size s e t) (ht : t.undefined = false) :
    s.undefined = false := by
  cases hmoves with
  | stray => cases ht
  | pop =>
      unfold State.take at ht
      split at ht <;> exact ht
  | _ => exact ht

end QueueBuffer

end Log

end S3Proxy
