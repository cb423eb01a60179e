import S3Proxy.Log.Delivery

/-!
# The thread that writes the log

`NanoLogger::pop` runs in a thread of its own.  It waits until the logger is constructed, takes
lines off the queue and writes them, and sleeps when `try_pop` comes back empty; once the destructor
has set `SHUTDOWN` it goes on until `try_pop` comes back empty for the first time, and returns.

The steps of the threads that log are those of `Log.QueueBuffer`, any number of which may come
between two steps of this one.  A line that is in the thread's hand is off the queue and not written
yet (`Pc.inHand`).

## Main result

`Inv.step`: every step keeps the invariant `Inv`, unless it uses a freed buffer.  What has been
taken off the queue is what is written and what is in hand, in this order; the queue is in order;
and the program point, the state of the logger and the lock of the queue fit together.

`moves_of_step` is the inversion of a step, and `reader_of_producer` says that a step of a thread
that logs leaves the reader's side of the queue alone.  `Inv.goto` is for the steps of the thread by
itself, and `Inv.setQueue` for those in which it uses the queue.

## Hypotheses

A buffer has a slot, and no step has used a freed buffer, as in `Log.Delivery`.

## Where it is used

`Log.Shutdown` asks what is written when the thread has returned, and whether it does.  A line that
a thread pushes during or after the last `try_pop` is lost, which is why the results there have a
hypothesis about the destructor.  What `write` does with a line is in `Log.FileWriter`.
-/

namespace S3Proxy

namespace Log

namespace NanoLogger

/-- `State`. -/
inductive LoggerState where
  | init
  | ready
  | shutdown
  deriving DecidableEq

/-- Where the thread is; `draining` tells the second loop of `pop` from the first. -/
inductive Pc (α : Type*) where
  /-- In the loop around `State::INIT`. -/
  | waiting
  /-- At `m_state.load() == State::READY`. -/
  | test
  /-- At the beginning of `try_pop`. -/
  | trying (draining : Bool)
  /-- At the test for a buffer to read. -/
  | looked (draining : Bool)
  /-- With a line, and a buffer to free. -/
  | releasing (draining : Bool) (line : α)
  | writing (draining : Bool) (line : α)
  | sleeping
  | returned

structure State (ι α : Type*) where
  queue : QueueBuffer.State ι α := {}
  state : LoggerState := .init
  pc : Pc α := .waiting
  /-- What the file writer has got. -/
  written : List α := []

inductive Label (ι α : Type*) where
  /-- A step of a thread that logs. -/
  | producer (e : QueueBuffer.Label ι α)
  /-- The end of the constructor. -/
  | ready
  /-- The destructor. -/
  | shutdown
  | start
  | test
  | look
  | take
  | miss
  | release
  | write
  | wake

variable {ι α : Type*}

/-- The steps of the queue that are not the reader's. -/
def isProducer : QueueBuffer.Label ι α → Bool
  | .fetch | .pop | .release => false
  | _ => true

/-- A step of the queue. -/
def State.setQueue (s : State ι α) (queue : QueueBuffer.State ι α) : State ι α :=
  { s with queue := queue }

def State.goto (s : State ι α) (pc : Pc α) : State ι α := { s with pc := pc }

variable [DecidableEq ι]

def step (size : ℕ) : PartialStep (State ι α) (Label ι α)
  | s, .producer e =>
      if isProducer e then (QueueBuffer.step size s.queue e).map s.setQueue else none
  | s, .ready => if s.state = .init then some { s with state := .ready } else none
  | s, .shutdown => if s.state = .ready then some { s with state := .shutdown } else none
  | s, .start =>
      match s.pc with
      | .waiting => if s.state = .init then none else some (s.goto .test)
      | _ => none
  | s, .test =>
      match s.pc with
      | .test => some (s.goto (.trying (s.state ≠ .ready)))
      | _ => none
  | s, .look =>
      match s.pc with
      | .trying draining =>
          match s.queue.reading with
          | some _ => some (s.goto (.looked draining))
          | none => (QueueBuffer.step size s.queue .fetch).map fun queue =>
              (s.setQueue queue).goto (.looked draining)
      | _ => none
  | s, .take =>
      match s.pc, s.queue.reading with
      | .looked draining, some b =>
          ((s.queue.buffers b).items s.queue.readIndex).bind fun line =>
            (QueueBuffer.step size s.queue .pop).map fun queue =>
              (s.setQueue queue).goto
                (if queue.releasing then .releasing draining line else .writing draining line)
      | _, _ => none
  | s, .miss =>
      match s.pc with
      | .looked draining =>
          if ∀ b ∈ s.queue.reading, (s.queue.buffers b).writeState s.queue.readIndex = false then
            some (s.goto (if draining then .returned else .sleeping))
          else none
      | _ => none
  | s, .release =>
      match s.pc with
      | .releasing draining line =>
          (QueueBuffer.step size s.queue .release).map fun queue =>
            (s.setQueue queue).goto (.writing draining line)
      | _ => none
  | s, .write =>
      match s.pc with
      | .writing draining line =>
          some ({ s with written := s.written ++ [line] }.goto
            (if draining then .trying true else .test))
      | _ => none
  | s, .wake =>
      match s.pc with
      | .sleeping => some (s.goto .test)
      | _ => none

/-- The steps, each with what it requires and what it does. -/
inductive Moves (size : ℕ) (s : State ι α) : Label ι α → State ι α → Prop
  | producer (e : QueueBuffer.Label ι α) (queue : QueueBuffer.State ι α)
      (hproducer : isProducer e = true) (hstep : QueueBuffer.step size s.queue e = some queue) :
      Moves size s (.producer e) (s.setQueue queue)
  | ready (hstate : s.state = .init) : Moves size s .ready { s with state := .ready }
  | shutdown (hstate : s.state = .ready) : Moves size s .shutdown { s with state := .shutdown }
  | start (hpc : s.pc = .waiting) (hstate : s.state ≠ .init) : Moves size s .start (s.goto .test)
  | test (hpc : s.pc = .test) : Moves size s .test (s.goto (.trying (s.state ≠ .ready)))
  | look (draining : Bool) (b : ℕ) (hpc : s.pc = .trying draining)
      (hreading : s.queue.reading = some b) : Moves size s .look (s.goto (.looked draining))
  | fetch (draining : Bool) (queue : QueueBuffer.State ι α) (hpc : s.pc = .trying draining)
      (hreading : s.queue.reading = none)
      (hstep : QueueBuffer.step size s.queue .fetch = some queue) :
      Moves size s .look ((s.setQueue queue).goto (.looked draining))
  | take (draining : Bool) (b : ℕ) (line : α) (queue : QueueBuffer.State ι α)
      (hpc : s.pc = .looked draining) (hreading : s.queue.reading = some b)
      (hitem : (s.queue.buffers b).items s.queue.readIndex = some line)
      (hstep : QueueBuffer.step size s.queue .pop = some queue) :
      Moves size s .take ((s.setQueue queue).goto
        (if queue.releasing then .releasing draining line else .writing draining line))
  | miss (draining : Bool) (hpc : s.pc = .looked draining)
      (hempty : ∀ b ∈ s.queue.reading,
        (s.queue.buffers b).writeState s.queue.readIndex = false) :
      Moves size s .miss (s.goto (if draining then .returned else .sleeping))
  | release (draining : Bool) (line : α) (queue : QueueBuffer.State ι α)
      (hpc : s.pc = .releasing draining line)
      (hstep : QueueBuffer.step size s.queue .release = some queue) :
      Moves size s .release ((s.setQueue queue).goto (.writing draining line))
  | write (draining : Bool) (line : α) (hpc : s.pc = .writing draining line) :
      Moves size s .write ({ s with written := s.written ++ [line] }.goto
        (if draining then .trying true else .test))
  | wake (hpc : s.pc = .sleeping) : Moves size s .wake (s.goto .test)

variable {size : ℕ} {s t : State ι α} {e : Label ι α}

lemma moves_of_step (h : step size s e = some t) : Moves size s e t := by
  cases e with
  | producer e =>
      obtain ⟨hproducer, h⟩ := Option.ite_none_right_eq_some.mp h
      obtain ⟨queue, hstep, rfl⟩ := Option.map_eq_some_iff.mp h
      exact .producer e queue hproducer hstep
  | ready =>
      obtain ⟨hstate, ⟨⟩⟩ := Option.ite_none_right_eq_some.mp h
      exact .ready hstate
  | shutdown =>
      obtain ⟨hstate, ⟨⟩⟩ := Option.ite_none_right_eq_some.mp h
      exact .shutdown hstate
  | start =>
      rw [step] at h
      split at h
      · rename_i hpc
        obtain ⟨hstate, ⟨⟩⟩ := Option.ite_none_left_eq_some.mp h
        exact .start hpc hstate
      · cases h
  | test =>
      rw [step] at h
      split at h
      · rename_i hpc
        cases h
        exact .test hpc
      · cases h
  | look =>
      rw [step] at h
      split at h
      · rename_i draining hpc
        split at h
        · rename_i b hreading
          cases h
          exact .look draining b hpc hreading
        · rename_i hreading
          obtain ⟨queue, hstep, rfl⟩ := Option.map_eq_some_iff.mp h
          exact .fetch draining queue hpc hreading hstep
      · cases h
  | take =>
      rw [step] at h
      split at h
      · rename_i draining b hpc hreading
        obtain ⟨line, hitem, h⟩ := Option.bind_eq_some_iff.mp h
        obtain ⟨queue, hstep, rfl⟩ := Option.map_eq_some_iff.mp h
        exact .take draining b line queue hpc hreading hitem hstep
      · cases h
  | miss =>
      rw [step] at h
      split at h
      · rename_i draining hpc
        obtain ⟨hempty, ⟨⟩⟩ := Option.ite_none_right_eq_some.mp h
        exact .miss draining hpc hempty
      · cases h
  | release =>
      rw [step] at h
      split at h
      · rename_i draining line hpc
        obtain ⟨queue, hstep, rfl⟩ := Option.map_eq_some_iff.mp h
        exact .release draining line queue hpc hstep
      · cases h
  | write =>
      rw [step] at h
      split at h
      · rename_i draining line hpc
        cases h
        exact .write draining line hpc
      · cases h
  | wake =>
      rw [step] at h
      split at h
      · rename_i hpc
        cases h
        exact .wake hpc
      · cases h

/-! ### What is written -/

/-- The line that the thread has taken and not written. -/
def Pc.inHand : Pc α → List α
  | .releasing _ line | .writing _ line => [line]
  | _ => []

/-- In the second loop, or behind it. -/
def Pc.draining : Pc α → Bool
  | .trying draining | .looked draining => draining
  | .releasing draining _ | .writing draining _ => draining
  | .returned => true
  | .waiting | .test | .sleeping => false

/-- How the thread and the queue belong together. -/
structure Inv (size : ℕ) (s : State ι α) : Prop where
  queue : QueueBuffer.Inv size s.queue
  popped : s.queue.popped = s.written ++ s.pc.inHand
  releasing : s.queue.releasing = true ↔ ∃ draining line, s.pc = .releasing draining line
  draining : s.pc.draining = true → s.state = .shutdown
  waiting : s.state = .init → s.pc = .waiting

lemma Moves.defined (hmoves : Moves size s e t) (ht : t.queue.undefined = false) :
    s.queue.undefined = false := by
  cases hmoves with
  | producer e queue hproducer hstep => exact (QueueBuffer.moves_of_step hstep).defined ht
  | fetch draining queue hpc hreading hstep => exact (QueueBuffer.moves_of_step hstep).defined ht
  | take draining b line queue hpc hreading hitem hstep =>
      exact (QueueBuffer.moves_of_step hstep).defined ht
  | release draining line queue hpc hstep => exact (QueueBuffer.moves_of_step hstep).defined ht
  | _ => exact ht

/-- A step of a thread that logs leaves the reader's side alone. -/
lemma reader_of_producer {q q' : QueueBuffer.State ι α} {e : QueueBuffer.Label ι α}
    (hproducer : isProducer e = true) (hstep : QueueBuffer.step size q e = some q')
    (hdefined : q'.undefined = false) :
    q'.popped = q.popped ∧ q'.releasing = q.releasing ∧ q'.reading = q.reading := by
  cases QueueBuffer.moves_of_step hstep with
  | stray => cases hdefined
  | fetch => cases hproducer
  | pop => cases hproducer
  | release => cases hproducer
  | _ => exact ⟨rfl, rfl, rfl⟩

omit [DecidableEq ι] in
/-- The thread goes on without a line, and without freeing a buffer. -/
lemma Inv.goto {pc : Pc α} (h : Inv size s) (hhand : pc.inHand = s.pc.inHand)
    (hfrom : ∀ draining line, s.pc ≠ .releasing draining line)
    (hto : ∀ draining line, pc ≠ .releasing draining line)
    (hdraining : pc.draining = true → s.state = .shutdown)
    (hwaiting : s.state = .init → pc = .waiting) : Inv size (s.goto pc) where
  queue := h.queue
  popped := h.popped.trans (congrArg _ hhand.symm)
  releasing := by
    refine iff_of_false ?_ ?_
    · show ¬ s.queue.releasing = true
      rw [h.releasing]
      rintro ⟨draining, line, hpc⟩
      exact hfrom draining line hpc
    · rintro ⟨draining, line, hpc⟩
      exact hto draining line hpc
  draining := hdraining
  waiting := hwaiting

omit [DecidableEq ι] in
lemma Inv.ne_init (h : Inv size s) (hpc : s.pc ≠ .waiting) : s.state ≠ .init :=
  fun hstate => hpc (h.waiting hstate)

omit [DecidableEq ι] in
/-- The thread comes to a point that the source reaches only from others than the first. -/
lemma Inv.setQueue {queue : QueueBuffer.State ι α} {pc : Pc α} (h : Inv size s)
    (hqueue : QueueBuffer.Inv size queue) (hpopped : queue.popped = s.written ++ pc.inHand)
    (hreleasing : queue.releasing = true ↔ ∃ draining line, pc = .releasing draining line)
    (hdraining : pc.draining = s.pc.draining) (hpc : s.pc ≠ .waiting) :
    Inv size ((s.setQueue queue).goto pc) where
  queue := hqueue
  popped := hpopped
  releasing := hreleasing
  draining hpc' := h.draining (hdraining ▸ hpc')
  waiting hstate := absurd hstate (h.ne_init hpc)

/-- **Every step** keeps what the thread relies on, unless it uses a freed buffer. -/
lemma Inv.step (h : Inv size s) (hsize : 0 < size) (hmoves : Moves size s e t)
    (hdefined : t.queue.undefined = false) : Inv size t := by
  have hnotReleasing (pc : Pc α) (hpc : s.pc = pc)
      (hne : ∀ draining line, pc ≠ .releasing draining line) : s.queue.releasing = false := by
    by_contra hreleasing
    obtain ⟨draining, line, hpc'⟩ := h.releasing.mp (by simpa using hreleasing)
    exact hne draining line (hpc.symm.trans hpc')
  have hpopped := h.popped
  cases hmoves with
  | producer e queue hproducer hstep =>
      obtain ⟨hpopped', hreleasing, -⟩ := reader_of_producer hproducer hstep hdefined
      refine ⟨h.queue.step hsize hstep hdefined, hpopped'.trans hpopped, ?_, h.draining, h.waiting⟩
      show queue.releasing = true ↔ ∃ draining line, s.pc = .releasing draining line
      rw [hreleasing]
      exact h.releasing
  | ready hstate =>
      refine ⟨h.queue, hpopped, h.releasing, fun hdraining => ?_, nofun⟩
      cases hstate.symm.trans (h.draining hdraining)
  | shutdown hstate => exact ⟨h.queue, hpopped, h.releasing, fun _ => rfl, nofun⟩
  | start hpc hstate =>
      apply h.goto
      all_goals simp [hpc, hstate, Pc.inHand, Pc.draining]
  | test hpc =>
      have hinit := h.ne_init (by simp [hpc])
      apply h.goto
      case hdraining =>
        intro hdraining
        simp only [Pc.draining, decide_eq_true_eq] at hdraining
        cases hstate : s.state with
        | init => exact absurd hstate hinit
        | ready => exact absurd hstate hdraining
        | shutdown => rfl
      all_goals simp [hpc, hinit, Pc.inHand]
  | look draining b hpc hreading =>
      have hinit := h.ne_init (by simp [hpc])
      have hdraining := h.draining
      rw [hpc] at hdraining
      apply h.goto
      case hdraining => exact hdraining
      all_goals simp [hpc, hinit, Pc.inHand]
  | fetch draining queue hpc hreading hstep =>
      have hqueue := h.queue.step hsize hstep hdefined
      have hreleasing := hnotReleasing _ hpc nofun
      cases QueueBuffer.moves_of_step hstep
      apply h.setQueue hqueue
      case hpopped => simpa [hpc, Pc.inHand] using hpopped
      all_goals simp [hpc, hreleasing, Pc.draining]
  | take draining b line queue hpc hreading hitem hstep =>
      have hqueue := h.queue.step hsize hstep hdefined
      have hreleasing := hnotReleasing _ hpc nofun
      have hpopped' : s.queue.popped = s.written := by simpa [hpc, Pc.inHand] using hpopped
      cases QueueBuffer.moves_of_step hstep with
      | pop b' line' hreading' hlive hstate hitem' =>
          obtain rfl : b = b' := Option.some.inj (hreading.symm.trans hreading')
          obtain rfl : line = line' := Option.some.inj (hitem.symm.trans hitem')
          unfold QueueBuffer.State.take at hqueue ⊢
          split at hqueue
          · rename_i hlast
            rw [if_pos hlast]
            apply h.setQueue hqueue
            all_goals simp [hpc, hpopped', Pc.inHand, Pc.draining]
          · rename_i hlast
            rw [if_neg hlast]
            apply h.setQueue hqueue
            all_goals simp [hpc, hpopped', hreleasing, Pc.inHand, Pc.draining]
  | miss draining hpc hempty =>
      have hinit := h.ne_init (by simp [hpc])
      have hdraining := h.draining
      rw [hpc] at hdraining
      cases draining with
      | true =>
          apply h.goto
          case hdraining => exact fun _ => hdraining rfl
          all_goals simp [hpc, hinit, Pc.inHand]
      | false =>
          apply h.goto
          all_goals simp [hpc, hinit, Pc.inHand, Pc.draining]
  | release draining line queue hpc hstep =>
      have hqueue := h.queue.step hsize hstep hdefined
      rw [hpc] at hpopped
      cases QueueBuffer.moves_of_step hstep
      apply h.setQueue hqueue
      case hpopped => exact hpopped
      all_goals simp [hpc, Pc.draining]
  | write draining line hpc =>
      have hinit := h.ne_init (by simp [hpc])
      have hdraining := h.draining
      have hreleasing := hnotReleasing _ hpc nofun
      rw [hpc] at hpopped hdraining
      refine ⟨h.queue, ?_, ?_, ?_, fun hstate => absurd hstate hinit⟩
      · show s.queue.popped = (s.written ++ [line]) ++ _
        rw [hpopped, Pc.inHand]
        cases draining <;> simp [State.goto, Pc.inHand]
      · show s.queue.releasing = true ↔ _
        cases draining <;> simp [State.goto, hreleasing]
      · intro hdraining'
        apply hdraining
        cases draining with
        | true => rfl
        | false => cases hdraining'
  | wake hpc =>
      have hinit := h.ne_init (by simp [hpc])
      apply h.goto
      all_goals simp [hpc, hinit, Pc.inHand, Pc.draining]

end NanoLogger

end Log

end S3Proxy
