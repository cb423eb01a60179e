import S3Proxy.Log.NanoLogger

/-!
# The end of the log

What the destructor of the logger leaves behind, when it runs while no thread is in `push` and none
enters it again (`Quiet`).

## Main results

`complete_of_quiet`: when the thread that writes the log has returned, everything that was pushed is
written, in the order of the claims, and of each thread in the order in which it was pushed.

`exists_returned`: the thread does return.  From every state after the destructor its own steps lead
to its end, in at most ten steps for each line that is left, and nine more.

The first rests on `Inv.written_eq_of_miss`.  The last `try_pop` has found nothing, and by
`drained_of_fails` of `Log.Delivery` that means that everything was taken, or that some thread is in
`push`; but none is.  The second is a measure, `distance`: the thread can always go on, and comes
nearer to its end (`Inv.exists_nearer`), by a line or by the rank of its program point
(`Pc.rank_le`).

## Hypotheses

The run is quiet, which is a condition on each of its steps: the destructor runs while no thread is
in `push`, and none enters it later.  No step has used a freed buffer; a run that has leaves nothing
to be said (`Log.QueueBuffer`), and `Log.Release` settles which runs do.

## What it rests on

`QuietInv` adds to the invariant `Inv` of `Log.NanoLogger` what quietness gives: after the
destructor no thread is in `push`, so that the lock is free (`flag_eq_false`), and nothing is left
when the thread has returned.  `lastLine` is the run of one thread and one line at which the results
are shown.
-/

namespace S3Proxy

namespace Log

namespace NanoLogger

variable {ι α : Type*}

/-- The destructor runs when no thread is in `push`, and none pushes after it. -/
def Quiet (s : State ι α) : Label ι α → Prop
  | .shutdown => ∀ i, s.queue.pc i = .outside
  | .producer (.push _ _) => s.state ≠ .shutdown
  | _ => True

instance [Fintype ι] [DecidableEq α] (s : State ι α) (e : Label ι α) : Decidable (Quiet s e) :=
  match e with
  | .shutdown => inferInstanceAs (Decidable (∀ i, s.queue.pc i = .outside))
  | .producer (.push _ _) => inferInstanceAs (Decidable (s.state ≠ .shutdown))
  | .producer (.claim _) | .producer (.spin _) | .producer (.load _) | .producer (.construct _)
  | .producer (.store _) | .producer (.count _) | .producer (.allocate _) | .producer (.link _)
  | .producer (.reset _) | .producer (.stray ..) | .producer .fetch | .producer .pop
  | .producer .release | .ready | .start | .test | .look | .take | .miss | .release | .write
  | .wake => .isTrue trivial

/-- What holds in the runs that end quietly. -/
structure QuietInv (s : State ι α) : Prop where
  outside : s.state = .shutdown → ∀ i, s.queue.pc i = .outside
  looked : s.pc = .looked true → s.queue.reading = none → s.queue.queue = []
  returned : s.pc = .returned → s.written = s.queue.claims.map Prod.snd

variable {size : ℕ} {s t : State ι α}

lemma inv_init (hsize : 0 < size) : Inv size ({} : State ι α) where
  queue := QueueBuffer.inv_init hsize
  popped := rfl
  releasing := by simp
  draining h := by cases h
  waiting _ := rfl

/-- As long as the destructor has not run there is nothing to show but that. -/
lemma quietInv_of_ne_shutdown (h : Inv size s) (hstate : s.state ≠ .shutdown) : QuietInv s where
  outside hshutdown := absurd hshutdown hstate
  looked hpc _ := absurd (h.draining (by rw [hpc]; rfl)) hstate
  returned hpc := absurd (h.draining (by rw [hpc]; rfl)) hstate

/-- A step of the thread that leads neither to the test for a buffer nor out of `pop`. -/
lemma QuietInv.of_pc (h : QuietInv s) (hstate : t.state = s.state)
    (hthreads : t.queue.pc = s.queue.pc) (hlooked : t.pc ≠ .looked true)
    (hreturned : t.pc ≠ .returned) : QuietInv t where
  outside hshutdown i := by
    rw [hthreads]
    exact h.outside (hstate ▸ hshutdown) i
  looked hpc := absurd hpc hlooked
  returned hpc := absurd hpc hreturned

/-- The last `try_pop` has found everything read. -/
lemma Inv.written_eq_of_miss (h : Inv size s) (hquiet : QuietInv s) (hpc : s.pc = .looked true)
    (hempty : ∀ b ∈ s.queue.reading,
      (s.queue.buffers b).writeState s.queue.readIndex = false) :
    s.written = s.queue.claims.map Prod.snd := by
  have houtside := hquiet.outside (h.draining (by rw [hpc]; rfl))
  have hfails : QueueBuffer.Fails s.queue := by
    cases hreading : s.queue.reading with
    | none =>
        refine .inl ⟨hreading, ?_, hquiet.looked hpc hreading⟩
        by_contra hreleasing
        obtain ⟨draining, line, hpc'⟩ := h.releasing.mp (by simpa using hreleasing)
        cases hpc.symm.trans hpc'
    | some b => exact .inr ⟨b, hreading, hempty b hreading⟩
  have hpopped : s.queue.popped = s.written := by simpa [hpc, Pc.inHand] using h.popped
  rw [← hpopped]
  refine (h.queue.drained hfails).resolve_right ?_
  rintro ⟨i, line, -, hunmarked⟩
  rw [houtside i] at hunmarked
  cases hunmarked

/-! ### How far the end is -/

/-- How far the end of `pop` is away, if the loop is left when it can be left. -/
def Pc.rank : Pc α → ℕ
  | .trying false => 9
  | .looked false => 8
  | .waiting | .sleeping => 6
  | .test => 5
  | .trying true => 4
  | .looked true => 3
  | .releasing _ _ => 2
  | .writing _ _ => 1
  | .returned => 0

lemma Pc.rank_le (pc : Pc α) : pc.rank ≤ 9 := by
  cases pc with
  | trying draining => cases draining <;> simp [rank]
  | looked draining => cases draining <;> simp [rank]
  | _ => simp [rank]

/-- How far the thread is away from its end, each line being one round. -/
def distance (s : State ι α) : ℕ := 10 * (s.queue.claims.length - s.written.length) + s.pc.rank

lemma distance_lt (hclaims : t.queue.claims = s.queue.claims) (hwritten : t.written = s.written)
    (hrank : t.pc.rank < s.pc.rank) : distance t < distance s := by
  rw [distance, distance, hclaims, hwritten]
  omega

/-- The lock is free when no thread is in `push`. -/
lemma flag_eq_false {q : QueueBuffer.State ι α} (h : QueueBuffer.ReadInv size q)
    (houtside : ∀ i, q.pc i = .outside) : q.flag = false := by
  by_contra hflag
  obtain ⟨i, hi⟩ := h.flag.mp (by simpa using hflag)
  cases (houtside i).symm.trans hi

/-- What the thread has written does not exceed what slots were claimed for. -/
lemma Inv.written_lt (h : Inv size s) {draining : Bool} {line : α}
    (hpc : s.pc = .writing draining line) : s.written.length < s.queue.claims.length := by
  have hpopped := congrArg List.length h.popped
  have hle := h.queue.read.length_le
  rw [hpc, Pc.inHand, List.length_append, List.length_singleton] at hpopped
  omega

/-! ### Steps -/

variable [DecidableEq ι] {e : Label ι α}

/-- After the destructor no thread moves. -/
lemma QuietInv.not_producer {e : QueueBuffer.Label ι α} {queue : QueueBuffer.State ι α}
    (h : QuietInv s) (hquiet : Quiet s (.producer e)) (hproducer : isProducer e = true)
    (hstep : QueueBuffer.step size s.queue e = some queue) : s.state ≠ .shutdown := by
  intro hstate
  have houtside := h.outside hstate
  cases QueueBuffer.moves_of_step hstep with
  | push i line hpc => exact hquiet hstate
  | claim i line hpc => cases (houtside i).symm.trans hpc
  | spin i line hpc hlt => cases (houtside i).symm.trans hpc
  | load i line k hpc => cases (houtside i).symm.trans hpc
  | construct i line b k hpc hlive => cases (houtside i).symm.trans hpc
  | store i b k hpc hlive => cases (houtside i).symm.trans hpc
  | count i b k hpc hlive => cases (houtside i).symm.trans hpc
  | allocate i hpc => cases (houtside i).symm.trans hpc
  | link i hpc hflag => cases (houtside i).symm.trans hpc
  | reset i hpc => cases (houtside i).symm.trans hpc
  | stray i b after huses hfreed =>
      rw [houtside i] at huses
      cases huses
  | fetch => cases hproducer
  | pop => cases hproducer
  | release => cases hproducer

/-- The reader's steps leave the threads where they are. -/
lemma pc_of_reader {q q' : QueueBuffer.State ι α} {e : QueueBuffer.Label ι α}
    (hreader : isProducer e = false) (hstep : QueueBuffer.step size q e = some q') :
    q'.pc = q.pc := by
  cases QueueBuffer.moves_of_step hstep with
  | fetch => rfl
  | pop =>
      unfold QueueBuffer.State.take
      split <;> rfl
  | release => rfl
  | _ => cases hreader

lemma QuietInv.step (hquiet : QuietInv s) (h : Inv size s) (h' : Inv size t) (he : Quiet s e)
    (hmoves : Moves size s e t) : QuietInv t := by
  cases hmoves with
  | producer e queue hproducer hstep =>
      exact quietInv_of_ne_shutdown h' (hquiet.not_producer he hproducer hstep)
  | ready hstate => exact quietInv_of_ne_shutdown h' nofun
  | shutdown hstate =>
      have hready : s.state ≠ .shutdown := by simp [hstate]
      refine ⟨fun _ => he, fun hpc => ?_, fun hpc => ?_⟩
      · exact absurd (h.draining (by rw [show s.pc = _ from hpc]; rfl)) hready
      · exact absurd (h.draining (by rw [show s.pc = _ from hpc]; rfl)) hready
  | start hpc hstate => exact hquiet.of_pc rfl rfl nofun nofun
  | test hpc => exact hquiet.of_pc rfl rfl nofun nofun
  | look draining b hpc hreading =>
      refine ⟨hquiet.outside, fun _ hnone => ?_, nofun⟩
      cases hreading.symm.trans hnone
  | fetch draining queue hpc hreading hstep =>
      refine ⟨?_, ?_, nofun⟩
      · exact fun hstate i => (congrFun (pc_of_reader rfl hstep) i).trans (hquiet.outside hstate i)
      · cases QueueBuffer.moves_of_step hstep with
        | fetch => exact fun _ hnone => List.head?_eq_none_iff.mp hnone
  | take draining b line queue hpc hreading hitem hstep =>
      refine hquiet.of_pc rfl (pc_of_reader rfl hstep) ?_ ?_
      all_goals
        show (if queue.releasing then Pc.releasing draining line else .writing draining line) ≠ _
        split <;> exact nofun
  | miss draining hpc hempty =>
      cases draining with
      | true => exact ⟨hquiet.outside, nofun, fun _ => h.written_eq_of_miss hquiet hpc hempty⟩
      | false => exact hquiet.of_pc rfl rfl nofun nofun
  | release draining line queue hpc hstep =>
      exact hquiet.of_pc rfl (pc_of_reader rfl hstep) nofun nofun
  | write draining line hpc =>
      refine hquiet.of_pc rfl rfl ?_ ?_
      all_goals
        show (if draining then Pc.trying true else .test) ≠ _
        split <;> exact nofun
  | wake hpc => exact hquiet.of_pc rfl rfl nofun nofun

/-! ### Runs -/

variable {es : List (Label ι α)}

lemma invs_of_exec (hsize : 0 < size) (hquiet : PartialStep.Along (step size) Quiet {} es)
    (hrun : PartialStep.exec (step size) {} es = some s)
    (hdefined : s.queue.undefined = false) : Inv size s ∧ QuietInv s := by
  refine PartialStep.exec_induction
    (I := fun s => s.queue.undefined = false → Inv size s ∧ QuietInv s) ?_ ?_ hquiet hrun hdefined
  · intro s e t h he hstep ht
    have hmoves := moves_of_step hstep
    obtain ⟨hinv, hq⟩ := h (hmoves.defined ht)
    have hinv' := hinv.step hsize hmoves ht
    exact ⟨hinv', hq.step hinv hinv' he hmoves⟩
  · intro _
    have h := inv_init (ι := ι) (α := α) hsize
    exact ⟨h, quietInv_of_ne_shutdown h nofun⟩

/-- What a step pushes in the name of a thread. -/
def Label.pushed (i : ι) : Label ι α → List α
  | .producer e => e.pushed i
  | _ => []

lemma brought_of_moves (i : ι) (hmoves : Moves size s e t)
    (hdefined : t.queue.undefined = false) :
    QueueBuffer.brought t.queue i = QueueBuffer.brought s.queue i ++ e.pushed i := by
  cases hmoves with
  | producer e queue hproducer hstep => exact QueueBuffer.brought_of_step i hstep hdefined
  | fetch draining queue hpc hreading hstep => exact QueueBuffer.brought_of_step i hstep hdefined
  | take draining b line queue hpc hreading hitem hstep =>
      exact QueueBuffer.brought_of_step i hstep hdefined
  | release draining line queue hpc hstep => exact QueueBuffer.brought_of_step i hstep hdefined
  | _ => exact (List.append_nil _).symm

/-- **A quiet end loses nothing**: when the thread that writes the log has returned, and no freed
buffer was used, it has written every line that was pushed, in the order in which slots were claimed
for them, and so those of each thread in the order in which the thread pushed them. -/
theorem complete_of_quiet (hsize : 0 < size)
    (hquiet : PartialStep.Along (step size) Quiet {} es)
    (hrun : PartialStep.exec (step size) {} es = some s) (hdefined : s.queue.undefined = false)
    (hpc : s.pc = .returned) :
    s.written = s.queue.claims.map Prod.snd ∧
      ∀ i, QueueBuffer.claimed s.queue i = es.flatMap (Label.pushed i) := by
  obtain ⟨h, hquiet⟩ := invs_of_exec hsize hquiet hrun hdefined
  refine ⟨hquiet.returned hpc, fun i => ?_⟩
  have hrecord := (PartialStep.exec_record_of (f := fun s => QueueBuffer.brought s.queue i)
    (D := fun s => s.queue.undefined = false)
    (fun _ _ _ hstep => (moves_of_step hstep).defined)
    (fun _ _ _ hstep => brought_of_moves i (moves_of_step hstep)) hrun hdefined).2
  have hstate : s.state = .shutdown := h.draining (by rw [hpc]; rfl)
  have hwaiting : (s.queue.pc i).waiting = [] := by
    rw [hquiet.outside hstate i]
    rfl
  rw [QueueBuffer.brought, hwaiting, List.append_nil] at hrecord
  exact hrecord

/-- One line, pushed before the destructor and written after it. -/
def lastLine : List (Label Unit ℕ) :=
  [.ready, .producer (.push () 7), .producer (.claim ()), .producer (.load ()),
    .producer (.construct ()), .producer (.store ()), .producer (.count ()), .shutdown, .start, .test,
    .look, .take, .write, .look, .miss]

lemma quiet_lastLine : PartialStep.Along (step Buffer.size) Quiet {} lastLine := by decide

theorem complete_of_lastLine : ∃ s, PartialStep.exec (step Buffer.size) {} lastLine = some s ∧
    s.written = s.queue.claims.map Prod.snd ∧
      ∀ i, QueueBuffer.claimed s.queue i = lastLine.flatMap (Label.pushed i) :=
  ⟨_, rfl, complete_of_quiet (by decide) quiet_lastLine rfl rfl rfl⟩

/-! ### The thread comes to its end -/

/-- The steps of the thread itself. -/
def Label.own : Label ι α → Bool
  | .producer _ | .ready | .shutdown => false
  | _ => true

/-- A slot that is marked can be read. -/
lemma exists_pop {q : QueueBuffer.State ι α} {b : ℕ} (h : QueueBuffer.Inv size q)
    (hreading : q.reading = some b) (hstate : (q.buffers b).writeState q.readIndex = true) :
    ∃ line q', (q.buffers b).items q.readIndex = some line ∧
      QueueBuffer.step size q .pop = some q' ∧ q'.claims = q.claims ∧
        q'.undefined = q.undefined := by
  obtain ⟨i, line, -, hitem⟩ := h.read.claims_of_writeState h.write hreading hstate
  have hlive : b ∉ q.freed := by
    rw [h.read.head_eq (h.read.reading b hreading).2.1, h.read.freed_eq]
    simp
  refine ⟨line, q.take size line, hitem, ?_, ?_, ?_⟩
  · simp [QueueBuffer.step, hreading, hlive, hstate, hitem]
  · unfold QueueBuffer.State.take
    split <;> rfl
  · unfold QueueBuffer.State.take
    split <;> rfl

/-- A buffer that has been read to its end can be freed. -/
lemma exists_release {q : QueueBuffer.State ι α} (h : QueueBuffer.Inv size q) (hsize : 0 < size)
    (hreleasing : q.releasing = true) (hflag : q.flag = false) :
    ∃ q', QueueBuffer.step size q .release = some q' ∧ q'.claims = q.claims ∧
      q'.undefined = q.undefined := by
  cases hqueue : q.queue with
  | nil =>
      have hlength := (h.read.releasing hreleasing).2.2
      have hall := h.length_le_of_queue_eq_nil hqueue
      have hle := h.read.length_le
      have hmul : (q.freed.length + 1) * size = q.freed.length * size + size := Nat.succ_mul ..
      omega
  | cons b queue =>
      exact ⟨{ q with queue := queue, freed := q.freed ++ [b], releasing := false },
        by simp [QueueBuffer.step, hreleasing, hflag, hqueue], rfl, rfl⟩

/-- After a quiet destructor the thread can always go on, and comes nearer to its end. -/
lemma Inv.exists_nearer (h : Inv size s) (hsize : 0 < size) (hquiet : QuietInv s)
    (hstate : s.state = .shutdown) (hpc : s.pc ≠ .returned) :
    ∃ e t, Label.own e = true ∧ NanoLogger.step size s e = some t ∧ t.state = .shutdown ∧
      t.queue.undefined = s.queue.undefined ∧ distance t < distance s := by
  have hflag := flag_eq_false h.queue.read (hquiet.outside hstate)
  cases hpc' : s.pc with
  | waiting =>
      refine ⟨.start, s.goto .test, rfl, ?_, hstate, rfl, distance_lt rfl rfl ?_⟩
      · simp [NanoLogger.step, hpc', hstate]
      · simp [State.goto, hpc', Pc.rank]
  | test =>
      refine ⟨.test, s.goto (.trying true), rfl, ?_, hstate, rfl, distance_lt rfl rfl ?_⟩
      · simp [NanoLogger.step, hpc', hstate]
      · simp [State.goto, hpc', Pc.rank]
  | trying draining =>
      have hrank : (Pc.looked draining : Pc α).rank < s.pc.rank := by
        rw [hpc']
        cases draining <;> simp [Pc.rank]
      cases hreading : s.queue.reading with
      | some b =>
          refine ⟨.look, s.goto (.looked draining), rfl, ?_, hstate, rfl,
            distance_lt rfl rfl hrank⟩
          simp [NanoLogger.step, hpc', hreading]
      | none =>
          have hreleasing : s.queue.releasing = false := by
            by_contra hreleasing
            obtain ⟨draining', line, hpc''⟩ := h.releasing.mp (by simpa using hreleasing)
            cases hpc'.symm.trans hpc''
          refine ⟨.look, (s.setQueue { s.queue with reading := s.queue.queue.head? }).goto
            (.looked draining), rfl, ?_, hstate, rfl, distance_lt rfl rfl hrank⟩
          simp [NanoLogger.step, QueueBuffer.step, hpc', hreading, hreleasing, hflag]
  | looked draining =>
      by_cases hempty : ∀ b ∈ s.queue.reading,
          (s.queue.buffers b).writeState s.queue.readIndex = false
      · refine ⟨.miss, s.goto (if draining then .returned else .sleeping), rfl, ?_, hstate, rfl,
          distance_lt rfl rfl ?_⟩
        · rw [NanoLogger.step, hpc']
          exact if_pos hempty
        · rw [State.goto, hpc']
          cases draining <;> simp [Pc.rank]
      · simp only [not_forall, Bool.not_eq_false] at hempty
        obtain ⟨b, hreading, hmarked⟩ := hempty
        obtain ⟨line, queue, hitem, hstep, hclaims, hsame⟩ := exists_pop h.queue hreading hmarked
        refine ⟨.take, (s.setQueue queue).goto (if queue.releasing then .releasing draining line
          else .writing draining line), rfl, ?_, hstate, hsame, distance_lt hclaims rfl ?_⟩
        · rw [NanoLogger.step, hpc', show s.queue.reading = some b from hreading]
          show ((s.queue.buffers b).items s.queue.readIndex).bind _ = _
          rw [hitem, Option.bind_some, hstep, Option.map_some]
        · rw [State.goto, hpc']
          cases queue.releasing <;> cases draining <;> simp [Pc.rank]
  | releasing draining line =>
      have hreleasing := h.releasing.mpr ⟨draining, line, hpc'⟩
      obtain ⟨queue, hstep, hclaims, hsame⟩ := exists_release h.queue hsize hreleasing hflag
      refine ⟨.release, (s.setQueue queue).goto (.writing draining line), rfl, ?_, hstate, hsame,
        distance_lt hclaims rfl ?_⟩
      · rw [NanoLogger.step, hpc']
        show (QueueBuffer.step size s.queue .release).map _ = _
        rw [hstep, Option.map_some]
      · simp [State.goto, hpc', Pc.rank]
  | writing draining line =>
      have hlt := h.written_lt hpc'
      refine ⟨.write, { s with written := s.written ++ [line] }.goto
        (if draining then .trying true else .test), rfl, ?_, hstate, rfl, ?_⟩
      · simp [NanoLogger.step, hpc']
      · have hrank : (if draining then Pc.trying true else .test : Pc α).rank ≤ 5 := by
          cases draining <;> simp [Pc.rank]
        rw [distance, distance, hpc']
        show 10 * (s.queue.claims.length - (s.written ++ [line]).length) + _ < _
        rw [List.length_append, List.length_singleton]
        simp only [State.goto, Pc.rank] at hrank ⊢
        omega
  | sleeping =>
      refine ⟨.wake, s.goto .test, rfl, ?_, hstate, rfl, distance_lt rfl rfl ?_⟩
      · simp [NanoLogger.step, hpc']
      · simp [State.goto, hpc', Pc.rank]
  | returned => exact absurd hpc' hpc

lemma Inv.exists_terminated (h : Inv size s) (hsize : 0 < size) (hq : QuietInv s)
    (hdefined : s.queue.undefined = false) (hstate : s.state = .shutdown) :
    ∃ fs t, (∀ e ∈ fs, Label.own e = true) ∧
      PartialStep.exec (NanoLogger.step size) s fs = some t ∧ t.pc = .returned ∧
        fs.length ≤ distance s := by
  induction hn : distance s using Nat.strong_induction_on generalizing s with
  | _ n ih =>
      by_cases hpc : s.pc = .returned
      · exact ⟨[], s, by simp, rfl, hpc, Nat.zero_le _⟩
      · obtain ⟨e, u, hown, hstep, hstate', hsame, hlt⟩ := h.exists_nearer hsize hq hstate hpc
        have hmoves := moves_of_step hstep
        have hdefined' := hsame.trans hdefined
        have h' := h.step hsize hmoves hdefined'
        have he : Quiet s e := by
          cases e with
          | producer e => cases hown
          | shutdown => cases hown
          | _ => trivial
        obtain ⟨fs, t, hfs, hrun, ht, hlength⟩ :=
          ih _ (hn ▸ hlt) h' (hq.step h h' he hmoves) hdefined' hstate' rfl
        refine ⟨e :: fs, t, ?_, ?_, ht, ?_⟩
        · simpa [hown] using hfs
        · rw [PartialStep.exec_cons, hstep, Option.bind_some, hrun]
        · rw [List.length_cons]
          omega

/-- **After a quiet destructor the thread returns**, if no freed buffer was used: its own steps lead
to the end of `pop`, at most ten for each line that is left and nine besides. -/
theorem exists_returned (hsize : 0 < size)
    (hquiet : PartialStep.Along (step size) Quiet {} es)
    (hrun : PartialStep.exec (step size) {} es = some s) (hdefined : s.queue.undefined = false)
    (hstate : s.state = .shutdown) :
    ∃ fs t, (∀ e ∈ fs, Label.own e = true) ∧ PartialStep.exec (step size) s fs = some t ∧
      t.pc = .returned ∧
        fs.length ≤ 10 * (s.queue.claims.length - s.written.length) + 9 := by
  obtain ⟨h, hq⟩ := invs_of_exec hsize hquiet hrun hdefined
  obtain ⟨fs, t, hown, hfs, ht, hlength⟩ := h.exists_terminated hsize hq hdefined hstate
  exact ⟨fs, t, hown, hfs, ht, hlength.trans (Nat.add_le_add_left s.pc.rank_le _)⟩

theorem exists_returned_of_lastLine : ∃ s : State Unit ℕ,
    PartialStep.exec (step Buffer.size) {} (lastLine.take 8) = some s ∧
      ∃ fs t, (∀ e ∈ fs, Label.own e = true) ∧ PartialStep.exec (step Buffer.size) s fs = some t ∧
        t.pc = .returned ∧
          fs.length ≤ 10 * (s.queue.claims.length - s.written.length) + 9 :=
  ⟨_, rfl, exists_returned (show 0 < Buffer.size by decide) (by decide)
    (show PartialStep.exec (step Buffer.size) {} (lastLine.take 8) = some _ from rfl) rfl rfl⟩

end NanoLogger

end Log

end S3Proxy
