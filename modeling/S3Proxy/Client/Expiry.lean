import S3Proxy.Client.Pool

/-!
# Idle expiry

The thread of the pool calls `removeExpired` again and again while connections are acquired and
released.  A pass reads the clock once, before it takes the mutex for the first time, and gives the
mutex back between two connections, so others come in between.  It looks at the front only, which is
enough because the idle connections are ordered by the time at which they were given back.

How long a connection has been idle is counted in whole seconds, rounded toward zero (`Expired`).
That makes a difference to `Overdue` only for a `maxIdleTime` that is not positive.

## Main result

`expiry_exact`: in every run, the idle connections are in order, and each pass removes exactly the
connections that have expired when it reads the clock; for a positive `maxIdleTime` these are
exactly the ones that are overdue.  It is about every state on the way (`Exact`), also in the middle
of a pass.

`Inv.step` keeps the invariant.  It says of a pass under way that what it has removed had expired,
and of the idle connections that they are ordered and not from the future.  `step_cases` is what any
step does to these, and `expireFront_spec` the two outcomes of one round.  A pass that nobody
interrupts is the `removeExpired` of `Client.Pool` (`exec_iterate`).

## Hypotheses

The clock does not go backwards, which is part of the step, and the connections that the pool is
made with have times in order that have passed.

## What it rests on

The lemmas of `Client.Pool` about `available`, and the rule for the states of a run in
`Library.Run`.  How many connections there are is left to `Client.Limit`.
-/

namespace S3Proxy

namespace Client

variable {Connection : Type*}

namespace Pool

/-- The constructor, which reads the clock for each of the connections. -/
def constructAt (conf : Configuration) (c : Fin conf.initialSize.toNat → Option Connection)
    (time : Fin conf.initialSize.toNat → TimePoint) : Pool Connection where
  configuration := conf
  available := List.ofFn fun i => ⟨c i, time i⟩
  created := conf.initialSize

lemma construct_eq_constructAt (conf : Configuration)
    (c : Fin conf.initialSize.toNat → Option Connection) (now : TimePoint) :
    construct conf c now = constructAt conf c fun _ => now := rfl

/-- One round of the loop of `removeExpired`: the connection it removes, or `none` if it ends. -/
def expireFront (pool : Pool Connection) (now : TimePoint) :
    Option (ConnectionWrapper Connection × Pool Connection) :=
  match pool.available with
  | [] => none
  | c :: available =>
      if (now - c.time).tdiv (seconds 1) < pool.configuration.maxIdleTime then none
      else some (c, { pool with available })

end Pool

namespace Expiry

/-- A call of `removeExpired`. -/
structure Pass (Connection : Type*) where
  now : TimePoint
  removed : List (ConnectionWrapper Connection) := []

/-- A pool with its clock and the thread that removes expired connections. -/
structure State (Connection : Type*) where
  pool : Pool Connection
  clock : TimePoint
  running : Option (Pass Connection) := none
  /-- The passes that have ended, with the connections that they left. -/
  ended : List (Pass Connection × List (ConnectionWrapper Connection)) := []

inductive Label (Connection : Type*)
  /-- The locked part of `acquire`. -/
  | checkout (creator : FactoryOutcome Connection) (now : TimePoint)
  | release (c : ConnectionWrapper Connection) (valid : Bool) (now : TimePoint)
  | start (now : TimePoint)
  | iterate

/-- A reading of a clock that does not go back. -/
def State.tick (s : State Connection) (now : TimePoint) : Option (State Connection) :=
  if s.clock ≤ now then some { s with clock := now } else none

def step : PartialStep (State Connection) (Label Connection)
  | s, .checkout creator now =>
      (s.tick now).map fun s => { s with pool := (s.pool.checkout creator now).2 }
  | s, .release c valid now =>
      (s.tick now).map fun s => { s with pool := s.pool.release c valid now }
  | s, .start now =>
      match s.running with
      | none => (s.tick now).map fun s => { s with running := some { now } }
      | some _ => none
  | s, .iterate =>
      match s.running with
      | none => none
      | some pass =>
          match s.pool.expireFront pass.now with
          | none => some { s with running := none, ended := (pass, s.pool.available) :: s.ended }
          | some (c, pool) =>
              some { s with pool, running := some { pass with removed := c :: pass.removed } }

/-- The connection has been idle for `maxIdleTime` whole seconds. -/
def Expired (maxIdleTime : ℤ) (now : TimePoint) (c : ConnectionWrapper Connection) : Prop :=
  maxIdleTime ≤ (now - c.time).tdiv (seconds 1)

/-- The connection has been idle for `maxIdleTime` seconds. -/
def Overdue (maxIdleTime : ℤ) (now : TimePoint) (c : ConnectionWrapper Connection) : Prop :=
  seconds maxIdleTime ≤ now - c.time

/-- The idle connections are in order, and a pass removes exactly those that have expired. -/
structure Exact (expired : ℤ → TimePoint → ConnectionWrapper Connection → Prop)
    (s : State Connection) : Prop where
  ordered : s.pool.available.Pairwise fun c d => c.time ≤ d.time
  running : ∀ pass ∈ s.running, ∀ c ∈ pass.removed,
    expired s.pool.configuration.maxIdleTime pass.now c
  removed : ∀ pass left, (pass, left) ∈ s.ended → ∀ c ∈ pass.removed,
    expired s.pool.configuration.maxIdleTime pass.now c
  left : ∀ pass left, (pass, left) ∈ s.ended → ∀ c ∈ left,
    ¬ expired s.pool.configuration.maxIdleTime pass.now c

/-! ### Idle times -/

variable {m : ℤ} {now : TimePoint} {c d : ConnectionWrapper Connection}

/-- For a positive `maxIdleTime` the rounding makes no difference. -/
lemma expired_iff_overdue (hm : 0 < m) : Expired m now c ↔ Overdue m now c := by
  have hsecond : (0 : ℤ) < seconds 1 := by decide
  have hseconds : seconds m = m * seconds 1 := by simp [seconds]
  rw [Expired, Overdue, hseconds]
  rcases le_or_gt 0 (now - c.time) with hnonneg | hneg
  · rw [Int.tdiv_eq_ediv_of_nonneg hnonneg, Int.le_ediv_iff_mul_le hsecond]
  · -- the connection was given back after the pass read the clock
    have hdiv : (now - c.time).tdiv (seconds 1) ≤ 0 :=
      (Int.tdiv_le_tdiv hsecond hneg.le).trans_eq (Int.zero_tdiv _)
    have hmul : 0 < m * seconds 1 := Int.mul_pos hm hsecond
    constructor
    · intro h
      exact absurd (hm.trans_le h) (not_lt.mpr hdiv)
    · intro h
      exact absurd (hmul.trans_le h) (not_lt.mpr hneg.le)

/-- Who was given back later has not been idle for longer. -/
lemma Expired.of_le (h : Expired m now d) (hle : c.time ≤ d.time) : Expired m now c :=
  h.trans (Int.tdiv_le_tdiv (by decide) (sub_le_sub_left hle now))

/-! ### One step -/

variable {s t : State Connection} {e : Label Connection}

/-- What holds of every state: the passes are exact, the configuration stays what it was, and no
connection was given back later than the clock shows. -/
structure Inv (conf : Configuration) (s : State Connection) : Prop extends Exact Expired s where
  configuration : s.pool.configuration = conf
  idle : ∀ c ∈ s.pool.available, c.time ≤ s.clock

/-- The round ends the loop at a connection that has not expired, and removes one that has. -/
lemma expireFront_spec (pool : Pool Connection) (now : TimePoint) :
    pool.expireFront now = none ∧
      (∀ c ∈ pool.available.head?, ¬ Expired pool.configuration.maxIdleTime now c) ∨
    ∃ c available, pool.available = c :: available ∧
      pool.expireFront now = some (c, { pool with available }) ∧
      Expired pool.configuration.maxIdleTime now c := by
  unfold Pool.expireFront
  cases hav : pool.available with
  | nil => exact .inl ⟨rfl, nofun⟩
  | cons c available =>
      dsimp only
      split_ifs with hfresh
      · refine .inl ⟨rfl, fun d hd => ?_⟩
        obtain rfl : c = d := by simpa using hd
        exact not_le.mpr hfresh
      · exact .inr ⟨c, available, rfl, rfl, not_lt.mp hfresh⟩

/-- What a step does: it takes connections from the front, or puts one behind the others with the
time of the clock. -/
lemma step_cases (hstep : step s e = some t) :
    (∃ now, s.clock ≤ now ∧ t.clock = now ∧ t.ended = s.ended ∧
      t.pool.configuration = s.pool.configuration ∧
      (t.running = s.running ∨ t.running = some { now }) ∧
      (t.pool.available = s.pool.available ∨ t.pool.available = s.pool.available.tail ∨
        ∃ con, t.pool.available = s.pool.available ++ [⟨con, now⟩])) ∨
    ∃ pass, s.running = some pass ∧
      (t = { s with running := none, ended := (pass, s.pool.available) :: s.ended } ∧
        (∀ c ∈ s.pool.available.head?, ¬ Expired s.pool.configuration.maxIdleTime pass.now c) ∨
      ∃ c available, s.pool.available = c :: available ∧
        t = { s with
          pool := { s.pool with available }
          running := some { pass with removed := c :: pass.removed } } ∧
        Expired s.pool.configuration.maxIdleTime pass.now c) := by
  have htick : ∀ {now : TimePoint} {f : State Connection → State Connection},
      (s.tick now).map f = some t → s.clock ≤ now ∧ t = f { s with clock := now } := by
    intro now f h
    unfold State.tick at h
    split_ifs at h with hle
    · exact ⟨hle, (Option.some.inj h).symm⟩
    · cases h
  cases e with
  | checkout creator now =>
      obtain ⟨hle, rfl⟩ := htick hstep
      exact .inl ⟨now, hle, rfl, rfl, Pool.configuration_checkout, .inl rfl,
        .inr (.inl Pool.available_checkout)⟩
  | release c valid now =>
      obtain ⟨hle, rfl⟩ := htick hstep
      refine .inl ⟨now, hle, rfl, rfl, Pool.configuration_release, .inl rfl, ?_⟩
      rcases s.pool.available_release now c valid with hav | ⟨-, -, hav⟩
      · exact .inl hav
      · exact .inr (.inr ⟨c.con, hav⟩)
  | start now =>
      cases hrun : s.running with
      | none =>
          rw [step, hrun] at hstep
          obtain ⟨hle, rfl⟩ := htick hstep
          exact .inl ⟨now, hle, rfl, rfl, rfl, .inr rfl, .inl rfl⟩
      | some pass =>
          rw [step, hrun] at hstep
          cases hstep
  | iterate =>
      cases hrun : s.running with
      | none =>
          rw [step, hrun] at hstep
          cases hstep
      | some pass =>
          refine .inr ⟨pass, rfl, ?_⟩
          rw [step, hrun] at hstep
          dsimp only at hstep
          rcases expireFront_spec s.pool pass.now with
            ⟨hend, hhead⟩ | ⟨c, available, hav, hfront, hexpired⟩
          · rw [hend] at hstep
            exact .inl ⟨(Option.some.inj hstep).symm, hhead⟩
          · rw [hfront] at hstep
            exact .inr ⟨c, available, hav, (Option.some.inj hstep).symm, hexpired⟩

/-- If the first of the connections in order has not expired, none has. -/
lemma not_expired_of_head {l : List (ConnectionWrapper Connection)}
    (hordered : l.Pairwise fun c d => c.time ≤ d.time) (hhead : ∀ c ∈ l.head?, ¬ Expired m now c) :
    ∀ c ∈ l, ¬ Expired m now c := by
  cases l with
  | nil => exact nofun
  | cons first rest =>
      intro c hc hexpired
      apply hhead first rfl
      rcases List.mem_cons.mp hc with rfl | hrest
      · exact hexpired
      · exact hexpired.of_le ((List.pairwise_cons.mp hordered).1 c hrest)

/-- A connection that is taken from the front, or put behind the others when the clock shows their
times or later, leaves them in order. -/
lemma ordered_of_moved {l l' : List (ConnectionWrapper Connection)}
    (hordered : l.Pairwise fun c d => c.time ≤ d.time) (hidle : ∀ c ∈ l, c.time ≤ now)
    (hmoved : l' = l ∨ l' = l.tail ∨ ∃ con, l' = l ++ [⟨con, now⟩]) :
    (l'.Pairwise fun c d => c.time ≤ d.time) ∧ ∀ c ∈ l', c.time ≤ now := by
  rcases hmoved with rfl | rfl | ⟨con, rfl⟩
  · exact ⟨hordered, hidle⟩
  · exact ⟨hordered.sublist (List.tail_sublist _), fun c hc => hidle c (List.mem_of_mem_tail hc)⟩
  · constructor
    · refine List.pairwise_append.mpr
        ⟨hordered, List.pairwise_singleton _ _, fun c hc d hd => ?_⟩
      rw [List.mem_singleton.mp hd]
      exact hidle c hc
    · intro c hc
      rcases List.mem_append.mp hc with hc | hc
      · exact hidle c hc
      · rw [List.mem_singleton.mp hc]

/-- **One step** keeps the order, and what is known of the passes. -/
lemma Inv.step {conf : Configuration} (h : Inv conf s) (hstep : Expiry.step s e = some t) :
    Inv conf t := by
  obtain ⟨now, hle, hclock, hended, hconf, hrunning, hav⟩ | ⟨pass, hrun, ⟨rfl, hhead⟩ |
    ⟨c, available, hav, rfl, hexpired⟩⟩ := step_cases hstep
  · obtain ⟨hordered, hidle⟩ :=
      ordered_of_moved h.ordered (fun c hc => (h.idle c hc).trans hle) hav
    refine ⟨⟨hordered, fun pass hpass => ?_, ?_, ?_⟩, hconf.trans h.configuration, ?_⟩
    · rw [hconf]
      rcases hrunning with hsame | hnew
      · exact h.running pass (hsame ▸ hpass)
      · obtain rfl : { now } = pass := Option.some.inj (hnew.symm.trans hpass)
        exact nofun
    · rw [hended, hconf]
      exact h.removed
    · rw [hended, hconf]
      exact h.left
    · rw [hclock]
      exact hidle
  · refine ⟨⟨h.ordered, nofun, fun pass' left hmem => ?_, fun pass' left hmem => ?_⟩,
      h.configuration, h.idle⟩
    · rcases List.mem_cons.mp hmem with heq | hmem
      · cases heq
        exact h.running pass hrun
      · exact h.removed pass' left hmem
    · rcases List.mem_cons.mp hmem with heq | hmem
      · cases heq
        exact not_expired_of_head h.ordered hhead
      · exact h.left pass' left hmem
  · have hordered := h.ordered
    rw [hav] at hordered
    refine ⟨⟨(List.pairwise_cons.mp hordered).2, fun pass' hpass => ?_, h.removed, h.left⟩,
      h.configuration, fun d hd => ?_⟩
    · obtain rfl := Option.some.inj hpass
      intro d hd
      rcases List.mem_cons.mp hd with rfl | hd
      · exact hexpired
      · exact h.running pass hrun d hd
    · exact h.idle d (hav ▸ List.mem_cons_of_mem c hd)

/-- The rounds of the loop add up to `removeExpired`. -/
lemma removeExpired_eq (pool : Pool Connection) (now : TimePoint) :
    pool.removeExpired now =
      ((pool.expireFront now).map fun r => r.2.removeExpired now).getD pool := by
  obtain ⟨configuration, available, total, created⟩ := pool
  unfold Pool.expireFront Pool.removeExpired
  cases available with
  | nil => rfl
  | cons c available =>
      dsimp only
      split_ifs with hfresh
      · rw [List.dropWhile_cons_of_neg (by simpa using hfresh)]
        rfl
      · rw [List.dropWhile_cons_of_pos (by simpa using hfresh)]
        rfl

/-- The last round of a pass. -/
lemma exec_iterate_end {pass : Pass Connection} (hrun : s.running = some pass)
    (hfront : s.pool.expireFront pass.now = none) :
    ∃ n t, PartialStep.exec Expiry.step s (List.replicate n .iterate) = some t ∧
      t.running = none ∧ t.pool = s.pool.removeExpired pass.now := by
  refine ⟨1, { s with running := none, ended := (pass, s.pool.available) :: s.ended }, ?_, rfl, ?_⟩
  · simp [Expiry.step, hrun, hfront]
  · rw [removeExpired_eq, hfront]
    rfl

/-- A pass that nobody interrupts is `removeExpired`. -/
lemma exec_iterate {pass : Pass Connection} (hrun : s.running = some pass) :
    ∃ n t, PartialStep.exec Expiry.step s (List.replicate n .iterate) = some t ∧
      t.running = none ∧ t.pool = s.pool.removeExpired pass.now := by
  induction hlength : s.pool.available.length generalizing s pass with
  | zero =>
      apply exec_iterate_end hrun
      rw [Pool.expireFront, List.length_eq_zero_iff.mp hlength]
  | succ n ih =>
      rcases expireFront_spec s.pool pass.now with ⟨hfront, -⟩ | ⟨c, available, hav, hfront, -⟩
      · exact exec_iterate_end hrun hfront
      · rw [hav, List.length_cons, Nat.add_right_cancel_iff] at hlength
        obtain ⟨k, t, hexec, hidle, hpool⟩ := ih (s := { s with
          pool := { s.pool with available }
          running := some { pass with removed := c :: pass.removed } }) rfl hlength
        refine ⟨k + 1, t, ?_, hidle, ?_⟩
        · rw [List.replicate_succ, PartialStep.exec_cons]
          simp only [Expiry.step, hrun, hfront, Option.bind_some]
          exact hexec
        · rw [removeExpired_eq, hfront]
          exact hpool

/-- Idle times in whole seconds are enough for a positive `maxIdleTime`. -/
lemma Exact.overdue (h : Exact Expired s) (hpos : 0 < s.pool.configuration.maxIdleTime) :
    Exact Overdue s where
  ordered := h.ordered
  running pass hpass c hc := (expired_iff_overdue hpos).mp (h.running pass hpass c hc)
  removed pass left hmem c hc := (expired_iff_overdue hpos).mp (h.removed pass left hmem c hc)
  left pass left hmem c hc hover :=
    h.left pass left hmem c hc ((expired_iff_overdue hpos).mpr hover)

/-! ### Runs -/

/-- A pool as its constructor leaves it. -/
def start (conf : Configuration) (c : Fin conf.initialSize.toNat → Option Connection)
    (time : Fin conf.initialSize.toNat → TimePoint) (clock : TimePoint) : State Connection :=
  ⟨.constructAt conf c time, clock, none, []⟩

/-- **Idle expiry.**  While the clock does not go back, the idle connections are in order after each
step of a run, and every pass removes exactly the connections that had been idle for `maxIdleTime`
whole seconds when it started; for a positive `maxIdleTime`, those that had been idle for that
long. -/
theorem expiry_exact (conf : Configuration) (c : Fin conf.initialSize.toNat → Option Connection)
    {time : Fin conf.initialSize.toNat → TimePoint} {clock : TimePoint} (htime : Monotone time)
    (hclock : ∀ i, time i ≤ clock) (es : List (Label Connection)) :
    PartialStep.Visits step (Exact Expired) (start conf c time clock) es ∧
      (0 < conf.maxIdleTime →
        PartialStep.Visits step (Exact Overdue) (start conf c time clock) es) := by
  have hstart : Inv conf (start conf c time clock) := by
    refine ⟨⟨?_, nofun, nofun, nofun⟩, rfl, fun con hcon => ?_⟩
    · exact List.pairwise_ofFn.mpr fun i j hij => htime hij.le
    · obtain ⟨i, rfl⟩ := List.mem_ofFn.mp hcon
      exact hclock i
  have hvisits : ∀ {Q : State Connection → Prop}, (∀ s, Inv conf s → Q s) →
      PartialStep.Visits step Q (start conf c time clock) es :=
    fun hQ => PartialStep.visits_of_along (fun _ _ _ h _ hstep => h.step hstep) hQ hstart
      (PartialStep.along_true _ es)
  refine ⟨hvisits fun s h => h.toExact, fun hpos => hvisits fun s h => h.toExact.overdue ?_⟩
  rw [h.configuration]
  exact hpos

/-- Of two connections one is acquired and comes back three seconds after the pool was made.  The
pass that starts at five seconds removes the other and leaves this one. -/
theorem expiry_exact_returned :
    let pool : State ℕ :=
      start { initialSize := 2, maxIdleTime := 5 } (fun i => some i) (fun _ => 0) 0
    let run : List (Label ℕ) :=
      [.checkout .threw (seconds 1), .release ⟨some 0, 0⟩ true (seconds 3), .start (seconds 5),
        .iterate, .iterate]
    PartialStep.Visits step (Exact Overdue) pool run ∧
      (PartialStep.exec step pool run).map State.ended =
        some [(⟨seconds 5, [⟨some 1, 0⟩]⟩, [⟨some 0, seconds 3⟩])] := by
  intro pool run
  have htime : Monotone fun _ : Fin 2 => (0 : TimePoint) := fun _ _ _ => le_rfl
  exact ⟨(expiry_exact _ _ htime (fun _ => le_rfl) _).2 (by decide), rfl⟩

/-- With a `maxIdleTime` of zero, a connection that is released half a second after the pass has
started is removed, and one that is released after two seconds is left. -/
theorem not_exact_of_zero :
    let run : List (Label ℕ) :=
      [.checkout .threw 0, .checkout .threw 0, .start 0, .release ⟨some 0, 0⟩ true 500000000,
        .iterate, .release ⟨some 1, 0⟩ true (seconds 2), .iterate]
    let pool : State ℕ :=
      start { initialSize := 2, maxIdleTime := 0 } (fun i => some i) (fun _ => 0) 0
    ¬ PartialStep.Visits step (Exact Overdue) pool run ∧
      ¬ PartialStep.Visits step
        (Exact fun maxIdleTime now c => seconds maxIdleTime ≤ max 0 (now - c.time)) pool run := by
  intro run pool
  constructor
  · intro h
    have hremoved : Overdue 0 0 (⟨some 0, 500000000⟩ : ConnectionWrapper ℕ) :=
      (((((h.2 _ rfl).2 _ rfl).2 _ rfl).2 _ rfl).2 _ rfl).1.running _ rfl _ List.mem_cons_self
    exact absurd hremoved (by simp [Overdue, seconds])
  · intro h
    have hleft : ¬ seconds 0 ≤ max 0 (0 - seconds 2) :=
      (((((((h.2 _ rfl).2 _ rfl).2 _ rfl).2 _ rfl).2 _ rfl).2 _ rfl).2 _ rfl).left _ _
        List.mem_cons_self ⟨some 1, seconds 2⟩ List.mem_cons_self
    exact hleft (by decide)

end Expiry

end Client

end S3Proxy
