import S3Proxy.Queue.Poller

/-!
# Shutting the poller down

`stop` clears the flag that the poller tests.  Two things can go wrong.  The poller sets the flag
itself when its clients are constructed, and a `stop` that came before is lost.  And a `stop` that
comes while the poller is not in its drain loop ends it without another look at the queue, as does
an exception in the last pass through that loop.

## Main results

`heeded_iff_notLate`: a stop request is not lost, in any state of a run, exactly if it does not come
before the clients are constructed (`NotLate`).  `returned_of_heeded` adds that a poller whose flag
is cleared ends at its next test.

`not_due_iff_drains`: when the poller has returned, nothing that was published before `stop` is left
in the queue (`Due`) exactly if the run `Drains`: `stop` finds the queue empty or the poller in its
drain loop, and the poller then leaves this loop, by itself or by an exception, only when nothing is
due.

The second result is about the last state, and comes from the fork rule of `Library.Run`.  As long
as the steps drain, the poller is `OnTrack`; the first one that does not puts it where it is
`Trapped`, that is on its way out with something due, and no step leads from there
(`onTrack_of_moves`, `trapped_of_moves`, `Trapped.moves`).

## Hypotheses

For the second result `stop` comes after the poller has set the flag (`Started`), since the first
result covers the other runs.

## What it rests on

The relation `Moves` of `Queue.Poller`, with one case for each step.
-/

namespace S3Proxy

namespace Queue

variable {s t : State} {e : Label}

/-! ### The flag -/

/-- Once `stop` has been called the poller does not see the flag set again. -/
def Heeded (s : State) : Prop := s.stopMark.isSome → s.running = false

instance : DecidablePred Heeded := fun s =>
  inferInstanceAs (Decidable (s.stopMark.isSome → s.running = false))

/-- The poller does not set the flag after `stop`. -/
def NotLate (s : State) : Label → Prop
  | .start => s.stopMark = none
  | _ => True

/-- **One step** takes a `stop` back precisely if it is the start of the poller. -/
lemma heeded_step_iff (h : Heeded s) (hmoves : Moves s e t) : Heeded t ↔ NotLate s e := by
  cases hmoves with
  | stop hfirst => exact iff_of_true (fun _ => rfl) trivial
  | start hpc => simp [Heeded, NotLate]
  | publish metric henabled => exact iff_of_true h trivial
  | disabled metric => exact iff_of_true h trivial
  | test hpc => exact iff_of_true h trivial
  | scan hpc => exact iff_of_true h trivial
  | dequeue seen i m hpc hget => exact iff_of_true h trivial
  | miss hpc => exact iff_of_true h trivial
  | lookup metric result hpc => exact iff_of_true h trivial
  | saveMongo metric fields hpc => exact iff_of_true h trivial
  | saveTsdb metric fields threw hpc => exact iff_of_true h trivial
  | testSleep hpc => exact iff_of_true h trivial
  | wake hpc => exact iff_of_true h trivial

/-- A poller whose flag is cleared ends at its next test. -/
lemma returned_of_heeded (h : Heeded s) (hstop : s.stopMark.isSome)
    (hstep : step s .test = some t) : t.pc = .returned := by
  cases moves_of_step hstep with
  | test hpc => exact if_neg (by simp [h hstop])

/-- **A stop request is not lost** in exactly those runs in which it does not come before the
clients are constructed. -/
theorem heeded_iff_notLate (config : MetricsConfiguration) (es : List Label) :
    PartialStep.Visits step Heeded (start config) es ↔
      PartialStep.Along step NotLate (start config) es := by
  apply PartialStep.visits_iff_along (I := fun _ => True)
  · exact fun _ _ _ _ _ _ _ => trivial
  · exact fun _ _ _ _ h hstep => heeded_step_iff h (moves_of_step hstep)
  · trivial
  · exact nofun

/-- The poller is stopped while it connects to MongoDB, and starts nevertheless. -/
theorem not_heeded_of_early_stop :
    ¬ PartialStep.Visits step Heeded (start mongoConfig) [.stop, .start] :=
  fun h => absurd (show Heeded _ from (h.2 _ rfl).2 _ rfl) (by decide)

/-! ### The queue -/

/-- Inside the `while` loop of `loop`. -/
def Pc.draining : Pc → Bool
  | .consume | .scanning _ | .acquire _ | .saveMongo .. | .saveTsdb .. => true
  | .setUp | .test | .testSleep | .sleep | .returned => false

/-- A metric that was published before `stop` is still in the queue. -/
def Due (s : State) : Prop := ∃ mark ∈ s.stopMark, ∃ m ∈ s.queue, m.1 < mark

instance : DecidablePred Due := fun s =>
  inferInstanceAs (Decidable (∃ mark ∈ s.stopMark, ∃ m ∈ s.queue, m.1 < mark))

/-- `stop` finds the queue empty, or the poller in its drain loop; and once it has been called the
poller leaves that loop, by itself or by an exception, only when nothing is due. -/
def Drains (s : State) : Label → Prop
  | .stop => s.queue = [] ∨ s.pc.draining = true
  | .miss => ¬ Due s
  | .lookup result => result = .threw → ¬ Due s
  | .saveTsdb threw => threw = true → ¬ Due s
  | _ => True

/-- `stop` is called after the poller has set the flag. -/
def Started (s : State) (e : Label) : Prop := e = .stop → s.pc ≠ .setUp

instance (s : State) (e : Label) : Decidable (Started s e) :=
  inferInstanceAs (Decidable (e = .stop → s.pc ≠ .setUp))

/-- How the numbers of the metrics, the mark of `stop` and the flag belong together. -/
structure Inv (s : State) : Prop where
  numbered : ∀ m ∈ s.queue, m.1 < s.published
  mark : ∀ mark ∈ s.stopMark, mark ≤ s.published
  setUp : s.pc = .setUp → s.stopMark = none
  heeded : Heeded s

/-- Steps of the poller that take nothing off the queue. -/
lemma Inv.congr (h : Inv s) (hqueue : t.queue = s.queue) (hpublished : t.published = s.published)
    (hmark : t.stopMark = s.stopMark) (hrunning : t.running = s.running)
    (hpc : t.pc ≠ .setUp) : Inv t where
  numbered := by
    rw [hqueue, hpublished]
    exact h.numbered
  mark := by
    rw [hmark, hpublished]
    exact h.mark
  setUp hsetUp := absurd hsetUp hpc
  heeded := by
    rw [Heeded, hmark, hrunning]
    exact h.heeded

lemma inv_of_moves (h : Inv s) (hstarted : Started s e) (hmoves : Moves s e t) : Inv t := by
  cases hmoves with
  | publish metric henabled =>
      constructor
      · intro m hm
        rcases List.mem_append.mp hm with hm | hm
        · exact Nat.lt_succ_of_lt (h.numbered m hm)
        · rw [List.mem_singleton.mp hm]
          exact Nat.lt_succ_self _
      · exact fun mark hmark => Nat.le_succ_of_le (h.mark mark hmark)
      · exact h.setUp
      · exact h.heeded
  | disabled metric => exact h
  | stop hfirst =>
      constructor
      · exact h.numbered
      · rintro mark hmark
        cases hmark
        exact Nat.le_refl _
      · exact fun hpc => absurd hpc (hstarted rfl)
      · exact fun _ => rfl
  | start hpc =>
      constructor
      · exact h.numbered
      · exact h.mark
      · exact nofun
      · intro hmark
        have hnone := h.setUp hpc
        rw [hnone] at hmark
        cases hmark
  | test hpc => exact h.congr rfl rfl rfl rfl (by cases hrunning : s.running <;> simp)
  | scan hpc => exact h.congr rfl rfl rfl rfl nofun
  | dequeue seen i m hpc hget =>
      constructor
      · exact fun m hm => h.numbered m (List.mem_of_mem_eraseIdx hm)
      · exact h.mark
      · exact nofun
      · exact h.heeded
  | miss hpc => exact h.congr rfl rfl rfl rfl nofun
  | lookup metric result hpc => exact h.congr rfl rfl rfl rfl (by cases result <;> simp)
  | saveMongo metric fields hpc => exact h.congr rfl rfl rfl rfl nofun
  | saveTsdb metric fields threw hpc =>
      exact h.congr rfl rfl rfl rfl (by cases threw <;> simp [State.callTsdb])
  | testSleep hpc => exact h.congr rfl rfl rfl rfl (by cases hrunning : s.running <;> simp)
  | wake hpc => exact h.congr rfl rfl rfl rfl nofun

/-- Nothing is due, or the poller is going to look at the queue again. -/
structure OnTrack (s : State) : Prop where
  inv : Inv s
  draining : Due s → s.pc.draining = true

/-- Something is due, and the poller is on its way out. -/
structure Trapped (s : State) : Prop where
  due : Due s
  leaving : s.pc.draining = false
  started : s.pc ≠ .setUp
  stopped : s.running = false

lemma Due.isSome (h : Due s) : s.stopMark.isSome := by
  obtain ⟨mark, hmark, -⟩ := h
  rw [hmark]
  rfl

/-- What is published after `stop` is not due. -/
lemma due_of_publish (hinv : Inv s) {metric : Metric}
    (h : Due { s with queue := s.queue ++ [(s.published, metric)], published := s.published + 1 }) :
    Due s := by
  obtain ⟨mark, hmark, m, hm, hlt⟩ := h
  rcases List.mem_append.mp hm with hm | hm
  · exact ⟨mark, hmark, m, hm, hlt⟩
  · rw [List.mem_singleton.mp hm] at hlt
    exact absurd (hinv.mark mark hmark) (Nat.not_le.mpr hlt)

/-- Allowed steps keep the poller on track. -/
lemma onTrack_of_moves (h : OnTrack s) (hstarted : Started s e) (hdrains : Drains s e)
    (hmoves : Moves s e t) : OnTrack t := by
  refine ⟨inv_of_moves h.inv hstarted hmoves, ?_⟩
  -- outside the drain loop nothing is due
  have hidle : s.pc.draining = false → ¬ Due s := by
    intro hpc hdue
    rw [h.draining hdue] at hpc
    cases hpc
  cases hmoves with
  | publish metric henabled => exact fun hdue => h.draining (due_of_publish h.inv hdue)
  | disabled metric => exact h.draining
  | stop hfirst =>
      rintro ⟨mark, hmark, m, hm, hlt⟩
      rcases hdrains with hempty | hpc
      · have hm : m ∈ s.queue := hm
        rw [hempty] at hm
        cases hm
      · exact hpc
  | start hpc => exact fun hdue => absurd hdue (hidle (by rw [hpc]; rfl))
  | test hpc => exact fun hdue => absurd hdue (hidle (by rw [hpc]; rfl))
  | scan hpc => exact fun _ => rfl
  | dequeue seen i m hpc hget => exact fun _ => rfl
  | miss hpc => exact fun hdue => absurd hdue hdrains
  | lookup metric result hpc =>
      intro hdue
      by_cases hthrew : result = .threw
      · exact absurd hdue (hdrains hthrew)
      · dsimp only
        rw [if_neg hthrew]
        rfl
  | saveMongo metric fields hpc => exact fun _ => rfl
  | saveTsdb metric fields threw hpc =>
      intro hdue
      cases threw with
      | true => exact absurd hdue (hdrains rfl)
      | false => rfl
  | testSleep hpc => exact fun hdue => absurd hdue (hidle (by rw [hpc]; rfl))
  | wake hpc => exact fun hdue => absurd hdue (hidle (by rw [hpc]; rfl))

/-- The first step that is not allowed traps the poller. -/
lemma trapped_of_moves (h : OnTrack s) (hstarted : Started s e) (hdrains : ¬ Drains s e)
    (hmoves : Moves s e t) : Trapped t := by
  cases hmoves with
  | stop hfirst =>
      have hqueue : s.queue ≠ [] := fun hempty => hdrains (.inl hempty)
      obtain ⟨m, hm⟩ := List.exists_mem_of_ne_nil _ hqueue
      exact ⟨⟨s.published, rfl, m, hm, h.inv.numbered m hm⟩,
        Bool.eq_false_iff.mpr fun hpc => hdrains (.inr hpc), hstarted rfl, rfl⟩
  | miss hpc =>
      have hdue : Due s := not_not.mp hdrains
      exact ⟨hdue, rfl, nofun, h.inv.heeded hdue.isSome⟩
  | lookup metric result hpc =>
      obtain ⟨hthrew, hdue⟩ := Classical.not_imp.mp hdrains
      have hdue : Due s := not_not.mp hdue
      subst hthrew
      exact ⟨hdue, rfl, nofun, h.inv.heeded hdue.isSome⟩
  | saveTsdb metric fields threw hpc =>
      obtain ⟨hthrew, hdue⟩ := Classical.not_imp.mp hdrains
      have hdue : Due s := not_not.mp hdue
      subst hthrew
      exact ⟨hdue, rfl, nofun, h.inv.heeded hdue.isSome⟩
  | publish metric henabled => exact absurd trivial hdrains
  | disabled metric => exact absurd trivial hdrains
  | start hpc => exact absurd trivial hdrains
  | test hpc => exact absurd trivial hdrains
  | scan hpc => exact absurd trivial hdrains
  | dequeue seen i m hpc hget => exact absurd trivial hdrains
  | saveMongo metric fields hpc => exact absurd trivial hdrains
  | testSleep hpc => exact absurd trivial hdrains
  | wake hpc => exact absurd trivial hdrains

/-- A trapped poller does not look at the queue again. -/
lemma Trapped.moves (h : Trapped s) (hmoves : Moves s e t) : Trapped t := by
  have hleaving := h.leaving
  have hstarted := h.started
  cases hmoves with
  | publish metric henabled =>
      obtain ⟨mark, hmark, m, hm, hlt⟩ := h.due
      exact ⟨⟨mark, hmark, m, List.mem_append_left _ hm, hlt⟩, h.leaving, h.started, h.stopped⟩
  | disabled metric => exact h
  | stop hfirst =>
      have := h.due.isSome
      rw [hfirst] at this
      cases this
  | start hpc => exact absurd hpc hstarted
  | test hpc =>
      refine ⟨h.due, ?_, ?_, h.stopped⟩
      · simp [h.stopped, Pc.draining]
      · simp [h.stopped]
  | testSleep hpc =>
      refine ⟨h.due, ?_, ?_, h.stopped⟩
      · simp [h.stopped, Pc.draining]
      · simp [h.stopped]
  | wake hpc => exact ⟨h.due, rfl, nofun, h.stopped⟩
  | scan hpc =>
      rw [hpc] at hleaving
      cases hleaving
  | dequeue seen i m hpc hget =>
      rw [hpc] at hleaving
      cases hleaving
  | miss hpc =>
      rw [hpc] at hleaving
      cases hleaving
  | lookup metric result hpc =>
      rw [hpc] at hleaving
      cases hleaving
  | saveMongo metric fields hpc =>
      rw [hpc] at hleaving
      cases hleaving
  | saveTsdb metric fields threw hpc =>
      rw [hpc] at hleaving
      cases hleaving

/-- **Shutdown drains the queue** in exactly those runs in which `stop` comes while the poller is in
its drain loop, or finds nothing to drain, and the poller does not leave that loop too early. -/
theorem not_due_iff_drains {config : MetricsConfiguration} {es : List Label}
    (hstarted : PartialStep.Along step Started (start config) es)
    (hrun : PartialStep.exec step (start config) es = some t) (hreturned : t.pc = .returned) :
    ¬ Due t ↔ PartialStep.Along step Drains (start config) es := by
  have hstart : OnTrack (start config) :=
    ⟨⟨nofun, nofun, fun _ => rfl, nofun⟩, by rintro ⟨mark, hmark, -⟩; cases hmark⟩
  constructor
  · intro hdue
    have hfork := PartialStep.along_or_trapped (P := Drains) (I := OnTrack) (D := Trapped)
      (fun _ _ _ h hs hd hstep => onTrack_of_moves h hs hd (moves_of_step hstep))
      (fun _ _ _ h hs hd hstep => trapped_of_moves h hs hd (moves_of_step hstep))
      (fun _ _ _ h hstep => h.moves (moves_of_step hstep)) hstart hstarted hrun
    rcases hfork with ⟨halong, -⟩ | htrapped
    · exact halong
    · exact absurd htrapped.due hdue
  · intro halong hdue
    have htrack : OnTrack t := PartialStep.exec_induction (I := OnTrack)
      (fun _ _ _ h hP hstep => onTrack_of_moves h hP.1 hP.2 (moves_of_step hstep)) hstart
      (hstarted.and halong) hrun
    have hdraining := htrack.draining hdue
    rw [hreturned] at hdraining
    cases hdraining

/-- A run that is stopped while the poller drains the queue. -/
def orderlyRun : List Label :=
  [.start, .publish .sample, .test, .stop, .scan, .dequeue 0, .lookup .exhausted, .saveMongo,
    .saveTsdb false, .scan, .miss, .testSleep, .test]

/-- A run that is stopped while the poller sleeps. -/
def sleepingRun : List Label :=
  [.start, .test, .scan, .miss, .testSleep, .publish .sample, .stop, .wake, .test]

/-- The rule for the orderly run, which drains the queue. -/
theorem not_due_orderlyRun : ∃ t, PartialStep.exec step (start mongoConfig) orderlyRun = some t ∧
    (¬ Due t ↔ PartialStep.Along step Drains (start mongoConfig) orderlyRun) :=
  ⟨_, rfl, not_due_iff_drains (by decide) rfl rfl⟩

/-- The poller is stopped in its sleep, and never sees the metric that was published meanwhile. -/
theorem due_sleepingRun : ¬ ∀ (es : List Label) (t : State),
    PartialStep.Along step Started (start mongoConfig) es →
      PartialStep.exec step (start mongoConfig) es = some t → t.pc = .returned → ¬ Due t :=
  fun h => absurd (show Due _ by decide) (h sleepingRun _ (by decide) rfl rfl)

end Queue

end S3Proxy
