import S3Proxy.Client.Mmdb
import S3Proxy.Library.Run
import S3Proxy.Model.Metric

/-!
# The metrics poller

`Poller::run` takes metrics off the queue, looks up where they come from, and hands them to MongoDB
and the time series database.  Request threads publish while it runs, and one thread calls `stop`.
`Label` names the steps of all of them; between two steps of the poller any others may come.

`try_dequeue` is two steps.  It looks through the queue while others publish, and comes back empty
only if nothing was there when it began.  An exception that leaves `loop` leads back to the test of
`running`.

The last five fields of `State` are not the program's: they record what has happened.

## Main result

`stored_iff_quiet`: throughout a run, every metric that has been taken off the queue and looked up
has been handed once to each database that is configured, in order, or is about to be (`Stored`),
exactly if no lookup of the run throws while there is a database (`Quiet`).  A lookup that throws
comes after the metric has left the queue, and nothing brings it back.

`moves_of_step` says once what each step can do, as the relation `Moves`; the later results are case
distinctions over it and never look into the step.  `inStep_of_moves` is the invariant, and
`stored_step_iff` decides the step.

## Hypotheses

None.  Any configuration, any order of steps, any result of each lookup and an exception wherever
the source can have one.

## Where it is used

`Queue.Shutdown` asks what is left in the queue when the poller ends, over the same states and the
same `Moves`.  What is handed over is written by `Queue.Mongo` and by `Queue.Tsdb`; the queue
itself, which is taken here for one that loses nothing, is `Queue.ImplicitProducer`.
-/

namespace S3Proxy

namespace Queue

open Client (Properties)

/-- How the lookup of an address ends. -/
inductive Lookup
  /-- The pool is exhausted: no proxy. -/
  | exhausted
  /-- `acquire` throws: no connection can be opened. -/
  | threw
  | properties (fields : Properties)
  deriving DecidableEq

/-- The location fields that belong to a metric. -/
def Lookup.fields : Lookup → Properties
  | .exhausted | .threw => .none
  | .properties fields => fields

/-- Where the poller is. -/
inductive Pc
  /-- The clients are being constructed. -/
  | setUp
  /-- At `while ( running.load() )`. -/
  | test
  | consume
  /-- In `try_dequeue`; `seen` is whether something was in the queue when it began. -/
  | scanning (seen : Bool)
  | acquire (metric : Metric)
  | saveMongo (metric : Metric) (fields : Properties)
  | saveTsdb (metric : Metric) (fields : Properties)
  /-- At `if ( running.load() )`, behind the drain loop. -/
  | testSleep
  | sleep
  | returned
  deriving DecidableEq

structure State where
  config : MetricsConfiguration
  /-- What is in the queue, each metric with its number. -/
  queue : List (ℕ × Metric) := []
  running : Bool := false
  pc : Pc := .setUp
  count : ℤ := 0
  published : ℕ := 0
  /-- How many metrics had been published when `stop` was called. -/
  stopMark : Option ℕ := none
  dequeued : List Metric := []
  lookups : List Lookup := []
  mongo : List (Metric × Properties) := []
  tsdb : List (Metric × Properties) := []
  deriving DecidableEq

inductive Label
  | publish (metric : Metric)
  | stop
  /-- `running.store( true )`. -/
  | start
  | test
  | scan
  /-- The queue hands out the metric at a position of its choice. -/
  | dequeue (i : ℕ)
  | miss
  | lookup (result : Lookup)
  | saveMongo
  | saveTsdb (threw : Bool)
  | testSleep
  | wake
  deriving DecidableEq

namespace State

/-- `if ( mongo )`. -/
def hasMongo (s : State) : Bool := s.config.mongoUri ≠ ""

/-- `if ( tsdb )`. -/
def hasTsdb (s : State) : Bool := s.config.ilpHost ≠ ""

/-- `MongoClient::save` catches its exceptions. -/
def callMongo (s : State) (metric : Metric) (fields : Properties) : State :=
  { s with
    mongo := if s.hasMongo then s.mongo ++ [(metric, fields)] else s.mongo
    pc := .saveTsdb metric fields }

def callTsdb (s : State) (metric : Metric) (fields : Properties) (threw : Bool) : State :=
  { s with
    tsdb := if s.hasTsdb then s.tsdb ++ [(metric, fields)] else s.tsdb
    count := if threw then s.count else s.count + 1
    pc := if threw then .test else .consume }

end State

/-- The poller is started only if the configuration publishes metrics, so that `publish` puts the
metric into the queue. -/
def step : PartialStep State Label
  | s, .publish metric =>
      if publishMetrics s.config then
        some { s with queue := s.queue ++ [(s.published, metric)], published := s.published + 1 }
      else some s
  | s, .stop =>
      match s.stopMark with
      | none => some { s with running := false, stopMark := some s.published }
      | some _ => none
  | s, .start =>
      match s.pc with
      | .setUp => some { s with running := true, pc := .test }
      | _ => none
  | s, .test =>
      match s.pc with
      | .test => some { s with pc := if s.running then .consume else .returned }
      | _ => none
  | s, .scan =>
      match s.pc with
      | .consume => some { s with pc := .scanning (!s.queue.isEmpty) }
      | _ => none
  | s, .dequeue i =>
      match s.pc with
      | .scanning _ => s.queue[i]?.map fun m =>
          { s with
            queue := s.queue.eraseIdx i
            dequeued := s.dequeued ++ [m.2]
            pc := .acquire m.2 }
      | _ => none
  | s, .miss =>
      match s.pc with
      | .scanning false => some { s with pc := .testSleep }
      | _ => none
  | s, .lookup result =>
      match s.pc with
      | .acquire metric =>
          some { s with
            lookups := s.lookups ++ [result]
            pc := if result = .threw then .test else .saveMongo metric result.fields }
      | _ => none
  | s, .saveMongo =>
      match s.pc with
      | .saveMongo metric fields => some (s.callMongo metric fields)
      | _ => none
  | s, .saveTsdb threw =>
      match s.pc with
      | .saveTsdb metric fields =>
          if threw && !s.hasTsdb then none else some (s.callTsdb metric fields threw)
      | _ => none
  | s, .testSleep =>
      match s.pc with
      | .testSleep => some { s with pc := if s.running then .sleep else .test }
      | _ => none
  | s, .wake =>
      match s.pc with
      | .sleep => some { s with pc := .test }
      | _ => none

/-- The steps of the system, each with what it requires and what it does. -/
inductive Moves (s : State) : Label → State → Prop
  | publish (metric : Metric) (henabled : publishMetrics s.config = true) :
      Moves s (.publish metric)
        { s with queue := s.queue ++ [(s.published, metric)], published := s.published + 1 }
  | disabled (metric : Metric) : Moves s (.publish metric) s
  | stop (hfirst : s.stopMark = none) :
      Moves s .stop { s with running := false, stopMark := some s.published }
  | start (hpc : s.pc = .setUp) : Moves s .start { s with running := true, pc := .test }
  | test (hpc : s.pc = .test) :
      Moves s .test { s with pc := if s.running then .consume else .returned }
  | scan (hpc : s.pc = .consume) : Moves s .scan { s with pc := .scanning (!s.queue.isEmpty) }
  | dequeue (seen : Bool) (i : ℕ) (m : ℕ × Metric) (hpc : s.pc = .scanning seen)
      (hget : s.queue[i]? = some m) :
      Moves s (.dequeue i)
        { s with
          queue := s.queue.eraseIdx i, dequeued := s.dequeued ++ [m.2], pc := .acquire m.2 }
  | miss (hpc : s.pc = .scanning false) : Moves s .miss { s with pc := .testSleep }
  | lookup (metric : Metric) (result : Lookup) (hpc : s.pc = .acquire metric) :
      Moves s (.lookup result)
        { s with
          lookups := s.lookups ++ [result]
          pc := if result = .threw then .test else .saveMongo metric result.fields }
  | saveMongo (metric : Metric) (fields : Properties) (hpc : s.pc = .saveMongo metric fields) :
      Moves s .saveMongo (s.callMongo metric fields)
  | saveTsdb (metric : Metric) (fields : Properties) (threw : Bool)
      (hpc : s.pc = .saveTsdb metric fields) :
      Moves s (.saveTsdb threw) (s.callTsdb metric fields threw)
  | testSleep (hpc : s.pc = .testSleep) :
      Moves s .testSleep { s with pc := if s.running then .sleep else .test }
  | wake (hpc : s.pc = .sleep) : Moves s .wake { s with pc := .test }

/-- **What a step can do.** -/
lemma moves_of_step {s t : State} {e : Label} (hstep : step s e = some t) : Moves s e t := by
  cases e with
  | publish metric =>
      rw [step] at hstep
      split at hstep
      · rename_i henabled
        cases hstep
        exact .publish metric henabled
      · cases hstep
        exact .disabled metric
  | stop =>
      rw [step] at hstep
      split at hstep
      · rename_i hfirst
        cases hstep
        exact .stop hfirst
      · cases hstep
  | start =>
      rw [step] at hstep
      split at hstep
      · rename_i hpc
        cases hstep
        exact .start hpc
      · cases hstep
  | test =>
      rw [step] at hstep
      split at hstep
      · rename_i hpc
        cases hstep
        exact .test hpc
      · cases hstep
  | scan =>
      rw [step] at hstep
      split at hstep
      · rename_i hpc
        cases hstep
        exact .scan hpc
      · cases hstep
  | dequeue i =>
      rw [step] at hstep
      split at hstep
      · rename_i seen hpc
        obtain ⟨m, hget, heq⟩ := Option.map_eq_some_iff.mp hstep
        subst heq
        exact .dequeue seen i m hpc hget
      · cases hstep
  | miss =>
      rw [step] at hstep
      split at hstep
      · rename_i hpc
        cases hstep
        exact .miss hpc
      · cases hstep
  | lookup result =>
      rw [step] at hstep
      split at hstep
      · rename_i metric hpc
        cases hstep
        exact .lookup metric result hpc
      · cases hstep
  | saveMongo =>
      rw [step] at hstep
      split at hstep
      · rename_i metric fields hpc
        cases hstep
        exact .saveMongo metric fields hpc
      · cases hstep
  | saveTsdb threw =>
      rw [step] at hstep
      split at hstep
      · rename_i metric fields hpc
        split at hstep
        · cases hstep
        · cases hstep
          exact .saveTsdb metric fields threw hpc
      · cases hstep
  | testSleep =>
      rw [step] at hstep
      split at hstep
      · rename_i hpc
        cases hstep
        exact .testSleep hpc
      · cases hstep
  | wake =>
      rw [step] at hstep
      split at hstep
      · rename_i hpc
        cases hstep
        exact .wake hpc
      · cases hstep

/-- The poller before it has constructed its clients. -/
def start (config : MetricsConfiguration) : State := { config }

/-! ### What is stored -/

/-- The metric that has been dequeued and is being looked up. -/
def Pc.lookingUp : Pc → List Metric
  | .acquire metric => [metric]
  | _ => []

/-- What is about to be handed to MongoDB. -/
def Pc.toMongo : Pc → List (Metric × Properties)
  | .saveMongo metric fields => [(metric, fields)]
  | _ => []

/-- What is about to be handed to the time series database. -/
def Pc.toTsdb : Pc → List (Metric × Properties)
  | .saveMongo metric fields | .saveTsdb metric fields => [(metric, fields)]
  | _ => []

/-- What should be stored: every metric, in the order in which they were dequeued, with the location
that its lookup found. -/
def State.located (s : State) : List (Metric × Properties) :=
  List.zipWith (fun metric result => (metric, result.fields)) s.dequeued s.lookups

/-- Every metric that has been dequeued and looked up has been handed once to each database that is
configured, in order, or is about to be. -/
structure Stored (s : State) : Prop where
  mongo : s.hasMongo → s.mongo ++ s.pc.toMongo = s.located
  tsdb : s.hasTsdb → s.tsdb ++ s.pc.toTsdb = s.located

instance : DecidablePred Stored := fun s =>
  decidable_of_iff ((s.hasMongo → s.mongo ++ s.pc.toMongo = s.located) ∧
      (s.hasTsdb → s.tsdb ++ s.pc.toTsdb = s.located))
    ⟨fun h => ⟨h.1, h.2⟩, fun h => ⟨h.mongo, h.tsdb⟩⟩

/-- There is one lookup for every metric, but for the one that is being looked up. -/
def InStep (s : State) : Prop :=
  ∃ done, s.dequeued = done ++ s.pc.lookingUp ∧ done.length = s.lookups.length

/-- The lookup does not throw, or there is no database. -/
def Quiet (s : State) : Label → Prop
  | .lookup result => result = .threw → s.hasMongo = false ∧ s.hasTsdb = false
  | _ => True

variable {s t : State} {e : Label}

lemma InStep.length_eq (h : InStep s) (hpc : s.pc.lookingUp = []) :
    s.dequeued.length = s.lookups.length := by
  obtain ⟨done, hdequeued, hlength⟩ := h
  rw [hdequeued, hpc, List.append_nil, hlength]

/-- Steps that neither dequeue nor look up. -/
lemma InStep.congr (h : InStep s) (hdequeued : t.dequeued = s.dequeued)
    (hlookups : t.lookups = s.lookups) (hpc : t.pc.lookingUp = s.pc.lookingUp) : InStep t := by
  obtain ⟨done, hdone, hlength⟩ := h
  exact ⟨done, by rw [hdequeued, hpc, hdone], by rw [hlookups, hlength]⟩

lemma inStep_of_moves (h : InStep s) (hmoves : Moves s e t) : InStep t := by
  cases hmoves with
  | publish metric henabled => exact h
  | disabled metric => exact h
  | stop hfirst => exact h
  | start hpc => exact h.congr rfl rfl (by rw [hpc]; rfl)
  | test hpc => exact h.congr rfl rfl (by rw [hpc]; cases s.running <;> rfl)
  | scan hpc => exact h.congr rfl rfl (by rw [hpc]; rfl)
  | dequeue seen i m hpc hget => exact ⟨s.dequeued, rfl, h.length_eq (by rw [hpc]; rfl)⟩
  | miss hpc => exact h.congr rfl rfl (by rw [hpc]; rfl)
  | lookup metric result hpc =>
      obtain ⟨done, hdone, hlength⟩ := h
      rw [hpc] at hdone
      refine ⟨s.dequeued, ?_, ?_⟩
      · cases result <;> simp [Pc.lookingUp]
      · simp [hdone, hlength, Pc.lookingUp]
  | saveMongo metric fields hpc => exact h.congr rfl rfl (by rw [hpc]; rfl)
  | saveTsdb metric fields threw hpc => exact h.congr rfl rfl (by rw [hpc]; cases threw <;> rfl)
  | testSleep hpc => exact h.congr rfl rfl (by rw [hpc]; cases s.running <;> rfl)
  | wake hpc => exact h.congr rfl rfl (by rw [hpc]; rfl)

/-- A lookup adds the metric that it was for. -/
lemma located_lookup (h : InStep s) {metric : Metric} (hpc : s.pc = .acquire metric)
    (result : Lookup) :
    List.zipWith (fun metric result => (metric, Lookup.fields result)) s.dequeued
      (s.lookups ++ [result]) = s.located ++ [(metric, result.fields)] := by
  obtain ⟨done, hdone, hlength⟩ := h
  rw [hpc] at hdone
  have hlocated : s.located =
      List.zipWith (fun metric result => (metric, Lookup.fields result)) done s.lookups := by
    rw [State.located, hdone, ← List.append_nil s.lookups, List.zipWith_append hlength]
    simp
  rw [hlocated, hdone, List.zipWith_append hlength]
  rfl

/-- Steps that change neither what is stored nor what should be. -/
lemma Stored.congr (h : Stored s) (hconfig : t.config = s.config) (hmongo : t.mongo = s.mongo)
    (htsdb : t.tsdb = s.tsdb) (hlocated : t.located = s.located)
    (hpcMongo : t.pc.toMongo = s.pc.toMongo) (hpcTsdb : t.pc.toTsdb = s.pc.toTsdb) : Stored t := by
  constructor
  · intro hhas
    rw [hmongo, hpcMongo, hlocated]
    exact h.mongo (by rwa [State.hasMongo, ← hconfig])
  · intro hhas
    rw [htsdb, hpcTsdb, hlocated]
    exact h.tsdb (by rwa [State.hasTsdb, ← hconfig])

/-- A database that is up to date misses the next entry. -/
private lemma lost_iff {α : Type*} {has : Bool} {stored located : List α} {x : α}
    (h : has → stored = located) : (has → stored ++ [] = located ++ [x]) ↔ has = false := by
  cases has with
  | false => simp
  | true => simp [h rfl]

/-- **One step** of the poller loses a metric precisely if its lookup throws. -/
lemma stored_step_iff (hinv : InStep s) (h : Stored s) (hmoves : Moves s e t) :
    Stored t ↔ Quiet s e := by
  cases hmoves with
  | publish metric henabled => exact iff_of_true (h.congr rfl rfl rfl rfl rfl rfl) trivial
  | disabled metric => exact iff_of_true h trivial
  | stop hfirst => exact iff_of_true (h.congr rfl rfl rfl rfl rfl rfl) trivial
  | start hpc =>
      exact iff_of_true (h.congr rfl rfl rfl rfl (by rw [hpc]; rfl) (by rw [hpc]; rfl)) trivial
  | test hpc =>
      refine iff_of_true (h.congr rfl rfl rfl rfl ?_ ?_) trivial
      · rw [hpc]
        cases s.running <;> rfl
      · rw [hpc]
        cases s.running <;> rfl
  | scan hpc =>
      exact iff_of_true (h.congr rfl rfl rfl rfl (by rw [hpc]; rfl) (by rw [hpc]; rfl)) trivial
  | dequeue seen i m hpc hget =>
      have hlength := hinv.length_eq (by rw [hpc]; rfl)
      refine iff_of_true (h.congr rfl rfl rfl ?_ (by rw [hpc]; rfl) (by rw [hpc]; rfl)) trivial
      have hlookups : s.lookups = s.lookups ++ [] := (List.append_nil _).symm
      rw [State.located, State.located]
      dsimp only
      rw [hlookups, List.zipWith_append hlength]
      simp
  | miss hpc =>
      exact iff_of_true (h.congr rfl rfl rfl rfl (by rw [hpc]; rfl) (by rw [hpc]; rfl)) trivial
  | lookup metric result hpc =>
      have hlocated := located_lookup hinv hpc result
      have hmongo : s.hasMongo → s.mongo = s.located := by
        have := h.mongo
        rw [hpc] at this
        exact fun hhas => (List.append_nil _).symm.trans (this hhas)
      have htsdb : s.hasTsdb → s.tsdb = s.located := by
        have := h.tsdb
        rw [hpc] at this
        exact fun hhas => (List.append_nil _).symm.trans (this hhas)
      by_cases hthrew : result = .threw
      · -- the exception leaves the loop with the metric off the queue
        subst hthrew
        have hlostMongo := lost_iff (x := (metric, Lookup.fields .threw)) hmongo
        have hlostTsdb := lost_iff (x := (metric, Lookup.fields .threw)) htsdb
        rw [← hlocated] at hlostMongo hlostTsdb
        exact ⟨fun ht _ => ⟨hlostMongo.mp ht.mongo, hlostTsdb.mp ht.tsdb⟩,
          fun hquiet => ⟨hlostMongo.mpr (hquiet rfl).1, hlostTsdb.mpr (hquiet rfl).2⟩⟩
      · refine iff_of_true ?_ fun heq => absurd heq hthrew
        constructor
        · intro hhas
          dsimp only
          rw [if_neg hthrew, State.located, hlocated, hmongo hhas]
          rfl
        · intro hhas
          dsimp only
          rw [if_neg hthrew, State.located, hlocated, htsdb hhas]
          rfl
  | saveMongo metric fields hpc =>
      have hmongo := h.mongo
      have htsdb := h.tsdb
      rw [hpc] at hmongo htsdb
      refine iff_of_true ⟨fun hhas => ?_, htsdb⟩ trivial
      have hcall : (s.callMongo metric fields).mongo = s.mongo ++ [(metric, fields)] := if_pos hhas
      rw [hcall]
      exact (List.append_nil _).trans (hmongo hhas)
  | saveTsdb metric fields threw hpc =>
      have hmongo := h.mongo
      have htsdb := h.tsdb
      rw [hpc] at hmongo htsdb
      refine iff_of_true ⟨fun hhas => ?_, fun hhas => ?_⟩ trivial
      · cases threw <;> exact hmongo hhas
      · have hcall : (s.callTsdb metric fields threw).tsdb = s.tsdb ++ [(metric, fields)] :=
          if_pos hhas
        rw [hcall]
        cases threw <;> exact (List.append_nil _).trans (htsdb hhas)
  | testSleep hpc =>
      refine iff_of_true (h.congr rfl rfl rfl rfl ?_ ?_) trivial
      · rw [hpc]
        cases s.running <;> rfl
      · rw [hpc]
        cases s.running <;> rfl
  | wake hpc =>
      exact iff_of_true (h.congr rfl rfl rfl rfl (by rw [hpc]; rfl) (by rw [hpc]; rfl)) trivial

/-- **Every consumed metric is stored**, in every run in which no lookup throws, and in no other
run of a poller that has a database. -/
theorem stored_iff_quiet (config : MetricsConfiguration) (es : List Label) :
    PartialStep.Visits step Stored (start config) es ↔
      PartialStep.Along step Quiet (start config) es := by
  apply PartialStep.visits_iff_along (I := InStep)
  · exact fun _ _ _ hinv _ hstep _ => inStep_of_moves hinv (moves_of_step hstep)
  · exact fun _ _ _ hinv h hstep => stored_step_iff hinv h (moves_of_step hstep)
  · exact ⟨[], rfl, rfl⟩
  · exact ⟨fun _ => rfl, fun _ => rfl⟩

/-- A poller that stores metrics in MongoDB. -/
def mongoConfig : MetricsConfiguration := { mmdbHost := "mmdb", mongoUri := "mongodb://mongo" }

/-- The first connection cannot be opened: the metric is off the queue and goes nowhere. -/
theorem not_stored_of_threw :
    ¬ PartialStep.Visits step Stored (start mongoConfig)
      [.publish .sample, .start, .test, .scan, .dequeue 0, .lookup .threw] :=
  fun h => absurd (show Stored _ from
    (((((h.2 _ rfl).2 _ rfl).2 _ rfl).2 _ rfl).2 _ rfl).2 _ rfl) (by decide)

end Queue

end S3Proxy
