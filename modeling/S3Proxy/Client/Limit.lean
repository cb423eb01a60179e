import S3Proxy.Client.Pool
import Mathlib.Data.Fintype.Card

/-!
# The connection limit

Clients acquire and release connections concurrently.  `acquire` tests `total` against the limit
before it takes the mutex, so the test and `checkout` are two steps, and other clients may come in
between; `release` is one step.  The factory always succeeds here.

## Main result

`withinLimits_iff_belowLimit`: the numbers of connections checked out and idle stay within the
limits throughout a run exactly if every `checkout` still finds `total` below the limit
(`BelowLimit`).  The number of idle connections is bounded in any case (`Inv.idle_step`), since
`release` tests it under the mutex.

`checkedOut` counts the clients that hold a connection.  The invariant `Inv` says that `total` is
this number, that clients hold real connections, and that the idle ones are few enough; `step_cases`
is what any step does to these numbers, and `withinLimits_step_iff` decides the step.

## Hypotheses

The factory always returns a connection; what a failing one does to `total` is the subject of
`Client.Pool` and `Client.Session`.  There are finitely many clients, as many as one likes, and the
condition on a step is the code's own test, made again where it counts.

## What it rests on

The lemmas of `Client.Pool` about `checkout` and `release`, in particular that below the limit the
count does not wrap around, and the exact rule for runs in `Library.Run`.
`not_withinLimits_of_race` is the run in which two clients test before either of them takes the
mutex.
-/

namespace S3Proxy

namespace Client

namespace Limit

/-- Where a client is. -/
inductive Pc (Connection : Type*)
  | idle
  /-- Behind the test against the limit, before the mutex. -/
  | tested
  | holding (con : ConnectionWrapper Connection)
  deriving DecidableEq

def Pc.isHolding {Connection : Type*} : Pc Connection → Bool
  | .holding _ => true
  | .idle | .tested => false

structure State (ι Connection : Type*) where
  pool : Pool Connection
  pc : ι → Pc Connection

inductive Label (ι Connection : Type*)
  | test (i : ι)
  /-- The locked part of `acquire`; `c` is what the factory makes if it is asked. -/
  | checkout (i : ι) (c : Connection) (now : TimePoint)
  | release (i : ι) (valid : Bool) (now : TimePoint)
  | expire (now : TimePoint)

variable {ι Connection : Type*} [Fintype ι] [DecidableEq ι]

def step : PartialStep (State ι Connection) (Label ι Connection)
  | s, .test i =>
      match s.pc i with
      | .idle =>
          if s.pool.total ≥ s.pool.configuration.maxConnections then some s
          else some { s with pc := Function.update s.pc i .tested }
      | _ => none
  | s, .checkout i c now =>
      match s.pc i, s.pool.checkout (.returned c) now with
      | .tested, (.proxy con, pool) => some ⟨pool, Function.update s.pc i (.holding con)⟩
      | _, _ => none
  | s, .release i valid now =>
      match s.pc i with
      | .holding con => some ⟨if con.con.isSome then s.pool.release con valid now else s.pool,
          Function.update s.pc i .idle⟩
      | _ => none
  | s, .expire now => some { s with pool := s.pool.removeExpired now }

/-- The number of connections that are checked out. -/
def checkedOut (s : State ι Connection) : ℕ := (Finset.univ.filter fun i => (s.pc i).isHolding).card

/-- The limits that the configuration sets. -/
structure WithinLimits (s : State ι Connection) : Prop where
  connections : checkedOut s ≤ s.pool.configuration.maxConnections.toNat
  idle : s.pool.inactive ≤
    max s.pool.configuration.maxPoolSize.toNat s.pool.configuration.initialSize.toNat

/-- A `checkout` finds the count still below the limit. -/
def BelowLimit (s : State ι Connection) : Label ι Connection → Prop
  | .checkout .. => s.pool.total < s.pool.configuration.maxConnections
  | .test _ | .release .. | .expire _ => True

/-- What links the pool to its clients; no connection is null. -/
structure Inv (s : State ι Connection) : Prop where
  total : s.pool.total.toNat = checkedOut s
  idle : s.pool.inactive ≤
    max s.pool.configuration.maxPoolSize.toNat s.pool.configuration.initialSize.toNat
  available : ∀ con ∈ s.pool.available, con.con.isSome
  held : ∀ i con, s.pc i = .holding con → con.con.isSome

variable {s t : State ι Connection} {i : ι} {q : Pc Connection}

/-! ### Counting -/

lemma checkedOut_update_of_eq {pool : Pool Connection} (h : q.isHolding = (s.pc i).isHolding) :
    checkedOut ⟨pool, Function.update s.pc i q⟩ = checkedOut s := by
  have hfilter : ∀ j, (Function.update s.pc i q j).isHolding = (s.pc j).isHolding := by
    intro j
    by_cases hj : j = i
    · subst hj
      rw [Function.update_self, h]
    · rw [Function.update_of_ne hj]
  simp only [checkedOut, hfilter]

/-- A client that starts to hold a connection counts for one more. -/
lemma checkedOut_update_holding {pool : Pool Connection} (hq : q.isHolding = true)
    (hi : (s.pc i).isHolding = false) :
    checkedOut ⟨pool, Function.update s.pc i q⟩ = checkedOut s + 1 := by
  have hset : (Finset.univ.filter fun j => (Function.update s.pc i q j).isHolding) =
      insert i (Finset.univ.filter fun j => (s.pc j).isHolding) := by
    ext j
    by_cases hj : j = i
    · subst hj
      simp [hq]
    · simp [hj]
  rw [checkedOut, hset, Finset.card_insert_of_notMem (by simp [hi]), checkedOut]

/-- A client that gives its connection back counts for one less. -/
lemma checkedOut_update_idle {pool : Pool Connection} (hq : q.isHolding = false)
    (hi : (s.pc i).isHolding = true) :
    checkedOut ⟨pool, Function.update s.pc i q⟩ + 1 = checkedOut s := by
  have hset : (Finset.univ.filter fun j => (Function.update s.pc i q j).isHolding) =
      (Finset.univ.filter fun j => (s.pc j).isHolding).erase i := by
    ext j
    by_cases hj : j = i
    · subst hj
      simp [hq]
    · simp [hj]
  rw [checkedOut, hset, Finset.card_erase_add_one (by simp [hi]), checkedOut]

/-! ### One step -/

/-- What a step does, with a factory that succeeds. -/
lemma step_cases {e : Label ι Connection} (hinv : Inv s) (hstep : step s e = some t) :
    (∃ i, e = .test i ∧ t.pool = s.pool ∧ checkedOut t = checkedOut s ∧
      ∀ j con, t.pc j = .holding con → s.pc j = .holding con) ∨
    (∃ i c now con, e = .checkout i c now ∧
      t = ⟨(s.pool.checkout (.returned c) now).2, Function.update s.pc i (.holding con)⟩ ∧
      con.con.isSome ∧ checkedOut t = checkedOut s + 1) ∨
    (∃ i valid now con, e = .release i valid now ∧
      t = ⟨s.pool.release con valid now, Function.update s.pc i .idle⟩ ∧
      checkedOut t + 1 = checkedOut s) ∨
    ∃ now, e = .expire now ∧ t = { s with pool := s.pool.removeExpired now } := by
  cases e with
  | test i =>
      refine .inl ⟨i, rfl, ?_⟩
      rw [step] at hstep
      cases hpc : s.pc i with
      | idle =>
          simp only [hpc] at hstep
          split_ifs at hstep
          · have heq := Option.some.inj hstep
            subst heq
            exact ⟨rfl, rfl, fun _ _ => id⟩
          · have heq := Option.some.inj hstep
            subst heq
            have hholding := (congrArg Pc.isHolding hpc).symm
            refine ⟨rfl, checkedOut_update_of_eq hholding, fun j con hj => ?_⟩
            by_cases hji : j = i
            · subst hji
              simp at hj
            · simpa [Function.update_of_ne hji] using hj
      | tested | holding _ => simp [hpc] at hstep
  | checkout i c now =>
      have hcheckout : s.pool.checkout (.returned c) now =
          (.proxy (s.pool.available.head?.getD ⟨some c, now⟩),
            (s.pool.checkout (.returned c) now).2) :=
        Prod.ext (Pool.checkout_returned c) rfl
      cases hpc : s.pc i with
      | tested =>
          rw [step, hpc, hcheckout] at hstep
          have heq := Option.some.inj hstep
          subst heq
          refine .inr (.inl ⟨i, c, now, _, rfl, rfl, ?_,
            checkedOut_update_holding rfl (congrArg Pc.isHolding hpc)⟩)
          cases hav : s.pool.available with
          | nil => rfl
          | cons con rest => exact hinv.available con (by rw [hav]; exact List.mem_cons_self)
      | idle | holding _ => rw [step, hpc] at hstep; cases hstep
  | release i valid now =>
      cases hpc : s.pc i with
      | holding con =>
          rw [step, hpc] at hstep
          simp only [hinv.held i con hpc, if_true, Option.some.injEq] at hstep
          exact .inr (.inr (.inl ⟨i, valid, now, con, rfl, hstep.symm,
            hstep ▸ checkedOut_update_idle rfl (congrArg Pc.isHolding hpc)⟩))
      | idle | tested => rw [step, hpc] at hstep; cases hstep
  | expire now => exact .inr (.inr (.inr ⟨now, rfl, (Option.some.inj hstep).symm⟩))

/-- The configuration is never changed, and the idle connections stay within their limit. -/
lemma Inv.idle_step {e : Label ι Connection} (h : Inv s) (hstep : step s e = some t) :
    t.pool.configuration = s.pool.configuration ∧ t.pool.inactive ≤
      max t.pool.configuration.maxPoolSize.toNat t.pool.configuration.initialSize.toNat := by
  have hidle := h.idle
  obtain ⟨i, rfl, hpool, -⟩ | ⟨i, c, now, con, rfl, rfl, -⟩ | ⟨i, valid, now, con, rfl, rfl, -⟩ |
    ⟨now, rfl, rfl⟩ := step_cases h hstep
  · rw [hpool]
    exact ⟨rfl, hidle⟩
  · refine ⟨Pool.configuration_checkout, ?_⟩
    rw [Pool.configuration_checkout, Pool.inactive, Pool.available_checkout, List.length_tail]
    exact (Nat.sub_le _ _).trans hidle
  · refine ⟨Pool.configuration_release, ?_⟩
    rw [Pool.configuration_release, Pool.inactive]
    rcases s.pool.available_release now con valid with hav | ⟨hroom, -, hav⟩
    · rw [hav]
      exact hidle
    · rw [hav, List.length_append, List.length_singleton]
      exact le_max_of_le_left hroom
  · exact ⟨rfl, (List.dropWhile_sublist _).length_le.trans hidle⟩

/-- **One step** from within the limits stays there precisely if a `checkout` finds the count below
the limit. -/
lemma withinLimits_step_iff {e : Label ι Connection} (h : Inv s) (hs : WithinLimits s)
    (hstep : step s e = some t) : WithinLimits t ↔ BelowLimit s e := by
  obtain ⟨hconf, hidle⟩ := h.idle_step hstep
  have hconnections := hs.connections
  have hiff : WithinLimits t ↔ checkedOut t ≤ s.pool.configuration.maxConnections.toNat :=
    ⟨fun ht => hconf ▸ ht.connections, fun ht => ⟨hconf ▸ ht, hidle⟩⟩
  rw [hiff]
  obtain ⟨i, rfl, -, hcount, -⟩ | ⟨i, c, now, con, rfl, -, -, hcount⟩ |
    ⟨i, valid, now, con, rfl, -, hcount⟩ | ⟨now, rfl, rfl⟩ := step_cases h hstep
  · rw [hcount]
    exact ⟨fun _ => trivial, fun _ => hconnections⟩
  · rw [hcount, BelowLimit, UInt32.lt_iff_toNat_lt, h.total]
    exact Iff.rfl
  · exact ⟨fun _ => trivial, fun _ => by omega⟩
  · exact ⟨fun _ => trivial, fun _ => hconnections⟩

/-- A step that stays within the limits keeps the pool and its clients in step. -/
lemma Inv.step {e : Label ι Connection} (h : Inv s) (hs : WithinLimits s)
    (hstep : Limit.step s e = some t) (ht : WithinLimits t) : Inv t := by
  have hbelow := (withinLimits_step_iff h hs hstep).mp ht
  have hidle := (h.idle_step hstep).2
  obtain ⟨i, rfl, hpool, hcount, hheld⟩ | ⟨i, c, now, con, rfl, rfl, hcon, hcount⟩ |
    ⟨i, valid, now, con, rfl, rfl, hcount⟩ | ⟨now, rfl, rfl⟩ := step_cases h hstep
  · exact ⟨by rw [hpool, hcount, h.total], hidle, by rw [hpool]; exact h.available,
      fun j con hj => h.held j con (hheld j con hj)⟩
  · refine ⟨?_, hidle, fun w hw => ?_, fun j w hj => ?_⟩
    · rw [hcount, ← h.total]
      exact Pool.toNat_total_checkout hbelow
    · rw [Pool.available_checkout] at hw
      exact h.available w (List.mem_of_mem_tail hw)
    · by_cases hji : j = i
      · subst hji
        have heq : con = w := by simpa using hj
        subst heq
        exact hcon
      · exact h.held j w (by simpa [Function.update_of_ne hji] using hj)
  · refine ⟨?_, hidle, fun w hw => ?_, fun j w hj => ?_⟩
    · rw [Pool.toNat_total_release (by rw [h.total]; omega), h.total]
      omega
    · rcases s.pool.available_release now con valid with hav | ⟨-, hcon, hav⟩
      · exact h.available w (hav ▸ hw)
      · rw [hav, List.mem_append, List.mem_singleton] at hw
        rcases hw with hw | rfl
        · exact h.available w hw
        · exact hcon
    · by_cases hji : j = i
      · subst hji
        simp at hj
      · exact h.held j w (by simpa [Function.update_of_ne hji] using hj)
  · exact ⟨h.total, hidle, fun w hw => h.available w (List.dropWhile_subset _ hw), h.held⟩

/-! ### Runs -/

/-- A pool as its constructor leaves it, with all clients idle. -/
def start (conf : Configuration) (c : Fin conf.initialSize.toNat → Connection) (now : TimePoint) :
    State ι Connection :=
  ⟨.construct conf (fun i => some (c i)) now, fun _ => .idle⟩

omit [DecidableEq ι] in
lemma inv_start (conf : Configuration) (c : Fin conf.initialSize.toNat → Connection)
    (now : TimePoint) : Inv (start conf c now : State ι Connection) := by
  refine ⟨?_, ?_, fun w hw => ?_, fun i con hi => by cases hi⟩
  · simp [start, Pool.construct, checkedOut, Pc.isHolding]
  · simp [start, Pool.construct, Pool.inactive]
  · obtain ⟨i, rfl⟩ := List.mem_ofFn.mp hw
    rfl

/-- **The connection limit.**  With a factory that always succeeds, the numbers of connections
checked out and idle stay within the limits throughout a run precisely if every `checkout` finds
the count still below `maxConnections`. -/
theorem withinLimits_iff_belowLimit (conf : Configuration)
    (c : Fin conf.initialSize.toNat → Connection) (now : TimePoint)
    (es : List (Label ι Connection)) :
    PartialStep.Visits step WithinLimits (start conf c now) es ↔
      PartialStep.Along step BelowLimit (start conf c now) es := by
  have hinv := inv_start (ι := ι) conf c now
  refine PartialStep.visits_iff_along (fun _ _ _ hs hQ hstep ht => Inv.step hs hQ hstep ht)
    (fun _ _ _ hs hQ hstep => withinLimits_step_iff hs hQ hstep) hinv ⟨?_, hinv.idle⟩
  simp [start, checkedOut, Pc.isHolding]

/-- Two clients test the limit of one connection before either of them takes the mutex. -/
theorem not_withinLimits_of_race :
    ¬ PartialStep.Visits step WithinLimits
      (start { initialSize := 1, maxConnections := 1 } (fun _ => 0) 0 : State (Fin 2) ℕ)
      [.test 0, .test 1, .checkout 0 1 0, .checkout 1 2 0] := by
  intro h
  have hlast := ((h.2 _ rfl).2 _ rfl).2 _ rfl
  exact absurd (show WithinLimits _ from hlast.2 _ rfl).connections (by decide)

end Limit

end Client

end S3Proxy
