import S3Proxy.Client.Mmdb
import S3Proxy.Client.Pool

/-!
# MMDB connections in the pool

`Pool<MMDBConnection>` under its clients: they acquire a connection, look up any number of addresses
with it and drop the proxy, and the socket may fail at any point.  `release` asks `valid()`, which
reads a flag that nothing clears, and `socket()` connects again only if the socket has been closed,
which nothing does.  So a broken connection comes back from the pool unless there was no room for it
(`Overflows`).

## Main result

`restored_iff` is about both halves of what a pool promises after failures.  No idle connection is
ever broken (`Sound`), and every `acquire` with the service reachable gives a connection that can
complete a lookup (`Yields`), exactly if

* each broken connection is dropped while there is no room for it (`Overflows`), and
* each such `acquire` comes while the connections in use and the attempts that failed so far are
  fewer than `maxConnections` together (`Admits`).

The second is there because an attempt that fails has been counted and is never taken off again.
`counted` runs the pool with the number of these attempts beside it, and `counts_step` proves that
`total` is that number and the connections in use.

`sound_step_iff` decides the step for the first half, `yields_iff` and `yields_iff_admits` for the
second.  `Broken.fields` says that no lookup mends a connection.

## Hypotheses

None: any configuration, any run of acquires, lookups, drops and passes that remove idle
connections, whatever the socket and the service do.

## What it rests on

`Client.Pool` for the counts, and what no call changes in `Client.Mmdb`.  `Usable` is how a
connection looks from the side of the program, whether it is broken or not; it holds in every state
(`inv_step`).
-/

namespace S3Proxy

namespace Client

namespace Session

/-- One operation of a client, or of the monitor thread of the pool.  Proxies go by their
position. -/
inductive Use
  /-- `reachable` is whether a connection can be opened, should none be idle. -/
  | acquire (reachable : Bool) (now : TimePoint)
  /-- The `n`-th lookup of the run. -/
  | fields (i n : ℕ) (ip : Bytes) (io : Io)
  | drop (i : ℕ) (now : TimePoint)
  | expire (now : TimePoint)
  deriving DecidableEq

/-- `createMMDBPool`: a new connection, or an exception. -/
def createMMDBPool (reachable : Bool) : FactoryOutcome MMDBConnection :=
  if reachable then .returned {} else .threw

/-- `valid()` of the connection in a wrapper. -/
def valid (w : ConnectionWrapper MMDBConnection) : Bool := w.con.all MMDBConnection.v

def step : PartialStep (Program MMDBConnection) Use
  | s, .acquire reachable now =>
      match s.pool.acquire (createMMDBPool reachable) now with
      | (.proxy con, pool) => some ⟨pool, s.proxies ++ [con]⟩
      | (_, pool) => some { s with pool }
  | s, .fields i n ip io =>
      match s.proxies[i]? with
      | some ⟨some c, time⟩ =>
          match c.fields n ip io with
          | (some _, c) => some { s with proxies := s.proxies.set i ⟨some c, time⟩ }
          | (none, _) => none
      | _ => none
  | s, .drop i now =>
      s.proxies[i]?.map fun w =>
        { pool := if w.con.isSome then s.pool.release w (valid w) now else s.pool
          proxies := s.proxies.eraseIdx i }
  | s, .expire now => some { s with pool := s.pool.removeExpired now }

/-- The pool as `MMDBConnectionPool` sets it up. -/
def start (conf : Configuration) (now : TimePoint) : Program MMDBConnection :=
  ⟨.construct conf (fun _ => some {}) now, []⟩

/-- The connection has failed, and its socket will be used again. -/
def Broken (w : ConnectionWrapper MMDBConnection) : Prop :=
  ∃ c ∈ w.con, c.failed = true ∧ c.isOpen = true

instance (w : ConnectionWrapper MMDBConnection) : Decidable (Broken w) :=
  inferInstanceAs (Decidable (∃ c ∈ w.con, _))

/-- No idle connection is broken. -/
def Sound (s : Program MMDBConnection) : Prop := ∀ w ∈ s.pool.available, ¬ Broken w

instance : DecidablePred Sound := fun s =>
  inferInstanceAs (Decidable (∀ w ∈ s.pool.available, ¬ Broken w))

/-- If the socket sends the query and the service answers it, a lookup returns the answer. -/
def CompletesLookups (c : MMDBConnection) : Prop :=
  ∀ n query io osize, io.send = some (MMDBConnection.request query).length →
    Text.blankLine MMDBConnection.isLfByte io.arrived = some osize →
      (c.execute n query io).text =
        some (MMDBConnection.cleanUp ((MMDBConnection.got n io.arrived).take osize))

/-- With the service reachable, `acquire` gives a connection that can complete a lookup. -/
def Yields (s : Program MMDBConnection) : Use → Prop
  | .acquire true now => ∃ w c, (s.pool.acquire (createMMDBPool true) now).1 = .proxy w ∧
      w.con = some c ∧ ¬ Broken w ∧ CompletesLookups c
  | .acquire false _ | .fields .. | .drop .. | .expire _ => True

/-- A broken connection is dropped only while there is no room for it among the idle ones. -/
def Overflows (s : Program MMDBConnection) : Use → Prop
  | .drop i _ => ∀ w ∈ s.proxies[i]?, (∃ c ∈ w.con, c.failed = true) →
      s.pool.configuration.maxPoolSize.toNat ≤ s.pool.available.length
  | .acquire .. | .fields .. | .expire _ => True

/-- The operation tries to open a connection and cannot. -/
def Fails (s : Program MMDBConnection) : Use → Prop
  | .acquire reachable _ => s.pool.total < s.pool.configuration.maxConnections ∧
      s.pool.available = [] ∧ reachable = false
  | .fields .. | .drop .. | .expire _ => False

instance (s : Program MMDBConnection) : DecidablePred (Fails s) := fun use => by
  cases use <;> unfold Fails <;> infer_instance

/-- The operations, with the number of attempts to open a connection that have failed. -/
def counted : PartialStep (Program MMDBConnection × ℕ) Use
  | (s, failures), use =>
      (step s use).map fun t => (t, if Fails s use then failures + 1 else failures)

/-- With the service reachable, a connection is asked for only while fewer than `maxConnections` are
in use or were tried for in vain. -/
def Admits (s : Program MMDBConnection) (failures : ℕ) : Use → Prop
  | .acquire true _ => s.proxies.length + failures < s.pool.configuration.maxConnections.toNat
  | .acquire false _ | .fields .. | .drop .. | .expire _ => True

/-- As far as the program can tell, the connection is in order. -/
structure Usable (w : ConnectionWrapper MMDBConnection) (c : MMDBConnection) : Prop where
  con : w.con = some c
  v : c.v = true
  isOpen : c.isOpen = true
  buffer : c.failed = false → c.buffer = []

structure Inv (s : Program MMDBConnection) : Prop where
  available : ∀ w ∈ s.pool.available, ∃ c, Usable w c
  proxies : ∀ w ∈ s.proxies, ∃ c, Usable w c

/-- `total` counts what is in use and what was tried for in vain. -/
def Counts (s : Program MMDBConnection) (failures : ℕ) : Prop :=
  s.pool.total.toNat = s.proxies.length + failures

variable {s t : Program MMDBConnection} {use : Use}

/-! ### What each operation does -/

/-- A connection that is handed out was idle, or is new. -/
lemma acquire_cases (pool : Pool MMDBConnection) (reachable : Bool) (now : TimePoint) :
    (pool.acquire (createMMDBPool reachable) now).2.available ⊆ pool.available ∧
      ∀ w, (pool.acquire (createMMDBPool reachable) now).1 = .proxy w →
        w ∈ pool.available ∨ w = ⟨some {}, now⟩ := by
  by_cases hlimit : pool.total < pool.configuration.maxConnections
  · rw [Pool.acquire_of_lt hlimit, Pool.available_checkout]
    refine ⟨List.tail_subset _, fun w hw => ?_⟩
    rw [Pool.checkout] at hw
    cases hav : pool.available with
    | nil =>
        rw [hav] at hw
        cases reachable with
        | true =>
            cases hw
            exact .inr rfl
        | false => cases hw
    | cons con rest =>
        rw [hav] at hw
        cases hw
        exact .inl List.mem_cons_self
  · rw [Pool.acquire_of_not_lt hlimit]
    exact ⟨List.Subset.refl _, nofun⟩

lemma step_acquire {reachable : Bool} {now : TimePoint}
    (hstep : step s (.acquire reachable now) = some t) :
    t.pool = (s.pool.acquire (createMMDBPool reachable) now).2 ∧
      ∀ w ∈ t.proxies, w ∈ s.proxies ∨ w ∈ s.pool.available ∨ w = ⟨some {}, now⟩ := by
  have hcases := (acquire_cases s.pool reachable now).2
  rw [step] at hstep
  cases hacq : s.pool.acquire (createMMDBPool reachable) now with
  | mk r pool =>
      rw [hacq] at hstep hcases
      cases r with
      | proxy con =>
          have heq := Option.some.inj hstep
          subst heq
          refine ⟨rfl, fun w hw => ?_⟩
          rcases List.mem_append.mp hw with hw | hw
          · exact .inl hw
          · rw [List.mem_singleton.mp hw]
            exact .inr (hcases con rfl)
      | nullopt =>
          have heq := Option.some.inj hstep
          subst heq
          exact ⟨rfl, fun w hw => .inl hw⟩
      | threw =>
          have heq := Option.some.inj hstep
          subst heq
          exact ⟨rfl, fun w hw => .inl hw⟩

lemma step_fields {i n : ℕ} {ip : Bytes} {io : Io} (hstep : step s (.fields i n ip io) = some t) :
    ∃ c time, s.proxies[i]? = some ⟨some c, time⟩ ∧ t.pool = s.pool ∧
      t.proxies = s.proxies.set i ⟨some (c.execute n ip io).connection, time⟩ := by
  rw [step] at hstep
  split at hstep
  · rename_i c time hget
    split at hstep
    · rename_i props c' hfields
      have heq := Option.some.inj hstep
      subst heq
      refine ⟨c, time, hget, rfl, ?_⟩
      rw [← MMDBConnection.connection_fields, hfields]
    · cases hstep
  · cases hstep

lemma step_drop {i : ℕ} {now : TimePoint} (hstep : step s (.drop i now) = some t) :
    ∃ w, s.proxies[i]? = some w ∧ t.proxies = s.proxies.eraseIdx i ∧
      t.pool = if w.con.isSome then s.pool.release w (valid w) now else s.pool := by
  obtain ⟨w, hget, heq⟩ := Option.map_eq_some_iff.mp hstep
  subst heq
  exact ⟨w, hget, rfl, rfl⟩

lemma step_expire {now : TimePoint} (hstep : step s (.expire now) = some t) :
    t.pool.available ⊆ s.pool.available ∧ t.proxies = s.proxies := by
  have heq := Option.some.inj hstep
  subst heq
  exact ⟨(List.dropWhile_suffix _).subset, rfl⟩

/-! ### The invariant -/

lemma usable_new (now : TimePoint) : Usable ⟨some {}, now⟩ {} := ⟨rfl, rfl, rfl, fun _ => rfl⟩

variable {w : ConnectionWrapper MMDBConnection} {c : MMDBConnection}

lemma Usable.valid (h : Usable w c) : valid w = true := by
  rw [Session.valid, h.con]
  exact h.v

lemma Usable.isSome (h : Usable w c) : w.con.isSome := by
  rw [h.con]
  rfl

lemma Usable.broken_iff (h : Usable w c) : Broken w ↔ c.failed = true := by
  simp [Broken, h.con, h.isOpen]

/-- A connection that has not failed has nothing left over from the lookups before. -/
lemma Usable.completesLookups (h : Usable w c) (hfailed : c.failed = false) :
    CompletesLookups c := by
  intro n query io osize hsend hblank
  have hdrop : (MMDBConnection.request query).drop (MMDBConnection.request query).length = [] :=
    List.drop_length
  have hdrop' : (MMDBConnection.sent n query).drop (MMDBConnection.request query).length = [] := by
    rw [MMDBConnection.sent, ← List.map_drop, hdrop, List.map_nil]
  have hanswer := (MMDBConnection.execute_of_answer (n := n) h.isOpen (h.buffer hfailed) hsend
    (by rw [hdrop, List.nil_append, hblank])).1
  rw [hanswer, hdrop', List.nil_append]

/-- Whatever happens, every connection looks usable. -/
lemma inv_step (hinv : Inv s) (hstep : step s use = some t) : Inv t := by
  cases use with
  | acquire reachable now =>
      obtain ⟨hpool, hproxies⟩ := step_acquire hstep
      constructor
      · rw [hpool]
        exact fun w hw => hinv.available w ((acquire_cases s.pool reachable now).1 hw)
      · intro w hw
        rcases hproxies w hw with hw | hw | rfl
        · exact hinv.proxies w hw
        · exact hinv.available w hw
        · exact ⟨_, usable_new now⟩
  | fields i n ip io =>
      obtain ⟨c, time, hget, hpool, hproxies⟩ := step_fields hstep
      obtain ⟨c', hc⟩ := hinv.proxies _ (List.mem_of_getElem? hget)
      obtain rfl : c = c' := Option.some.inj hc.con
      constructor
      · rw [hpool]
        exact hinv.available
      · rw [hproxies]
        intro w hw
        rcases List.mem_or_eq_of_mem_set hw with hw | rfl
        · exact hinv.proxies w hw
        · exact ⟨_, rfl, (MMDBConnection.v_execute hc.isOpen).trans hc.v,
            MMDBConnection.isOpen_execute hc.isOpen, MMDBConnection.buffer_execute hc.isOpen⟩
  | drop i now =>
      obtain ⟨w, hget, hproxies, hpool⟩ := step_drop hstep
      obtain ⟨c, hc⟩ := hinv.proxies w (List.mem_of_getElem? hget)
      rw [if_pos hc.isSome] at hpool
      constructor
      · rw [hpool]
        intro w' hw'
        rcases Pool.available_release s.pool now w (valid w) with hrel | ⟨-, -, hrel⟩
        · rw [hrel] at hw'
          exact hinv.available w' hw'
        · rw [hrel] at hw'
          rcases List.mem_append.mp hw' with hw' | hw'
          · exact hinv.available w' hw'
          · rw [List.mem_singleton.mp hw']
            exact ⟨c, hc.con, hc.v, hc.isOpen, hc.buffer⟩
      · rw [hproxies]
        exact fun w' hw' => hinv.proxies w' (List.mem_of_mem_eraseIdx hw')
  | expire now =>
      obtain ⟨havailable, hproxies⟩ := step_expire hstep
      constructor
      · exact fun w hw => hinv.available w (havailable hw)
      · rw [hproxies]
        exact hinv.proxies

/-- **One step.**  The pool stays sound precisely if no broken connection finds room in it. -/
lemma sound_step_iff (hinv : Inv s) (hsound : Sound s) (hstep : step s use = some t) :
    Sound t ↔ Overflows s use := by
  cases use with
  | acquire reachable now =>
      obtain ⟨hpool, -⟩ := step_acquire hstep
      have ht : Sound t := by
        rw [Sound, hpool]
        exact fun w hw => hsound w ((acquire_cases s.pool reachable now).1 hw)
      simp [ht, Overflows]
  | fields i n ip io =>
      obtain ⟨c, time, -, hpool, -⟩ := step_fields hstep
      have ht : Sound t := by
        rw [Sound, hpool]
        exact hsound
      simp [ht, Overflows]
  | drop i now =>
      obtain ⟨w, hget, -, hpool⟩ := step_drop hstep
      obtain ⟨c, hc⟩ := hinv.proxies w (List.mem_of_getElem? hget)
      rw [if_pos hc.isSome, hc.valid] at hpool
      have hov : Overflows s (.drop i now) ↔ (c.failed = true →
          s.pool.configuration.maxPoolSize.toNat ≤ s.pool.available.length) := by
        simp [Overflows, hget, hc.con]
      rw [hov, Sound, hpool]
      by_cases hroom : s.pool.available.length < s.pool.configuration.maxPoolSize.toNat
      · rw [Pool.release_of_room hc.isSome hroom, List.forall_mem_append]
        have hbroken : Broken { w with time := now } ↔ c.failed = true := by
          simp [Broken, hc.con, hc.isOpen]
        simp only [List.forall_mem_singleton, hbroken, Nat.not_le.mpr hroom, imp_false]
        exact and_iff_right hsound
      · have hfull := Nat.not_lt.mp hroom
        rw [Pool.release_of_full hfull]
        exact ⟨fun _ _ => hfull, fun _ => hsound⟩
  | expire now =>
      have ht : Sound t := fun w hw => hsound w ((step_expire hstep).1 hw)
      simp [ht, Overflows]

/-- **One `acquire`** from a sound pool gives a connection that can complete a lookup precisely if
the pool is below its limit. -/
lemma yields_iff (hinv : Inv s) (hsound : Sound s) :
    Yields s use ↔
      ∀ now, use = .acquire true now → s.pool.total < s.pool.configuration.maxConnections := by
  cases use with
  | acquire reachable now =>
      cases reachable with
      | false => exact iff_of_true trivial nofun
      | true =>
          by_cases hlimit : s.pool.total < s.pool.configuration.maxConnections
          · refine iff_of_true ?_ fun _ _ => hlimit
            rw [Yields, Pool.acquire_of_lt hlimit, createMMDBPool, if_pos rfl,
              Pool.checkout_returned]
            cases hav : s.pool.available with
            | nil =>
                refine ⟨_, _, rfl, rfl, ?_, (usable_new now).completesLookups rfl⟩
                exact fun hbroken => Bool.false_ne_true ((usable_new now).broken_iff.mp hbroken)
            | cons w rest =>
                have hw : w ∈ s.pool.available := hav ▸ List.mem_cons_self
                obtain ⟨c, hc⟩ := hinv.available w hw
                have hbroken := hsound w hw
                refine ⟨w, c, rfl, hc.con, hbroken, hc.completesLookups ?_⟩
                rwa [hc.broken_iff, Bool.not_eq_true] at hbroken
          · refine iff_of_false ?_ fun h => hlimit (h now rfl)
            rintro ⟨w, c, hw, -⟩
            rw [Pool.acquire_of_not_lt hlimit] at hw
            cases hw
  | _ => exact iff_of_true trivial nofun

/-- **The count of the pool.**  What is in use has been counted, and so has every attempt to open a
connection that failed. -/
lemma counts_step {failures : ℕ} (hinv : Inv s) (hcounts : Counts s failures)
    (hstep : step s use = some t) :
    Counts t (if Fails s use then failures + 1 else failures) := by
  unfold Counts at hcounts ⊢
  cases use with
  | acquire reachable now =>
      rw [step] at hstep
      by_cases hlimit : s.pool.total < s.pool.configuration.maxConnections
      · have htotal : (s.pool.checkout (createMMDBPool reachable) now).2.total.toNat =
            s.pool.total.toNat + 1 := Pool.toNat_total_checkout hlimit
        rw [Pool.total_checkout] at htotal
        rw [Pool.acquire_of_lt hlimit, Pool.checkout] at hstep
        cases hav : s.pool.available with
        | nil =>
            rw [hav] at hstep
            cases reachable with
            | true =>
                have heq := Option.some.inj hstep
                subst heq
                rw [if_neg (by simp [Fails]), List.length_append, List.length_singleton]
                exact htotal.trans (by omega)
            | false =>
                have heq := Option.some.inj hstep
                subst heq
                rw [if_pos ⟨hlimit, hav, rfl⟩]
                exact htotal.trans (congrArg (· + 1) hcounts)
        | cons w rest =>
            rw [hav] at hstep
            have heq := Option.some.inj hstep
            subst heq
            rw [if_neg (by simp [Fails, hav]), List.length_append, List.length_singleton]
            exact htotal.trans (by omega)
      · rw [Pool.acquire_of_not_lt hlimit] at hstep
        have heq := Option.some.inj hstep
        subst heq
        rw [if_neg fun hfails => hlimit hfails.1]
        exact hcounts
  | fields i n ip io =>
      obtain ⟨c, time, -, hpool, hproxies⟩ := step_fields hstep
      have hfails : ¬ Fails s (.fields i n ip io) := id
      rw [if_neg hfails, hpool, hproxies, List.length_set]
      exact hcounts
  | drop i now =>
      obtain ⟨w, hget, hproxies, hpool⟩ := step_drop hstep
      obtain ⟨c, hc⟩ := hinv.proxies w (List.mem_of_getElem? hget)
      have hlt := (List.getElem?_eq_some_iff.mp hget).1
      have hfails : ¬ Fails s (.drop i now) := id
      rw [if_pos hc.isSome] at hpool
      rw [if_neg hfails, hpool, hproxies, Pool.toNat_total_release (by omega), hcounts,
        List.length_eraseIdx_of_lt hlt]
      omega
  | expire now =>
      have heq := Option.some.inj hstep
      subst heq
      have hfails : ¬ Fails s (.expire now) := id
      rw [if_neg hfails]
      exact hcounts

lemma yields_iff_admits {failures : ℕ} (hinv : Inv s) (hsound : Sound s)
    (hcounts : Counts s failures) : Yields s use ↔ Admits s failures use := by
  rw [yields_iff hinv hsound]
  cases use with
  | acquire reachable now =>
      cases reachable with
      | false => exact iff_of_true nofun trivial
      | true =>
          rw [Admits, ← hcounts, ← UInt32.lt_iff_toNat_lt]
          exact ⟨fun h => h now rfl, fun h _ _ => h⟩
  | _ => exact iff_of_true nofun trivial

/-- A broken connection stays broken, whatever is asked of it. -/
lemma Broken.fields {i n : ℕ} {ip : Bytes} {io : Io} {w : ConnectionWrapper MMDBConnection}
    (hw : Broken w) (hget : s.proxies[i]? = some w)
    (hstep : step s (.fields i n ip io) = some t) : ∃ w', t.proxies[i]? = some w' ∧ Broken w' := by
  obtain ⟨c, time, hget', -, hproxies⟩ := step_fields hstep
  rw [hget] at hget'
  cases hget'
  obtain ⟨c, hc, hfailed, hopen⟩ := hw
  cases hc
  refine ⟨⟨some (c.execute n ip io).connection, time⟩, ?_, ?_⟩
  · rw [hproxies, List.getElem?_set_self (List.getElem?_eq_some_iff.mp hget).1]
  · exact ⟨_, rfl, MMDBConnection.failed_execute hopen hfailed,
      MMDBConnection.isOpen_execute hopen⟩

/-! ### Runs -/

lemma available_start (conf : Configuration) (now : TimePoint) :
    ∀ w ∈ (start conf now).pool.available, w = ⟨some {}, now⟩ := by
  intro w hw
  obtain ⟨i, hi⟩ := (List.mem_ofFn' _ _).mp hw
  exact hi.symm

lemma inv_start (conf : Configuration) (now : TimePoint) : Inv (start conf now) := by
  constructor
  · intro w hw
    rw [available_start conf now w hw]
    exact ⟨_, usable_new now⟩
  · exact nofun

lemma sound_start (conf : Configuration) (now : TimePoint) : Sound (start conf now) := by
  intro w hw
  rw [available_start conf now w hw, (usable_new now).broken_iff]
  exact Bool.false_ne_true

lemma restored_iff_of_sound {uses : List Use} {failures : ℕ} (hinv : Inv s) (hsound : Sound s)
    (hcounts : Counts s failures) :
    PartialStep.Visits step Sound s uses ∧ PartialStep.Along step Yields s uses ↔
      PartialStep.Along counted (fun x use => Overflows x.1 use ∧ Admits x.1 x.2 use)
        (s, failures) uses := by
  induction uses generalizing s failures with
  | nil => exact ⟨fun _ => trivial, fun _ => ⟨hsound, trivial⟩⟩
  | cons use uses ih =>
      have hyields : Yields s use ↔ Admits s failures use := yields_iff_admits hinv hsound hcounts
      constructor
      · rintro ⟨⟨-, hvisits⟩, halong⟩ ⟨t, failures'⟩ hstep
        obtain ⟨u, hu, heq⟩ := Option.map_eq_some_iff.mp hstep
        cases heq
        have ht := hvisits _ hu
        obtain ⟨hyield, halong⟩ := halong _ hu
        exact ⟨⟨(sound_step_iff hinv hsound hu).mp ht.head, hyields.mp hyield⟩,
          (ih (inv_step hinv hu) ht.head (counts_step hinv hcounts hu)).mp ⟨ht, halong⟩⟩
      · intro halong
        have hrest : ∀ t, step s use = some t → (Overflows s use ∧ Admits s failures use) ∧
            PartialStep.Visits step Sound t uses ∧ PartialStep.Along step Yields t uses := by
          intro t ht
          obtain ⟨hallowed, halong⟩ := halong _ (Option.map_eq_some_iff.mpr ⟨t, ht, rfl⟩)
          have hsound' := (sound_step_iff hinv hsound ht).mpr hallowed.1
          exact ⟨hallowed, (ih (inv_step hinv ht) hsound' (counts_step hinv hcounts ht)).mpr halong⟩
        exact ⟨⟨hsound, fun t ht => (hrest t ht).2.1⟩,
          fun t ht => ⟨hyields.mpr (hrest t ht).1.2, (hrest t ht).2.2⟩⟩

/-- **Broken connections come back from the pool**, and attempts that failed use it up.  No idle
connection is ever broken and every `acquire` gives one that can complete a lookup, once the service
is reachable, precisely if every connection that has failed is dropped while there is no room, and
those in use and the attempts that have failed by then are always below the limit. -/
theorem restored_iff (conf : Configuration) (now : TimePoint) (uses : List Use) :
    PartialStep.Visits step Sound (start conf now) uses ∧
        PartialStep.Along step Yields (start conf now) uses ↔
      PartialStep.Along counted (fun x use => Overflows x.1 use ∧ Admits x.1 x.2 use)
        (start conf now, 0) uses :=
  restored_iff_of_sound (inv_start conf now) (sound_start conf now) rfl

/-- A send fails, and the connection is the next one to be handed out. -/
theorem not_restored_of_send_threw :
    ¬ (PartialStep.Visits step Sound (start {} 0)
        [.acquire true 0, .fields 0 0 (bytesOf "1.1.1.1") { send := none, arrived := [] },
          .drop 0 0, .acquire true 0] ∧
      PartialStep.Along step Yields (start {} 0)
        [.acquire true 0, .fields 0 0 (bytesOf "1.1.1.1") { send := none, arrived := [] },
          .drop 0 0, .acquire true 0]) :=
  fun h => absurd (show Sound _ from (((h.1.2 _ rfl).2 _ rfl).2 _ rfl).1) (by decide)

end Session

end Client

end S3Proxy
