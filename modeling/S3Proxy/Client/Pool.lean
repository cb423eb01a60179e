import S3Proxy.Library.Run
import S3Proxy.Model.Configuration

/-!
# The connection pool

`Pool` hands out connections wrapped in a `Proxy`, whose destructor gives the connection back.
`total` counts the connections handed out, in 32 bits.  `checkout` is the part of `acquire` that
runs under the mutex, behind the test against the limit.

The second half runs a program on the pool: proxies are acquired, moved, assigned and destroyed in
any order.

## Main result

`exact_iff_not_leaks`: a run counts the connections held by live proxies correctly after each step
exactly if none of its steps `Leaks`.  There are two ways to leak: an `acquire` below the limit that
gets no connection, because the factory throws or makes none or because the first idle one is null,
and a proxy that holds a connection and is overwritten.

`exact_step_iff` decides the step, by the lemmas `held_acquire`, `held_moveConstruct`,
`held_moveAssign` and `held_destroy` about the number of connections held.  What exactness is good
for is said at the end: with every proxy gone the count is zero (`Exact.active_eq_zero`), and a
`release` does not let it wrap around (`Exact.total_pos`).

## Hypotheses

None: any connections, any factory, any number of threads as far as each operation is one step.

## Where it is used

`Client.Limit` takes `acquire` apart into the test and `checkout`, `Client.Expiry` has the thread
that removes idle connections, and `Client.Session` the pool of connections to the MMDB service.
Each of them uses the lemmas about the fields of the pool from the first half.
-/

namespace S3Proxy

namespace Client

structure Configuration where
  initialSize : UInt32 := 1
  maxPoolSize : UInt32 := 25
  maxConnections : UInt32 := 100
  /-- In seconds. -/
  maxIdleTime : ℤ := 300
  deriving DecidableEq, Repr

/-- A connection, or what is left of one that was moved away. -/
structure ConnectionWrapper (Connection : Type*) where
  con : Option Connection
  time : TimePoint
  deriving DecidableEq

/-- What one call of the factory does. -/
inductive FactoryOutcome (Connection : Type*)
  | returned (c : Connection)
  | null
  | threw
  deriving DecidableEq

/-- What `acquire` returns. -/
inductive Acquired (Connection : Type*)
  | nullopt
  | proxy (con : ConnectionWrapper Connection)
  | threw
  deriving DecidableEq

/-- The number of connections it carries. -/
def Acquired.connections {Connection : Type*} : Acquired Connection → ℕ
  | .proxy c => if c.con.isSome then 1 else 0
  | .nullopt | .threw => 0

structure Pool (Connection : Type*) where
  configuration : Configuration
  available : List (ConnectionWrapper Connection)
  total : UInt32 := 0
  created : UInt32 := 0
  deriving DecidableEq

namespace Pool

variable {Connection : Type*}

/-- The constructor; the factory may return null, and if it throws there is no pool. -/
def construct (conf : Configuration) (c : Fin conf.initialSize.toNat → Option Connection)
    (now : TimePoint) : Pool Connection where
  configuration := conf
  available := List.ofFn fun i => ⟨c i, now⟩
  created := conf.initialSize

def active (pool : Pool Connection) : UInt32 := pool.total

def inactive (pool : Pool Connection) : ℕ := pool.available.length

/-- `acquire` behind the test against the limit. -/
def checkout (pool : Pool Connection) (creator : FactoryOutcome Connection) (now : TimePoint) :
    Acquired Connection × Pool Connection :=
  let pool := { pool with total := pool.total + 1 }
  match pool.available with
  | [] =>
      let pool := { pool with created := pool.created + 1 }
      match creator with
      | .returned c => (.proxy ⟨some c, now⟩, pool)
      | .null => (.proxy ⟨none, now⟩, pool)
      | .threw => (.threw, pool)
  | con :: available => (.proxy con, { pool with available })

def acquire (pool : Pool Connection) (creator : FactoryOutcome Connection) (now : TimePoint) :
    Acquired Connection × Pool Connection :=
  if pool.total ≥ pool.configuration.maxConnections then (.nullopt, pool)
  else pool.checkout creator now

def release (pool : Pool Connection) (c : ConnectionWrapper Connection) (valid : Bool)
    (now : TimePoint) : Pool Connection :=
  let pool := { pool with total := pool.total - 1 }
  if c.con.isNone || !valid then pool
  else if pool.available.length < pool.configuration.maxPoolSize.toNat then
    { pool with available := pool.available ++ [{ c with time := now }] }
  else pool

/-- `removeExpired`: from the front, up to the first connection that has not been idle for
long. -/
def removeExpired (pool : Pool Connection) (now : TimePoint) : Pool Connection :=
  { pool with available := pool.available.dropWhile fun c =>
      pool.configuration.maxIdleTime ≤ (now - c.time).tdiv (seconds 1) }

variable {pool pool' : Pool Connection} {creator : FactoryOutcome Connection} {now : TimePoint}
  {c : ConnectionWrapper Connection} {valid : Bool} {r : Acquired Connection}

@[simp] lemma configuration_checkout :
    (pool.checkout creator now).2.configuration = pool.configuration := by
  unfold checkout
  cases pool.available <;> cases creator <;> rfl

@[simp] lemma total_checkout : (pool.checkout creator now).2.total = pool.total + 1 := by
  unfold checkout
  cases pool.available <;> cases creator <;> rfl

@[simp] lemma configuration_release :
    (pool.release c valid now).configuration = pool.configuration := by
  unfold release
  dsimp only
  split_ifs <;> rfl

@[simp] lemma total_release : (pool.release c valid now).total = pool.total - 1 := by
  unfold release
  dsimp only
  split_ifs <;> rfl

@[simp] lemma available_checkout :
    (pool.checkout creator now).2.available = pool.available.tail := by
  unfold checkout
  cases pool.available <;> cases creator <;> rfl

/-- With a factory that succeeds there is always a connection. -/
lemma checkout_returned (con : Connection) :
    (pool.checkout (.returned con) now).1 = .proxy (pool.available.head?.getD ⟨some con, now⟩) := by
  unfold checkout
  cases pool.available <;> rfl

variable (pool c valid now) in
/-- A connection that is given back becomes idle, unless it is broken or there is no room. -/
lemma available_release : (pool.release c valid now).available = pool.available ∨
    pool.available.length < pool.configuration.maxPoolSize.toNat ∧ c.con.isSome ∧
      (pool.release c valid now).available = pool.available ++ [{ c with time := now }] := by
  unfold release
  dsimp only
  split_ifs with hgone hroom
  · exact .inl rfl
  · refine .inr ⟨hroom, ?_, rfl⟩
    rw [Bool.or_eq_true, not_or, Option.isNone_iff_eq_none] at hgone
    exact Option.isSome_iff_ne_none.mpr hgone.1
  · exact .inl rfl

lemma release_of_room (hcon : c.con.isSome)
    (hroom : pool.available.length < pool.configuration.maxPoolSize.toNat) :
    (pool.release c true now).available = pool.available ++ [{ c with time := now }] := by
  have hgone : ¬ (c.con.isNone || !true) = true := by
    simpa using Option.isSome_iff_ne_none.mp hcon
  unfold release
  dsimp only
  rw [if_neg hgone, if_pos hroom]

lemma release_of_full
    (hfull : pool.configuration.maxPoolSize.toNat ≤ pool.available.length) :
    (pool.release c valid now).available = pool.available := by
  unfold release
  dsimp only
  rw [if_neg (Nat.not_lt.mpr hfull), ite_self]

lemma acquire_of_lt (h : pool.total < pool.configuration.maxConnections) :
    pool.acquire creator now = pool.checkout creator now :=
  if_neg (UInt32.not_le.mpr h)

lemma acquire_of_not_lt (h : ¬ pool.total < pool.configuration.maxConnections) :
    pool.acquire creator now = (.nullopt, pool) :=
  if_pos (UInt32.not_lt.mp h)

/-- Below the limit the count does not wrap around. -/
lemma toNat_total_checkout (h : pool.total < pool.configuration.maxConnections) :
    (pool.checkout creator now).2.total.toNat = pool.total.toNat + 1 := by
  have hmax := pool.configuration.maxConnections.toNat_lt
  have hlt := UInt32.lt_iff_toNat_lt.mp h
  rw [total_checkout, UInt32.toNat_add, UInt32.toNat_one]
  omega

/-- With a connection handed out the count does not wrap around. -/
lemma toNat_total_release (h : 0 < pool.total.toNat) :
    (pool.release c valid now).total.toNat = pool.total.toNat - 1 := by
  have hle : 1 ≤ pool.total := UInt32.le_iff_toNat_le.mpr (by rwa [UInt32.toNat_one])
  rw [total_release, UInt32.toNat_sub_of_le _ _ hle, UInt32.toNat_one]

/-- Behind the test against the limit there is no connection to be had: none is idle and the
factory makes none, or the first idle one is null. -/
def Short (pool : Pool Connection) (creator : FactoryOutcome Connection) : Prop :=
  match pool.available with
  | [] => ∀ c, creator ≠ .returned c
  | con :: _ => con.con = none

lemma connections_checkout_of_short (h : pool.Short creator) :
    (pool.checkout creator now).1.connections = 0 := by
  unfold Short at h
  unfold checkout
  cases hav : pool.available with
  | nil =>
      rw [hav] at h
      cases creator with
      | returned c => exact absurd rfl (h c)
      | null => rfl
      | threw => rfl
  | cons con rest =>
      rw [hav] at h
      simp only [Acquired.connections, h]
      rfl

lemma connections_checkout_of_not_short (h : ¬ pool.Short creator) :
    (pool.checkout creator now).1.connections = 1 := by
  unfold Short at h
  unfold checkout
  cases hav : pool.available with
  | nil =>
      rw [hav] at h
      cases creator with
      | returned c => rfl
      | null => exact absurd (fun c => nofun) h
      | threw => exact absurd (fun c => nofun) h
  | cons con rest =>
      rw [hav] at h
      exact if_pos (Option.isSome_iff_ne_none.mpr h)

end Pool

/-! ### Programs that use the pool -/

/-- A pool with the proxies that are alive. -/
structure Program (Connection : Type*) where
  pool : Pool Connection
  proxies : List (ConnectionWrapper Connection)
  deriving DecidableEq

/-- One operation; proxies go by their position. -/
inductive Op (Connection : Type*)
  | acquire (creator : FactoryOutcome Connection) (now : TimePoint)
  | moveConstruct (src : ℕ)
  | moveAssign (dst src : ℕ)
  | destroy (i : ℕ) (valid : Bool) (now : TimePoint)
  | expire (now : TimePoint)
  deriving DecidableEq

namespace Program

variable {Connection : Type*}

def step : PartialStep (Program Connection) (Op Connection)
  | s, .acquire creator now =>
      match s.pool.acquire creator now with
      | (.proxy con, pool) => some ⟨pool, s.proxies ++ [con]⟩
      | (_, pool) => some { s with pool }
  | s, .moveConstruct src =>
      s.proxies[src]?.map fun c =>
        { s with proxies := s.proxies.set src { c with con := none } ++ [c] }
  | s, .moveAssign dst src =>
      match s.proxies[dst]?, s.proxies[src]? with
      | some _, some c =>
          -- a `unique_ptr` survives being moved onto itself
          if dst = src then some s
          else some { s with proxies := (s.proxies.set dst c).set src { c with con := none } }
      | _, _ => none
  | s, .destroy i valid now =>
      s.proxies[i]?.map fun c =>
        { pool := if c.con.isSome then s.pool.release c valid now else s.pool
          proxies := s.proxies.eraseIdx i }
  | s, .expire now => some { s with pool := s.pool.removeExpired now }

/-- The number of connections that live proxies hold. -/
def held (s : Program Connection) : ℕ := s.proxies.countP fun c => c.con.isSome

/-- The pool counts the connections that live proxies hold. -/
def Exact (s : Program Connection) : Prop := s.pool.active.toNat = s.held

instance : DecidablePred (@Exact Connection) := fun _ =>
  inferInstanceAs (Decidable (_ = _))

/-- The step loses a connection: an `acquire` below the limit gets none, or a proxy that holds one
is overwritten. -/
def Leaks (s : Program Connection) : Op Connection → Prop
  | .acquire creator _ =>
      s.pool.total < s.pool.configuration.maxConnections ∧ s.pool.Short creator
  | .moveAssign dst src => dst ≠ src ∧ ∃ c ∈ s.proxies[dst]?, c.con.isSome
  | .moveConstruct _ | .destroy .. | .expire _ => False

variable {s t : Program Connection} {op : Op Connection}

/-! ### Counting -/

/-- An `acquire` adds the connections that it returns. -/
lemma held_acquire {creator : FactoryOutcome Connection} {now : TimePoint}
    (hstep : step s (.acquire creator now) = some t) :
    t.pool = (s.pool.acquire creator now).2 ∧
      t.held = s.held + (s.pool.acquire creator now).1.connections := by
  rw [step] at hstep
  cases hacq : s.pool.acquire creator now with
  | mk r pool =>
      rw [hacq] at hstep
      cases r with
      | proxy con =>
          have heq := Option.some.inj hstep
          subst heq
          exact ⟨rfl, by simp [held, Acquired.connections, List.countP_singleton]⟩
      | nullopt =>
          have heq := Option.some.inj hstep
          subst heq
          exact ⟨rfl, rfl⟩
      | threw =>
          have heq := Option.some.inj hstep
          subst heq
          exact ⟨rfl, rfl⟩

/-- Moving a connection into a new proxy loses none. -/
lemma held_moveConstruct {src : ℕ} (hstep : step s (.moveConstruct src) = some t) :
    t.pool = s.pool ∧ t.held = s.held := by
  obtain ⟨c, hc, rfl⟩ := Option.map_eq_some_iff.mp hstep
  obtain ⟨hlt, rfl⟩ := List.getElem?_eq_some_iff.mp hc
  refine ⟨rfl, ?_⟩
  have hle := List.boole_getElem_le_countP (p := fun c => c.con.isSome) hlt
  simp only [held, List.countP_append, List.countP_set hlt, List.countP_singleton,
    Option.isSome_none, Bool.false_eq_true, if_false, add_zero]
  omega

/-- Assigning to another proxy loses the connection that one holds. -/
lemma held_moveAssign {dst src : ℕ} (hstep : step s (.moveAssign dst src) = some t)
    (hne : dst ≠ src) {d : ConnectionWrapper Connection} (hd : s.proxies[dst]? = some d) :
    t.pool = s.pool ∧ t.held + (if d.con.isSome then 1 else 0) = s.held := by
  obtain ⟨hdst, rfl⟩ := List.getElem?_eq_some_iff.mp hd
  rw [step, hd] at hstep
  cases hc : s.proxies[src]? with
  | none =>
      rw [hc] at hstep
      cases hstep
  | some c =>
      rw [hc] at hstep
      obtain ⟨hsrc, rfl⟩ := List.getElem?_eq_some_iff.mp hc
      simp only [hne, if_false, Option.some.injEq] at hstep
      have heq := hstep
      subst heq
      refine ⟨rfl, ?_⟩
      have hsrc' : src < (s.proxies.set dst s.proxies[src]).length := by simpa using hsrc
      have hle := List.boole_getElem_le_countP (p := fun c => c.con.isSome) hdst
      simp only [held, List.countP_set hsrc', List.countP_set hdst, List.getElem_set_ne hne,
        Option.isSome_none, Bool.false_eq_true, if_false, add_zero]
      omega

/-- Destroying a proxy gives its connection back. -/
lemma held_destroy {i : ℕ} {valid : Bool} {now : TimePoint}
    (hstep : step s (.destroy i valid now) = some t) :
    ∃ c, t.pool = (if c.con.isSome then s.pool.release c valid now else s.pool) ∧
      t.held + (if c.con.isSome then 1 else 0) = s.held := by
  obtain ⟨c, hc, rfl⟩ := Option.map_eq_some_iff.mp hstep
  obtain ⟨hlt, rfl⟩ := List.getElem?_eq_some_iff.mp hc
  refine ⟨_, rfl, ?_⟩
  have hperm := (List.getElem_cons_eraseIdx_perm hlt).countP_eq fun c => c.con.isSome
  rw [List.countP_cons] at hperm
  exact hperm

/-! ### The accounting -/

/-- **One step** of an exact program keeps it exact precisely if it does not leak. -/
lemma exact_step_iff (h : s.Exact) (hstep : step s op = some t) : t.Exact ↔ ¬ s.Leaks op := by
  unfold Exact Pool.active at h ⊢
  cases op with
  | acquire creator now =>
      obtain ⟨hpool, hheld⟩ := held_acquire hstep
      rw [hpool, hheld, ← h]
      by_cases hlimit : s.pool.total < s.pool.configuration.maxConnections
      · rw [Pool.acquire_of_lt hlimit, Pool.toNat_total_checkout hlimit, Nat.add_left_cancel_iff]
        by_cases hshort : s.pool.Short creator
        · simp [Pool.connections_checkout_of_short hshort, Leaks, hlimit, hshort]
        · simp [Pool.connections_checkout_of_not_short hshort, Leaks, hshort]
      · simp [Pool.acquire_of_not_lt hlimit, Acquired.connections, Leaks, hlimit]
  | moveConstruct src =>
      obtain ⟨hpool, hheld⟩ := held_moveConstruct hstep
      simp [hpool, hheld, h, Leaks]
  | moveAssign dst src =>
      cases hd : s.proxies[dst]? with
      | none =>
          rw [step, hd] at hstep
          cases hstep
      | some d =>
          by_cases hne : dst = src
          · subst hne
            rw [step, hd] at hstep
            simp only [if_true, Option.some.injEq] at hstep
            subst hstep
            simp [h, Leaks]
          · obtain ⟨hpool, hheld⟩ := held_moveAssign hstep hne hd
            rw [hpool, h]
            cases hcon : d.con.isSome with
            | false => simp_all [Leaks]
            | true =>
                rw [hcon, if_pos rfl] at hheld
                have hleaks : s.Leaks (.moveAssign dst src) := ⟨hne, d, hd, hcon⟩
                simp only [hleaks, not_true_eq_false, iff_false]
                omega
  | destroy i valid now =>
      obtain ⟨c, hpool, hheld⟩ := held_destroy hstep
      rw [hpool]
      simp only [Leaks, not_false_eq_true, iff_true]
      cases hcon : c.con.isSome with
      | false =>
          rw [hcon] at hheld
          simpa [h] using hheld.symm
      | true =>
          rw [hcon, if_pos rfl] at hheld
          rw [if_pos rfl, Pool.toNat_total_release (by omega)]
          omega
  | expire now =>
      have heq := Option.some.inj hstep
      subst heq
      exact ⟨fun _ => id, fun _ => h⟩

/-- A pool as its constructor leaves it, without any proxy. -/
def start (conf : Configuration) (c : Fin conf.initialSize.toNat → Option Connection)
    (now : TimePoint) : Program Connection :=
  ⟨.construct conf c now, []⟩

/-- **The accounting of the pool.**  A run counts the connections held by live proxies correctly
after each step precisely if none of its steps leaks. -/
theorem exact_iff_not_leaks (conf : Configuration)
    (c : Fin conf.initialSize.toNat → Option Connection) (now : TimePoint)
    (ops : List (Op Connection)) :
    PartialStep.Visits step Exact (start conf c now) ops ↔
      PartialStep.Along step (fun s op => ¬ s.Leaks op) (start conf c now) ops :=
  PartialStep.visits_iff_along (I := fun _ => True) (fun _ _ _ _ _ _ _ => trivial)
    (fun _ _ _ _ h hstep => exact_step_iff h hstep) trivial rfl

/-- The first connection attempt fails: the pool counts a connection that nobody holds. -/
theorem not_exact_of_threw :
    ¬ PartialStep.Visits step Exact
      (start { initialSize := 0 } (fun _ => none) 0 : Program ℕ) [.acquire .threw 0] :=
  fun h => absurd (show Exact _ from h.2 _ rfl) (by decide)

/-- With every proxy gone the count of an exact program is zero. -/
lemma Exact.active_eq_zero (h : s.Exact) (hgone : s.proxies = []) : s.pool.active = 0 := by
  rw [Exact, held, hgone, List.countP_nil] at h
  exact UInt32.toNat_inj.mp h

/-- A connection that is given back to an exact pool has been counted: `total` does not wrap. -/
lemma Exact.total_pos (h : s.Exact) {c : ConnectionWrapper Connection} (hc : c ∈ s.proxies)
    (hcon : c.con.isSome) : 0 < s.pool.total := by
  have hheld : 0 < s.held := List.countP_pos_iff.mpr ⟨c, hc, hcon⟩
  rw [← h] at hheld
  exact UInt32.lt_iff_toNat_lt.mpr hheld

end Program

end Client

end S3Proxy
