import S3Proxy.Library.Run
import S3Proxy.Server.S3Util

/-!
# The lookup, step by step

`S3Util::get` keeps the iterator that `find` returned and dereferences it again and again, while
other threads may clear the cache.  This module takes the call apart: `Pc` names the points at which
a thread can be interrupted, and each step is one operation under the mutex of the cache, one use of
the iterator, or one operation on something else.  A thread that dereferences an iterator whose
element is gone is `dangling` from then on.

That cannot happen as long as the cache is cleared only while no thread is between a successful
`find` and the last use of the iterator (`Quiet`), and it can be made to happen otherwise.

## Main results

`noDangling_of_quiet` has both directions for any number of threads and any run.  If every step is
quiet, no thread is dangling in any state on the way; and a step that is not quiet, wherever it
stands, can be continued to a state in which a thread is.

`Inv.step` keeps the invariant, that every iterator that will be used is alive; `advance_spec` says
what one step of a thread may change.  `dead_of_not_quiet` and `exists_dangling` are the other
direction.

`solo_lookup` connects the steps with the function: a thread that is left alone finds what
`S3Util.lookup` says.

## Hypotheses

In the first state no thread is inside a call.  Assigning while others look something up is no
danger, since the elements stay where they are (`alive_put` of `Util.ExpirationCache`); so the
hypothesis on steps is about clearing alone.

## Where it is used

The modules about threads that serve (`Server.Interleaving`) take the lookup as one step.  That they
may, as far as its result is concerned, is `solo_lookup`; that iterators can die is a matter of this
module.
-/

namespace S3Proxy

namespace Lookup

/-- Where a thread is in `S3Util::get`. -/
inductive Pc
  | idle
  /-- Before `iter != cache.end()`. -/
  | compareEnd (name : String) (iter : Option (Iterator String))
  | readClock (name : String) (iter : Iterator String)
  /-- Before `now < iter->second->expires`. -/
  | readExpires (name : String) (iter : Iterator String) (now : TimePoint)
  /-- Before `iter->second->fileName.empty()`. -/
  | testFileName (name : String) (iter : Iterator String)
  /-- Before `exists( iter->second->fileName )`. -/
  | testExists (name : String) (iter : Iterator String)
  /-- Before `return iter->second`. -/
  | returnCached (iter : Iterator String)
  /-- Before `iter->second->fileName` is logged. -/
  | warnGone (name : String) (iter : Iterator String)
  | getObject (name : String)
  | put (name : String) (obj : S3Object)
  | done (result : Option S3Object)
  /-- The iterator was dereferenced and its element had gone. -/
  | dangling
  deriving DecidableEq

/-- The iterator that the thread is going to dereference. -/
def Pc.pending : Pc → Option (Iterator String)
  | .compareEnd _ iter => iter
  | .readClock _ iter | .readExpires _ iter _ | .testFileName _ iter | .testExists _ iter
  | .returnCached iter | .warnGone _ iter => some iter
  | .idle | .getObject _ | .put .. | .done _ | .dangling => none

/-- What the environment decides for one step of a thread. -/
structure Choice where
  now : TimePoint := 0
  fileExists : Bool := true
  /-- What the download, or the 404, makes of the object; `none` is any other failure. -/
  fetched : Option S3Object := none
  deriving DecidableEq

inductive Label (ι : Type*)
  /-- A thread calls `S3Util::get`, and with it `find`. -/
  | call (i : ι) (name : String)
  | run (i : ι) (c : Choice)
  /-- `S3Util::clear` with the right key. -/
  | clear
  /-- The periodic `clearAll`. -/
  | expire

structure State (ι : Type*) where
  cache : MetadataCache
  pc : ι → Pc

/-- A use of the iterator. -/
def deref (cache : MetadataCache) (iter : Iterator String) (next : S3Object → Pc) : Pc :=
  match cache.deref iter with
  | some obj => next obj
  | none => .dangling

/-- The next point of a thread that is inside the call, and the cache after its step. -/
def advance (c : Choice) (cache : MetadataCache) : Pc → Option (Pc × MetadataCache)
  | .compareEnd name none => some (.getObject name, cache)
  | .compareEnd name (some iter) => some (.readClock name iter, cache)
  | .readClock name iter => some (.readExpires name iter c.now, cache)
  | .readExpires name iter now =>
      some (deref cache iter fun obj =>
        if now < obj.expires then .testFileName name iter else .getObject name, cache)
  | .testFileName name iter =>
      some (deref cache iter fun obj =>
        if obj.fileName = "" then .returnCached iter else .testExists name iter, cache)
  | .testExists name iter =>
      some (deref cache iter fun _ =>
        if c.fileExists then .returnCached iter else .warnGone name iter, cache)
  | .returnCached iter => some (deref cache iter fun obj => .done (some obj), cache)
  | .warnGone name iter => some (deref cache iter fun _ => .getObject name, cache)
  | .getObject name =>
      match c.fetched with
      | some obj => some (.put name obj, cache)
      | none => some (.done none, cache)
  | .put name obj => some (.done (some obj), cache.put name obj)
  | .idle | .done _ | .dangling => none

variable {ι : Type*} [DecidableEq ι]

/-- A thread may call when it is not inside a call. -/
def Pc.canCall : Pc → Bool
  | .idle | .done _ => true
  | _ => false

def step : PartialStep (State ι) (Label ι)
  | s, .call i name =>
      if (s.pc i).canCall then
        some { s with pc := Function.update s.pc i (.compareEnd name (s.cache.find name)) }
      else none
  | s, .run i c =>
      (advance c s.cache (s.pc i)).map fun r => ⟨r.2, Function.update s.pc i r.1⟩
  | s, .clear => some { s with cache := s.cache.clear }
  | s, .expire => some { s with cache := s.cache.clearAll }

/-- No thread has dereferenced an iterator after its element had gone. -/
def NoDangling (s : State ι) : Prop := ∀ i, s.pc i ≠ .dangling

/-- The cache is cleared only while no thread is going to use an iterator. -/
def Quiet (s : State ι) : Label ι → Prop
  | .clear | .expire => ∀ i, (s.pc i).pending = none
  | .call .. | .run .. => True

/-! ### The invariant -/

/-- Every iterator that is going to be used is alive. -/
structure Inv (s : State ι) : Prop where
  noDangling : NoDangling s
  alive : ∀ i it, (s.pc i).pending = some it → s.cache.Alive it

instance [Fintype ι] (s : State ι) : ∀ e, Decidable (Quiet s e)
  | .clear | .expire => inferInstanceAs (Decidable (∀ i, (s.pc i).pending = none))
  | .call .. | .run .. => .isTrue trivial

variable {s t : State ι} {c : Choice} {cache cache' : MetadataCache} {pc pc' : Pc}
  {it : Iterator String}

lemma deref_of_alive (h : cache.Alive it) (next : S3Object → Pc) :
    ∃ obj, deref cache it next = next obj := by
  obtain ⟨e, he, -⟩ := Option.map_eq_some_iff.mp h
  refine ⟨e.value, ?_⟩
  rw [deref, ExpirationCache.deref, if_pos h, ExpirationCache.get, he]
  rfl

lemma deref_of_not_alive (h : ¬ cache.Alive it) (next : S3Object → Pc) :
    deref cache it next = .dangling := by
  rw [deref, ExpirationCache.deref, if_neg h]

/-- One step of a thread whose iterator is alive: the cache changes by a `put` at most, and the
thread is left with no iterator but the one it had. -/
lemma advance_spec (h : advance c cache pc = some (pc', cache'))
    (halive : ∀ it, pc.pending = some it → cache.Alive it) :
    (cache' = cache ∨ ∃ name obj, cache' = cache.put name obj) ∧ pc' ≠ .dangling ∧
      ∀ it, pc'.pending = some it → pc.pending = some it := by
  cases pc with
  | idle | done _ | dangling => cases h
  | compareEnd name iter =>
      cases iter <;> obtain ⟨rfl, rfl⟩ := Prod.mk.inj (Option.some.inj h) <;> simp [Pc.pending]
  | readClock name iter =>
      obtain ⟨rfl, rfl⟩ := Prod.mk.inj (Option.some.inj h)
      simp [Pc.pending]
  | readExpires name iter now =>
      obtain ⟨obj, hobj⟩ := deref_of_alive (halive iter rfl) fun obj =>
        if now < obj.expires then .testFileName name iter else .getObject name
      rw [advance, hobj] at h
      obtain ⟨rfl, rfl⟩ := Prod.mk.inj (Option.some.inj h)
      split_ifs <;> simp [Pc.pending]
  | testFileName name iter =>
      obtain ⟨obj, hobj⟩ := deref_of_alive (halive iter rfl) fun obj =>
        if obj.fileName = "" then .returnCached iter else .testExists name iter
      rw [advance, hobj] at h
      obtain ⟨rfl, rfl⟩ := Prod.mk.inj (Option.some.inj h)
      split_ifs <;> simp [Pc.pending]
  | testExists name iter =>
      obtain ⟨obj, hobj⟩ := deref_of_alive (halive iter rfl) fun _ =>
        if c.fileExists then .returnCached iter else .warnGone name iter
      rw [advance, hobj] at h
      obtain ⟨rfl, rfl⟩ := Prod.mk.inj (Option.some.inj h)
      split_ifs <;> simp [Pc.pending]
  | returnCached iter =>
      obtain ⟨obj, hobj⟩ := deref_of_alive (halive iter rfl) fun obj => .done (some obj)
      rw [advance, hobj] at h
      obtain ⟨rfl, rfl⟩ := Prod.mk.inj (Option.some.inj h)
      simp [Pc.pending]
  | warnGone name iter =>
      obtain ⟨obj, hobj⟩ := deref_of_alive (halive iter rfl) fun _ => .getObject name
      rw [advance, hobj] at h
      obtain ⟨rfl, rfl⟩ := Prod.mk.inj (Option.some.inj h)
      simp [Pc.pending]
  | getObject name =>
      rw [advance] at h
      cases hf : c.fetched <;> rw [hf] at h <;>
        obtain ⟨rfl, rfl⟩ := Prod.mk.inj (Option.some.inj h) <;> simp [Pc.pending]
  | put name obj =>
      obtain ⟨rfl, rfl⟩ := Prod.mk.inj (Option.some.inj h)
      exact ⟨.inr ⟨name, obj, rfl⟩, by simp, by simp [Pc.pending]⟩

omit [DecidableEq ι] in
/-- Clearing with no iterator in use keeps the invariant. -/
lemma Inv.clear (h : Inv s) (hquiet : ∀ i, (s.pc i).pending = none) (cache : MetadataCache) :
    Inv { s with cache } :=
  ⟨h.noDangling, fun i it hit => by rw [hquiet i] at hit; cases hit⟩

omit [DecidableEq ι] in
/-- Where no thread is inside a call there is no iterator to be used. -/
lemma Inv.of_canCall (h : ∀ i, (s.pc i).canCall) : Inv s := by
  have hpc : ∀ i, s.pc i ≠ .dangling ∧ (s.pc i).pending = none := by
    intro i
    have hi := h i
    cases hs : s.pc i <;> rw [hs] at hi <;> simp_all [Pc.canCall, Pc.pending]
  exact ⟨fun i => (hpc i).1, fun i it hit => by rw [(hpc i).2] at hit; cases hit⟩

/-- **One quiet step** keeps every iterator alive. -/
lemma Inv.step {e : Label ι} (h : Inv s) (hquiet : Quiet s e)
    (hstep : Lookup.step s e = some t) : Inv t := by
  cases e with
  | call i name =>
      simp only [Lookup.step, Option.ite_none_right_eq_some, Option.some.injEq] at hstep
      obtain ⟨-, rfl⟩ := hstep
      refine ⟨fun j => ?_, fun j it hit => ?_⟩
      · by_cases hj : j = i
        · subst hj
          simp
        · simpa [Function.update_of_ne hj] using h.noDangling j
      · by_cases hj : j = i
        · subst hj
          simp only [Function.update_self, Pc.pending] at hit
          exact ((s.cache.find_eq_some_iff name).mp hit).2
        · simp only [Function.update_of_ne hj] at hit
          exact h.alive j it hit
  | run i c =>
      obtain ⟨⟨pc', cache'⟩, hadv, rfl⟩ := Option.map_eq_some_iff.mp hstep
      obtain ⟨hcache, hne, hpending⟩ := advance_spec hadv (h.alive i)
      have hkeep : ∀ it, s.cache.Alive it → cache'.Alive it := by
        rcases hcache with rfl | ⟨name, obj, rfl⟩
        · exact fun it hit => hit
        · exact fun it hit => s.cache.alive_put name obj hit
      refine ⟨fun j => ?_, fun j it hit => hkeep it ?_⟩
      · by_cases hj : j = i
        · subst hj
          simpa using hne
        · simpa [Function.update_of_ne hj] using h.noDangling j
      · by_cases hj : j = i
        · subst hj
          simp only [Function.update_self] at hit
          exact h.alive j it (hpending it hit)
        · simp only [Function.update_of_ne hj] at hit
          exact h.alive j it hit
  | clear =>
      have heq := Option.some.inj hstep
      subst heq
      exact h.clear hquiet _
  | expire =>
      have heq := Option.some.inj hstep
      subst heq
      exact h.clear hquiet _

/-! ### Dead iterators -/

/-- A thread with a dead iterator uses it when it is left alone. -/
lemma exists_dangling {i : ι} {s : State ι} {it : Iterator String}
    (hpending : (s.pc i).pending = some it) (hdead : ¬ s.cache.Alive it) :
    ∃ es t, PartialStep.exec step s es = some t ∧ t.pc i = .dangling := by
  have hrun : ∀ {s : State ι} {pc : Pc}, advance {} s.cache (s.pc i) = some (pc, s.cache) →
      step s (.run i {}) = some { s with pc := Function.update s.pc i pc } := by
    intro s pc h
    rw [step, h]
    rfl
  -- once the thread is at a use of the iterator, one step is enough
  have huse : ∀ {s : State ι}, advance {} s.cache (s.pc i) = some (.dangling, s.cache) →
      ∃ es t, PartialStep.exec step s es = some t ∧ t.pc i = .dangling := by
    intro s h
    exact ⟨[.run i {}], _, by rw [PartialStep.exec_cons, hrun h]; rfl, Function.update_self ..⟩
  have hthen : ∀ {s : State ι} {q : Pc}, advance {} s.cache (s.pc i) = some (q, s.cache) →
      (∃ es t, PartialStep.exec step { s with pc := Function.update s.pc i q } es = some t ∧
        t.pc i = .dangling) →
      ∃ es t, PartialStep.exec step s es = some t ∧ t.pc i = .dangling := by
    rintro s q h ⟨es, t, hes, ht⟩
    exact ⟨.run i {} :: es, t, by rw [PartialStep.exec_cons, hrun h]; exact hes, ht⟩
  have hclock : ∀ {s : State ι} {name : String}, s.pc i = .readClock name it →
      ¬ s.cache.Alive it → ∃ es t, PartialStep.exec step s es = some t ∧ t.pc i = .dangling := by
    intro s name hpc hdead
    refine hthen (q := .readExpires name it 0) (by rw [hpc]; rfl) (huse ?_)
    simp only [Function.update_self, advance, deref_of_not_alive hdead]
  cases hpc : s.pc i with
  | idle | getObject _ | put _ _ | done _ | dangling =>
      rw [hpc] at hpending
      cases hpending
  | compareEnd name iter =>
      rw [hpc] at hpending
      have heq : iter = some it := hpending
      subst heq
      exact hthen (q := .readClock name it) (by rw [hpc]; rfl)
        (hclock (Function.update_self ..) hdead)
  | readClock name iter =>
      rw [hpc] at hpending
      have heq : iter = it := Option.some.inj hpending
      subst heq
      exact hclock hpc hdead
  | readExpires _ iter _ | testFileName _ iter | testExists _ iter | returnCached iter
  | warnGone _ iter =>
      rw [hpc] at hpending
      have heq : iter = it := Option.some.inj hpending
      subst heq
      exact huse (by rw [hpc, advance, deref_of_not_alive hdead])

/-- Clearing the cache at the wrong moment leaves a thread with a dead iterator. -/
lemma dead_of_not_quiet {e : Label ι} (h : ¬ Quiet s e) :
    ∃ t, step s e = some t ∧ ∃ i it, (t.pc i).pending = some it ∧ ¬ t.cache.Alive it := by
  have hclear : (∃ i, (s.pc i).pending ≠ none) →
      ∃ i it, (s.pc i).pending = some it ∧ ¬ s.cache.clear.Alive it := by
    rintro ⟨i, hi⟩
    obtain ⟨it, hit⟩ := Option.ne_none_iff_exists'.mp hi
    exact ⟨i, it, hit, s.cache.not_alive_clear it⟩
  cases e with
  | call i name => exact absurd trivial h
  | run i c => exact absurd trivial h
  | clear => exact ⟨_, rfl, hclear (not_forall.mp h)⟩
  | expire => exact ⟨_, rfl, hclear (not_forall.mp h)⟩

/-- **Lookups use what is alive.**  From a state in which no thread is inside a call: as long as
the cache is cleared only while no thread is going to use an iterator, no thread ever uses a dead
one; and as soon as it is cleared at any other moment, some continuation makes a thread do so. -/
theorem noDangling_of_quiet (hstart : ∀ i, (s.pc i).canCall) :
    (∀ es, PartialStep.Along step Quiet s es → PartialStep.Visits step NoDangling s es) ∧
      ∀ es t e, PartialStep.exec step s es = some t → ¬ Quiet t e →
        ∃ es' u, PartialStep.exec step s (es ++ e :: es') = some u ∧ ¬ NoDangling u := by
  constructor
  · intro es hquiet
    exact PartialStep.visits_of_along (fun _ _ _ hs hP hstep => Inv.step hs hP hstep)
      (fun _ => Inv.noDangling) (Inv.of_canCall hstart) hquiet
  · intro es t e hrun hloud
    obtain ⟨u, hstep, i, it, hpending, hdead⟩ := dead_of_not_quiet hloud
    obtain ⟨es', u', hrun', hdangling⟩ := exists_dangling hpending hdead
    refine ⟨es', u', PartialStep.exec_append_of hrun ?_, fun h => h i hdangling⟩
    rw [PartialStep.exec_cons, hstep]
    exact hrun'

/-- The cache is filled, and cleared while nobody looks anything up. -/
theorem noDangling_of_quiet_clear :
    PartialStep.Visits step NoDangling (⟨ExpirationCache.empty, fun _ => .idle⟩ : State (Fin 2))
      [.call 0 "/a", .run 0 {}, .run 0 { fetched := some ⟨"", "f", "e", "", 9, 0, 1⟩ }, .run 0 {},
        .clear, .call 1 "/a"] :=
  (noDangling_of_quiet fun _ => rfl).1 _ (by decide)

/-- The cache is cleared between the lookup of one thread and its first use of the iterator. -/
theorem dangling_of_clear :
    ∃ u : State (Fin 2), PartialStep.exec step ⟨ExpirationCache.empty, fun _ => .idle⟩
      [.call 0 "/a", .run 0 {}, .run 0 { fetched := some ⟨"", "f", "e", "", 9, 0, 1⟩ }, .run 0 {},
        .call 1 "/a", .clear, .run 1 {}, .run 1 {}, .run 1 {}] = some u ∧ ¬ NoDangling u :=
  ⟨_, rfl, fun h => h 1 (by decide)⟩

/-! ### One thread on its own -/

/-- A thread that is left alone gets from one point to another, and leaves the cache as it is. -/
def Reaches (i : ι) (c : Choice) (cache : MetadataCache) (p p' : Pc) : Prop :=
  ∃ n, ∀ pc : ι → Pc,
    PartialStep.exec step ⟨cache, Function.update pc i p⟩ (List.replicate n (.run i c)) =
      some ⟨cache, Function.update pc i p'⟩

lemma Reaches.refl {i : ι} {p : Pc} : Reaches i c cache p p := ⟨0, fun _ => rfl⟩

/-- One more step in front. -/
lemma Reaches.head {i : ι} {p p' p'' : Pc} (h : advance c cache p = some (p', cache))
    (hrest : Reaches i c cache p' p'') : Reaches i c cache p p'' := by
  obtain ⟨n, hn⟩ := hrest
  refine ⟨n + 1, fun pc => ?_⟩
  have hstep : step ⟨cache, Function.update pc i p⟩ (.run i c) =
      some ⟨cache, Function.update pc i p'⟩ := by
    rw [step]
    dsimp only
    rw [Function.update_self, h, Option.map_some, Function.update_idem]
  rw [List.replicate_succ, PartialStep.exec_cons, hstep, Option.bind_some, hn]

lemma deref_of_some {obj : S3Object} (h : cache.deref it = some obj) (next : S3Object → Pc) :
    deref cache it next = next obj := by
  rw [deref, h]

/-- From the comparison with `end` on, the thread goes where `S3Util.lookup` says. -/
lemma reaches_lookup {i : ι} {w : World} {name : String}
    (hfiles : ∀ obj, w.cache.get name = some obj → c.fileExists = (w.files obj.fileName).isSome) :
    Reaches i c w.cache (.compareEnd name (w.cache.find name))
      (match S3Util.lookup c.now name w with
        | some obj => .done (some obj)
        | none => .getObject name) := by
  rw [S3Util.lookup_eq]
  cases hget : w.cache.get name with
  | none =>
      rw [(w.cache.find_eq_none_iff name).mpr hget]
      exact .head rfl .refl
  | some obj =>
      have hfound : w.cache.find name ≠ none := by
        intro hnone
        rw [(w.cache.find_eq_none_iff name).mp hnone] at hget
        cases hget
      obtain ⟨it, hfind⟩ := Option.ne_none_iff_exists'.mp hfound
      have hderef : w.cache.deref it = some obj := (w.cache.deref_find name hfind).trans hget
      have hreturn : Reaches i c w.cache (.returnCached it) (.done (some obj)) :=
        .head (by rw [advance, deref_of_some hderef]) .refl
      have hfile := hfiles obj hget
      rw [hfind]
      refine .head rfl (.head rfl ?_)
      by_cases hexp : c.now < obj.expires
      · refine .head (by rw [advance, deref_of_some hderef, if_pos hexp]) ?_
        by_cases hneg : obj.fileName = ""
        · rw [Option.bind_some, if_pos ⟨hexp, .inl hneg⟩]
          exact .head (by rw [advance, deref_of_some hderef, if_pos hneg]) hreturn
        · refine .head (by rw [advance, deref_of_some hderef, if_neg hneg]) ?_
          by_cases hexists : c.fileExists = true
          · rw [Option.bind_some, if_pos ⟨hexp, .inr (hfile ▸ hexists)⟩]
            exact .head (by rw [advance, deref_of_some hderef, if_pos hexists]) hreturn
          · rw [Option.bind_some,
              if_neg fun h => h.2.elim hneg fun hsome => hexists (hfile.trans hsome)]
            refine .head (by rw [advance, deref_of_some hderef, if_neg hexists]) ?_
            exact .head (by rw [advance, deref_of_some hderef]) .refl
      · rw [Option.bind_some, if_neg fun h => hexp h.1]
        exact .head (by rw [advance, deref_of_some hderef, if_neg hexp]) .refl

/-- A thread that is left alone finds what `S3Util.lookup` says, and goes on to the bucket if that
is nothing. -/
lemma solo_lookup {i : ι} {w : World} {name : String} (hcache : s.cache = w.cache)
    (hcall : (s.pc i).canCall)
    (hfiles : ∀ obj, w.cache.get name = some obj → c.fileExists = (w.files obj.fileName).isSome) :
    ∃ n t, PartialStep.exec step s (.call i name :: List.replicate n (.run i c)) = some t ∧
      t.cache = s.cache ∧
      t.pc i = match S3Util.lookup c.now name w with
        | some obj => .done (some obj)
        | none => .getObject name := by
  obtain ⟨n, hn⟩ := reaches_lookup (i := i) hfiles
  refine ⟨n, ⟨s.cache, Function.update s.pc i _⟩, ?_, rfl, Function.update_self ..⟩
  rw [PartialStep.exec_cons, step, if_pos hcall, Option.bind_some, hcache]
  exact hn s.pc

end Lookup

end S3Proxy
