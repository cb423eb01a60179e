import S3Proxy.Queue.ImplicitProducer

/-!
# The counts of a sub-queue

`dequeueOptimisticCount` hands out tickets, and a consumer whose ticket wins takes an index.  No
more tickets win than elements are there, so that an index that is taken is one of an element.

Three counters take part, none of which is read together with another.  The producer raises
`tailIndex`.  A consumer reads `dequeueOvercommit`, then takes a ticket from
`dequeueOptimisticCount`, and compares the difference of the two with the tail; if it loses it
raises `dequeueOvercommit`, later.

## Main result

`CountInv.step`: every step keeps the invariant `CountInv`.  Its heart is `Sound` of
`Library.Tickets`, for the list of the fates of all tickets with the tail as the limit; the rest
ties the counters of the source to that list.  `headIndex_le` is what the later modules need of it,
that the head does not pass the tail; `overcommit_le`, `lost_le` and `claimed_le` bound what a
consumer can have read.

`Counted` is what the thread at some program point knows, and `Counted.mono` says that this outlasts
what others do.  `CountInv.goto` and `CountInv.of_eq` are for the steps that leave the counters
alone, which most do, and `CountInv.counted_set` is for a decision on a ticket.

## Hypotheses

The step is one of `Moves`, and so no word wraps around.  `sub_eq`, `circularLessThan_iff` and
`increment_eq` say what the operations of the source on words are then; the bounds that they ask for
are discharged in `Queue.SubQueue`.

## Where it is used

Every later module of the sub-queue has `CountInv` as a hypothesis, and `Queue.SubQueue` proves it
for all runs.
-/

namespace S3Proxy

namespace Queue

namespace ImplicitProducer

open Tickets

variable {ι α : Type*}

/-- What the local variables of a thread that dequeues have to do with the counts. -/
def Counted (s : State ι α) : Consumer → Prop
  | .loaded tail => tail ≤ s.tailIndex
  | .comparing tail o => tail ≤ s.tailIndex ∧ o ≤ s.fates.count .lost
  | .claiming o => o ≤ s.fates.count .lost
  | .claimed o count => s.fates[count]? = some .held ∧ o ≤ lostBefore s.fates count
  | _ => True

/-- The ticket of a thread that has not decided yet. -/
def Consumer.ticket : Consumer → Option ℕ
  | .claimed _ count => some count
  | _ => none

structure CountInv (s : State ι α) : Prop where
  length : s.fates.length = s.dequeueOptimisticCount
  sound : Sound s.tailIndex s.fates
  won : s.headIndex + s.takers.card = s.fates.count .won
  lost : s.dequeueOvercommit + s.givers.card = s.fates.count .lost
  takers : ∀ i, i ∈ s.takers ↔ s.consumers i = .taking
  givers : ∀ i, i ∈ s.givers ↔ s.consumers i = .givingBack
  counted : ∀ i, Counted s (s.consumers i)
  distinct : Threads.Distinct Consumer.ticket s.consumers

namespace CountInv

variable {s : State ι α}

lemma headIndex_le (h : CountInv s) : s.headIndex ≤ s.tailIndex := by
  have hwon := h.sound.won_le
  have hhead := h.won
  omega

lemma overcommit_le (h : CountInv s) : s.dequeueOvercommit ≤ s.fates.count .lost := by
  have hlost := h.lost
  omega

lemma lost_le (h : CountInv s) : s.fates.count .lost ≤ s.dequeueOptimisticCount := by
  rw [← h.length]
  exact List.count_le_length

lemma claimed_lt (h : CountInv s) {i : ι} {o count : ℕ} (hi : s.consumers i = .claimed o count) :
    count < s.dequeueOptimisticCount := by
  have hcounted := h.counted i
  rw [hi] at hcounted
  rw [← h.length]
  exact (List.getElem?_eq_some_iff.mp hcounted.1).1

/-- What a consumer knows to have lost are earlier tickets than its own. -/
lemma claimed_le (h : CountInv s) {i : ι} {o count : ℕ} (hi : s.consumers i = .claimed o count) :
    o ≤ count := by
  have hcounted := h.counted i
  rw [hi] at hcounted
  have hle : lostBefore s.fates count ≤ (s.fates.take count).length := List.count_le_length
  rw [List.length_take] at hle
  exact hcounted.2.trans (hle.trans (min_le_left _ _))

end CountInv

/-! ### Words -/

lemma sub_eq {a b : ℕ} (hle : b ≤ a) (ha : a < 2 ^ 64) : sub a b = a - b := by
  have heq : a + 2 ^ 64 - b = (a - b) + 2 ^ 64 := by omega
  rw [sub, heq, Nat.add_mod_right, Nat.mod_eq_of_lt (by omega)]

lemma circularLessThan_iff {a b : ℕ} (ha : a < 2 ^ 63) (hb : b < 2 ^ 63) :
    circularLessThan a b ↔ a < b := by
  rw [circularLessThan, decide_eq_true_eq]
  by_cases hab : a < b
  · have heq : sub a b = a + 2 ^ 64 - b := Nat.mod_eq_of_lt (by omega)
    rw [heq]
    omega
  · rw [sub_eq (by omega) (by omega)]
    omega

lemma increment_eq {a : ℕ} (h : a < 2 ^ 62) : increment a = a + 1 := Nat.mod_eq_of_lt (by omega)

/-! ### The step lemma -/

variable {s s' : State ι α}

/-- What others know stays true when tickets are taken and decided. -/
lemma Counted.mono {q : Consumer} (h : Counted s q) (htail : s.tailIndex ≤ s'.tailIndex)
    (hlost : s.fates.count .lost ≤ s'.fates.count .lost)
    (hticket : ∀ count, q.ticket = some count → s.fates[count]? = some .held →
      s'.fates[count]? = some .held ∧ lostBefore s.fates count ≤ lostBefore s'.fates count) :
    Counted s' q := by
  cases q with
  | loaded tail => exact h.trans htail
  | comparing tail o => exact ⟨h.1.trans htail, h.2.trans hlost⟩
  | claiming o => exact h.trans hlost
  | claimed o count =>
      obtain ⟨hheld, hle⟩ := hticket count rfl h.1
      exact ⟨hheld, h.2.trans hle⟩
  | _ => trivial

lemma counted_congr (htail : s'.tailIndex = s.tailIndex) (hfates : s'.fates = s.fates)
    {q : Consumer} (h : Counted s q) : Counted s' q :=
  h.mono (by rw [htail]) (by rw [hfates]) fun count _ hheld => by simp [hfates, hheld]

variable [DecidableEq ι]

/-- A step that leaves the counts alone, of a thread that is not in the middle of counting. -/
lemma CountInv.goto (h : CountInv s) {i : ι} {q : Consumer}
    (htail : s'.tailIndex = s.tailIndex) (hhead : s'.headIndex = s.headIndex)
    (hopt : s'.dequeueOptimisticCount = s.dequeueOptimisticCount)
    (hover : s'.dequeueOvercommit = s.dequeueOvercommit) (hfates : s'.fates = s.fates)
    (htakers : s'.takers = s.takers) (hgivers : s'.givers = s.givers)
    (hpcs : s'.consumers = Function.update s.consumers i q)
    (hi : s.consumers i ≠ .taking) (hi' : s.consumers i ≠ .givingBack)
    (hq : q ≠ .taking) (hq' : q ≠ .givingBack) (hcounted : Counted s q)
    (hticket : q.ticket = none) : CountInv s' where
  length := by rw [hfates, hopt, h.length]
  sound := by rw [htail, hfates]; exact h.sound
  won := by rw [hhead, htakers, hfates, h.won]
  lost := by rw [hover, hgivers, hfates, h.lost]
  takers := by
    rw [htakers, hpcs]
    exact Threads.mem_iff_update (· = Consumer.taking) h.takers hi hq
  givers := by
    rw [hgivers, hpcs]
    exact Threads.mem_iff_update (· = Consumer.givingBack) h.givers hi' hq'
  counted := by
    rw [hpcs]
    refine (Function.forall_update_iff _ fun _ q => Counted s' q).mpr
      ⟨counted_congr htail hfates hcounted, fun j _ => counted_congr htail hfates (h.counted j)⟩
  distinct := by rw [hpcs]; exact h.distinct.update_none hticket

omit [DecidableEq ι] in
/-- A step of the producer or of the rest of the queue, which leaves the counts alone. -/
lemma CountInv.of_eq (h : CountInv s) (htail : s.tailIndex ≤ s'.tailIndex)
    (hhead : s'.headIndex = s.headIndex)
    (hopt : s'.dequeueOptimisticCount = s.dequeueOptimisticCount)
    (hover : s'.dequeueOvercommit = s.dequeueOvercommit) (hfates : s'.fates = s.fates)
    (htakers : s'.takers = s.takers) (hgivers : s'.givers = s.givers)
    (hpcs : s'.consumers = s.consumers) : CountInv s' where
  length := by rw [hfates, hopt, h.length]
  sound := by rw [hfates]; exact h.sound.mono htail
  won := by rw [hhead, htakers, hfates, h.won]
  lost := by rw [hover, hgivers, hfates, h.lost]
  takers j := by rw [htakers, hpcs, h.takers]
  givers j := by rw [hgivers, hpcs, h.givers]
  counted j := by
    rw [hpcs]
    exact (h.counted j).mono htail (by rw [hfates]) fun count _ hheld => by simp [hfates, hheld]
  distinct := by rw [hpcs]; exact h.distinct

omit [DecidableEq ι] in
/-- What a decision on a ticket leaves of the others. -/
lemma CountInv.counted_set (h : CountInv s) {i j : ι} (hj : j ≠ i) {o count : ℕ}
    (hi : s.consumers i = .claimed o count) (f : Fate) (htail : s'.tailIndex = s.tailIndex)
    (hfates : s'.fates = s.fates.set count f) : Counted s' (s.consumers j) := by
  have hheld : s.fates[count]? = some .held := by
    have hcounted := h.counted i
    rw [hi] at hcounted
    exact hcounted.1
  refine (h.counted j).mono htail.ge ?_ fun other hother hheld' => ?_
  · rw [hfates, count_set hheld f .lost (by decide)]
    omega
  · have hne : count ≠ other := by
      rintro rfl
      exact hj (h.distinct j i count hother (by rw [hi]; rfl))
    rw [hfates, List.getElem?_set_ne hne, lostBefore_set hheld]
    exact ⟨hheld', by omega⟩

lemma CountInv.step (h : CountInv s) {e : Label ι α} (hmove : Moves s e s') : CountInv s' := by
  cases hmove with
  | call hi =>
      exact h.goto rfl rfl rfl rfl rfl rfl rfl rfl (by simp [hi]) (by simp [hi]) (by simp)
        (by simp) le_rfl rfl
  | overcommit hi =>
      have hcounted := h.counted ‹_›
      rw [hi] at hcounted
      exact h.goto rfl rfl rfl rfl rfl rfl rfl rfl (by simp [hi]) (by simp [hi]) (by simp)
        (by simp) ⟨hcounted, h.overcommit_le⟩ rfl
  | goOn hi =>
      have hcounted := h.counted ‹_›
      rw [hi] at hcounted
      exact h.goto rfl rfl rfl rfl rfl rfl rfl rfl (by simp [hi]) (by simp [hi]) (by simp)
        (by simp) hcounted.2 rfl
  | @claim i o hi =>
      have hcounted := h.counted i
      rw [hi] at hcounted
      have hcount (f : Fate) (hf : f ≠ .held) :
          (s.fates ++ [Fate.held]).count f = s.fates.count f := by
        rw [List.count_append, List.count_singleton]
        simp [Ne.symm hf]
      exact {
        length := by
          show (s.fates ++ [Fate.held]).length = s.dequeueOptimisticCount + 1
          rw [List.length_append, h.length]
          rfl
        sound := h.sound.hold
        won := (hcount .won (by decide)).symm ▸ h.won
        lost := (hcount .lost (by decide)).symm ▸ h.lost
        takers := Threads.mem_iff_update (· = Consumer.taking) h.takers (by simp [hi]) (by simp)
        givers := Threads.mem_iff_update (· = Consumer.givingBack) h.givers (by simp [hi]) (by simp)
        counted := by
          refine (Function.forall_update_iff _ fun _ q => Counted _ q).mpr ⟨?_, fun j _ => ?_⟩
          · rw [← h.length]
            refine ⟨List.getElem?_concat_length, ?_⟩
            show o ≤ lostBefore (s.fates ++ [Fate.held]) s.fates.length
            rw [lostBefore_append _ le_rfl, lostBefore_of_length_le le_rfl]
            exact hcounted
          · refine (h.counted j).mono le_rfl (hcount .lost (by decide)).ge fun count _ hheld => ?_
            have hlt := (List.getElem?_eq_some_iff.mp hheld).1
            show (s.fates ++ [Fate.held])[count]? = _ ∧ _ ≤ lostBefore (s.fates ++ [Fate.held]) _
            rw [List.getElem?_append_left hlt, lostBefore_append _ hlt.le]
            exact ⟨hheld, le_rfl⟩
        distinct := h.distinct.update_new rfl fun j _ hj => by
          have hlt : s.dequeueOptimisticCount < s.dequeueOptimisticCount := by
            obtain ⟨o', hj'⟩ : ∃ o', s.consumers j = .claimed o' s.dequeueOptimisticCount := by
              cases hq : s.consumers j <;> simp_all [Consumer.ticket]
            exact h.claimed_lt hj'
          omega }
  | @win i o count hi hlt =>
      have hcounted := h.counted i
      rw [hi] at hcounted
      have hnew : i ∉ s.takers := by simp [h.takers, hi]
      exact {
        length := by
          show (s.fates.set count .won).length = s.dequeueOptimisticCount
          rw [List.length_set, h.length]
        sound := h.sound.win hcounted.1 (hlt.trans_le (Nat.add_le_add_left hcounted.2 _))
        won := by
          show s.headIndex + (insert i s.takers).card = (s.fates.set count .won).count .won
          rw [Finset.card_insert_of_notMem hnew, count_set hcounted.1 .won .won (by decide),
            ← h.won]
          simp
          omega
        lost := by
          show s.dequeueOvercommit + s.givers.card = (s.fates.set count .won).count .lost
          rw [count_set hcounted.1 .won .lost (by decide), h.lost]
          simp
        takers := Threads.mem_insert_iff_update (· = Consumer.taking) h.takers rfl
        givers := Threads.mem_iff_update (· = Consumer.givingBack) h.givers (by simp [hi]) (by simp)
        counted := (Function.forall_update_iff _ fun _ q => Counted _ q).mpr
          ⟨trivial, fun j hj => h.counted_set hj hi .won rfl rfl⟩
        distinct := h.distinct.update_none rfl }
  | @lose i o count hi _ =>
      have hcounted := h.counted i
      rw [hi] at hcounted
      have hnew : i ∉ s.givers := by simp [h.givers, hi]
      exact {
        length := by
          show (s.fates.set count .lost).length = s.dequeueOptimisticCount
          rw [List.length_set, h.length]
        sound := h.sound.lose hcounted.1
        won := by
          show s.headIndex + s.takers.card = (s.fates.set count .lost).count .won
          rw [count_set hcounted.1 .lost .won (by decide), h.won]
          simp
        lost := by
          show s.dequeueOvercommit + (insert i s.givers).card = (s.fates.set count .lost).count .lost
          rw [Finset.card_insert_of_notMem hnew, count_set hcounted.1 .lost .lost (by decide),
            ← h.lost]
          simp
          omega
        takers := Threads.mem_iff_update (· = Consumer.taking) h.takers (by simp [hi]) (by simp)
        givers := Threads.mem_insert_iff_update (· = Consumer.givingBack) h.givers rfl
        counted := (Function.forall_update_iff _ fun _ q => Counted _ q).mpr
          ⟨trivial, fun j hj => h.counted_set hj hi .lost rfl rfl⟩
        distinct := h.distinct.update_none rfl }
  | @giveBack i hi =>
      have hmem : i ∈ s.givers := (h.givers i).mpr hi
      have hpos := Finset.card_pos.mpr ⟨i, hmem⟩
      exact {
        length := h.length
        sound := h.sound
        won := h.won
        lost := by
          show s.dequeueOvercommit + 1 + (s.givers.erase i).card = s.fates.count .lost
          rw [Finset.card_erase_of_mem hmem, ← h.lost]
          omega
        takers := Threads.mem_iff_update (· = Consumer.taking) h.takers (by simp [hi]) (by simp)
        givers := Threads.mem_erase_iff_update (· = Consumer.givingBack) h.givers (by simp)
        counted := (Function.forall_update_iff _ fun _ q => Counted _ q).mpr
          ⟨trivial, fun j _ => counted_congr rfl rfl (h.counted j)⟩
        distinct := h.distinct.update_none rfl }
  | @take i hi =>
      have hmem : i ∈ s.takers := (h.takers i).mpr hi
      have hpos := Finset.card_pos.mpr ⟨i, hmem⟩
      exact {
        length := h.length
        sound := h.sound
        won := by
          show s.headIndex + 1 + (s.takers.erase i).card = s.fates.count .won
          rw [Finset.card_erase_of_mem hmem, ← h.won]
          omega
        lost := h.lost
        takers := Threads.mem_erase_iff_update (· = Consumer.taking) h.takers (by simp)
        givers := Threads.mem_iff_update (· = Consumer.givingBack) h.givers (by simp [hi]) (by simp)
        counted := (Function.forall_update_iff _ fun _ q => Counted _ q).mpr
          ⟨trivial, fun j _ => counted_congr rfl rfl (h.counted j)⟩
        distinct := h.distinct.update_none rfl }
  | publish => exact h.of_eq (Nat.le_succ _) rfl rfl rfl rfl rfl rfl rfl
  | empty hi =>
      refine h.goto rfl rfl rfl rfl rfl rfl rfl rfl (by simp [hi]) (by simp [hi]) ?_ ?_ ?_ ?_ <;>
        split <;> simp [Counted, Consumer.ticket]
  | miss hi | header hi | headerTail hi | entry hi | block hi | move hi | unlink hi | release hi =>
      exact h.goto rfl rfl rfl rfl rfl rfl rfl rfl (by simp [hi]) (by simp [hi]) (by simp)
        (by simp) trivial rfl
  | _ => exact h.of_eq le_rfl rfl rfl rfl rfl rfl rfl rfl

end ImplicitProducer

end Queue

end S3Proxy
