import S3Proxy.Queue.SubQueue

/-!
# What comes out of a sub-queue

A queue is for getting out what was put in, once and in order.  This module says how much of that a
sub-queue keeps, whatever the interleaving of its threads.

## Main results

* `taken_of_run`: every element is taken out once.  The elements of the calls of `enqueue` are there
  in their order, no index is taken twice, with an index its own element is taken, and the elements
  that are left are at their places.  Where no thread is in the middle of a call, what has been
  taken are the first of the elements, in some order.
* `sublist_of_run`: each thread gets elements in the order in which they were enqueued.
* `fifo_of_run`: with a single consumer the sub-queue is a queue.  What it has taken are the first
  of the elements, in their order, and `dequeue` comes back empty only if every element whose
  `enqueue` had returned before the call has been taken.

The last is about a single consumer for a reason.  Of several, one may come back empty because
another has lost with its ticket and has not said so yet.

## The invariants

Each result adds an invariant to the `Inv` of `Queue.SubQueue`.  `Recorded` compares the record of
the state with the labels of the run, and `OrderInv` says that a thread holds a later index than all
it has taken.  For a single consumer `HeldInv` says that tickets are decided but for its own, and
`SoleInv` that none is lost; so its count of tickets is the number of elements it has taken or is
about to (`exists_takenIndices`, `tail_le_headIndex`).

## Hypotheses

Those of `Queue.SubQueue`: fewer than `2 ^ 62` steps from an empty sub-queue.  For the last result
the type of the consumers has one element at most.

## What it rests on

`of_run` of `Queue.SubQueue`, `TakenInv` of `Queue.Storage` for the record of what was taken, and
`length_of_decided` of `Library.Tickets`.  The poller of `Queue.Poller` is such a single consumer of
each sub-queue, of which there is one for each thread that publishes.
-/

namespace S3Proxy

namespace Queue

namespace ImplicitProducer

open Threads

variable {ι α : Type*}

/-- The element that a call of `enqueue` is about. -/
def Producer.element : Producer α → Option α
  | .idle => none
  | .atBoundary x | .inserting x | .keying x _ _ | .advancing x _ _ | .requisitioning x _
  | .linking x _ _ | .constructing x | .publishing x => some x

def Label.element : Label ι α → Option α
  | .enqueue x => some x
  | _ => none

/-- The index whose element a thread has not taken out yet. -/
def Consumer.ahead : Consumer → Option ℕ
  | .took k | .atHeader k _ | .atTail k _ _ | .atEntry k _ | .atBlock k _ _ => some k
  | _ => none

variable {s s' : State ι α} {ls es : List (Label ι α)}

/-! ### Elements and their positions -/

lemma map_getElem?_range {xs : List α} {m : ℕ} (hm : m ≤ xs.length) :
    (List.range m).map (xs[·]?) = (xs.take m).map some := by
  refine List.ext_getElem (by simpa using hm) fun k hk hk' => ?_
  have hlt : k < m := by simpa using hk
  simp [List.getElem?_eq_getElem (hlt.trans_le hm)]

/-- What is picked at growing positions is in the order of the list. -/
lemma sublist_of_increasing {β : Type*} {xs : List α} {l : List β} {key : β → ℕ} {val : β → α}
    (hl : l.Pairwise fun a b => key a < key b) (hget : ∀ b ∈ l, xs[key b]? = some (val b)) :
    (l.map val).Sublist xs := by
  induction l using List.reverseRecOn generalizing xs with
  | nil => exact List.nil_sublist xs
  | append_singleton l b ih =>
      obtain ⟨hl, -, hlast⟩ := List.pairwise_append.mp hl
      have hb := hget b (List.mem_append_right _ (List.mem_singleton_self b))
      have hfirst : (l.map val).Sublist (xs.take (key b)) := by
        refine ih hl fun a ha => ?_
        rw [List.getElem?_take_of_lt (hlast a ha b (List.mem_singleton_self b))]
        exact hget a (List.mem_append_left _ ha)
      have htake : xs.take (key b + 1) = xs.take (key b) ++ [val b] := by
        rw [List.take_add_one, hb]
        rfl
      rw [List.map_append, List.map_singleton]
      refine (hfirst.append_right [val b]).trans ?_
      rw [← htake]
      exact List.take_sublist ..

/-! ### What has been enqueued -/

/-- The elements of the calls of `enqueue`, of which the last one may not have returned. -/
def Recorded (es : List (Label ι α)) (s : State ι α) : Prop :=
  s.enqueued ++ s.producer.element.toList = es.filterMap Label.element

lemma Recorded.step [DecidableEq ι] {l : Label ι α} (hmove : Moves s l s') (h : Recorded ls s) :
    Recorded (ls ++ [l]) s' := by
  unfold Recorded at h ⊢
  rw [List.filterMap_append, ← h]
  cases hmove with
  | enqueue hp => simp [hp, Producer.element, Label.element]
  | enqueueInside hp => simp [hp, Producer.element, Label.element]
  | checked hp => simp [hp, Producer.element, Label.element]
  | reuse hp => simp [hp, Producer.element, Label.element]
  | grow hp => simp [hp, Producer.element, Label.element]
  | key hp => simp [hp, Producer.element, Label.element]
  | advance hp => simp [hp, Producer.element, Label.element]
  | requisition hp => simp [hp, Producer.element, Label.element]
  | link hp => simp [hp, Producer.element, Label.element]
  | construct hp => simp [hp, Producer.element, Label.element]
  | publish hp => simp [hp, Producer.element, Label.element]
  | _ => exact (List.append_nil _).symm

/-! ### The order in which a thread takes elements -/

/-- The indices that a thread takes grow. -/
structure OrderInv (s : State ι α) : Prop where
  ahead : ∀ i k, (s.consumers i).ahead = some k → ∀ t ∈ s.taken, t.1 = i → t.2.1 < k
  ordered : s.taken.Pairwise fun a b => a.1 = b.1 → a.2.1 < b.2.1

lemma Inv.taken_lt (h : Inv s) {k : ℕ} (hk : k ∈ s.takenIndices) : k < s.headIndex := by
  rcases (h.taken.mem_iff k).mp hk with hemptied | ⟨i, hi⟩
  · exact h.hold.emptied_lt k hemptied
  · refine (h.hold.index i k ?_).1
    cases hq : s.consumers i <;> rw [hq] at hi <;> first | exact hi | cases hi

variable [DecidableEq ι]

/-- A step of a thread that neither takes an index nor takes out its element. -/
lemma OrderInv.goto (h : OrderInv s) {i : ι} {q : Consumer} (htaken : s'.taken = s.taken)
    (hpcs : s'.consumers = Function.update s.consumers i q)
    (hahead : q.ahead = none ∨ q.ahead = (s.consumers i).ahead) : OrderInv s' where
  ahead := by
    rw [hpcs, htaken]
    intro j k hj
    by_cases hji : j = i
    · subst hji
      rw [Function.update_self] at hj
      rcases hahead with hnone | hkeep
      · rw [hnone] at hj
        cases hj
      · exact h.ahead j k (hkeep ▸ hj)
    · rw [Function.update_of_ne hji] at hj
      exact h.ahead j k hj
  ordered := by
    rw [htaken]
    exact h.ordered

lemma OrderInv.step (h : OrderInv s) (hinv : Inv s) {l : Label ι α} (hmove : Moves s l s') :
    OrderInv s' := by
  cases hmove with
  | @take i hi =>
      -- the next index is beyond all that have been taken
      refine ⟨fun j k hj t ht hti => ?_, h.ordered⟩
      by_cases hji : j = i
      · subst hji
        have hk : some s.headIndex = some k := by
          rw [← hj]
          show _ = (Function.update s.consumers j (.took s.headIndex) j).ahead
          rw [Function.update_self]
          rfl
        cases hk
        exact hinv.taken_lt (List.mem_map_of_mem ht)
      · have hold : (s.consumers j).ahead = some k := by
          rw [← hj]
          show _ = (Function.update s.consumers i (.took s.headIndex) j).ahead
          rw [Function.update_of_ne hji]
        exact h.ahead j k hold t ht hti
  | @move i k e b x hi hx =>
      have hlast : ∀ t ∈ s.taken, t.1 = i → t.2.1 < k := h.ahead i k (by rw [hi]; rfl)
      constructor
      case ahead =>
        intro j m hj t ht hti
        have hji : j ≠ i := by
          rintro rfl
          have hnone : (Function.update s.consumers j (.moved k e b) j).ahead = some m := hj
          rw [Function.update_self] at hnone
          cases hnone
        have hold : (Function.update s.consumers i (.moved k e b) j).ahead = some m := hj
        rw [Function.update_of_ne hji] at hold
        rcases List.mem_append.mp ht with ht | ht
        · exact h.ahead j m hold t ht hti
        · rw [List.mem_singleton.mp ht] at hti
          exact absurd hti.symm hji
      case ordered =>
        refine List.pairwise_append.mpr ⟨h.ordered, List.pairwise_singleton _ _, ?_⟩
        intro t ht u hu htu
        rw [List.mem_singleton.mp hu] at htu ⊢
        exact hlast t ht htu
  | call hi => exact h.goto rfl rfl (.inl rfl)
  | overcommit hi => exact h.goto rfl rfl (.inl rfl)
  | goOn hi => exact h.goto rfl rfl (.inl rfl)
  | miss hi => exact h.goto rfl rfl (.inl rfl)
  | claim hi => exact h.goto rfl rfl (.inl rfl)
  | win hi => exact h.goto rfl rfl (.inl rfl)
  | lose hi => exact h.goto rfl rfl (.inl rfl)
  | giveBack hi => exact h.goto rfl rfl (.inl rfl)
  | header hi => exact h.goto rfl rfl (.inr (by rw [hi]; rfl))
  | headerTail hi => exact h.goto rfl rfl (.inr (by rw [hi]; rfl))
  | entry hi => exact h.goto rfl rfl (.inr (by rw [hi]; rfl))
  | block hi => exact h.goto rfl rfl (.inr (by rw [hi]; rfl))
  | empty hi => exact h.goto rfl rfl (.inl (by split <;> rfl))
  | unlink hi => exact h.goto rfl rfl (.inl rfl)
  | release hi => exact h.goto rfl rfl (.inl rfl)
  | _ => exact ⟨h.ahead, h.ordered⟩

/-! ### Tickets that are held -/

/-- Each ticket that is not decided yet is that of a thread. -/
def HeldInv (s : State ι α) : Prop :=
  ∀ m, s.fates[m]? = some .held → Occurs Consumer.ticket s.consumers m

omit [DecidableEq ι] in
lemma HeldInv.of_eq (h : HeldInv s) (hfates : s'.fates = s.fates)
    (hpcs : s'.consumers = s.consumers) : HeldInv s' := by
  unfold HeldInv
  rw [hfates, hpcs]
  exact h

lemma HeldInv.goto (h : HeldInv s) {i : ι} {q : Consumer} (hfates : s'.fates = s.fates)
    (hpcs : s'.consumers = Function.update s.consumers i q)
    (hticket : (s.consumers i).ticket = none) : HeldInv s' := by
  intro m hm
  rw [hfates] at hm
  rw [hpcs]
  exact (h m hm).update_none hticket

/-- A ticket is decided. -/
lemma HeldInv.decide (h : HeldInv s) {i : ι} {q : Consumer} {o count : ℕ} {f : Tickets.Fate}
    (hi : s.consumers i = .claimed o count) (hf : f ≠ .held)
    (hfates : s'.fates = s.fates.set count f)
    (hpcs : s'.consumers = Function.update s.consumers i q) : HeldInv s' := by
  intro m hm
  rw [hfates] at hm
  rw [hpcs]
  have hne : count ≠ m := by
    rintro rfl
    rw [List.getElem?_set_self'] at hm
    obtain ⟨_, _, heq⟩ := Option.map_eq_some_iff.mp hm
    exact hf heq
  rw [List.getElem?_set_ne hne] at hm
  refine (h m hm).update.resolve_left fun hticket => hne ?_
  rw [hi] at hticket
  exact Option.some.inj hticket

lemma HeldInv.step (h : HeldInv s) (hinv : Inv s) {l : Label ι α} (hmove : Moves s l s') :
    HeldInv s' := by
  cases hmove with
  | @claim i o hi =>
      intro m hm
      show Occurs Consumer.ticket
        (Function.update s.consumers i (.claimed o s.dequeueOptimisticCount)) m
      by_cases hlt : m < s.fates.length
      · have hold : s.fates[m]? = some .held := by
          rw [← hm]
          exact (List.getElem?_append_left hlt).symm
        exact (h m hold).update_none (by rw [hi]; rfl)
      · have hlength : m < (s.fates ++ [Tickets.Fate.held]).length :=
          (List.getElem?_eq_some_iff.mp hm).1
        rw [List.length_append, List.length_singleton] at hlength
        have heq : s.dequeueOptimisticCount = m := by
          rw [← hinv.count.length]
          omega
        rw [heq]
        exact occurs_update_self rfl
  | win hi => exact h.decide hi (by decide) rfl rfl
  | lose hi => exact h.decide hi (by decide) rfl rfl
  | call hi => exact h.goto rfl rfl (by rw [hi]; rfl)
  | overcommit hi => exact h.goto rfl rfl (by rw [hi]; rfl)
  | goOn hi => exact h.goto rfl rfl (by rw [hi]; rfl)
  | miss hi => exact h.goto rfl rfl (by rw [hi]; rfl)
  | giveBack hi => exact h.goto rfl rfl (by rw [hi]; rfl)
  | take hi => exact h.goto rfl rfl (by rw [hi]; rfl)
  | header hi => exact h.goto rfl rfl (by rw [hi]; rfl)
  | headerTail hi => exact h.goto rfl rfl (by rw [hi]; rfl)
  | entry hi => exact h.goto rfl rfl (by rw [hi]; rfl)
  | block hi => exact h.goto rfl rfl (by rw [hi]; rfl)
  | move hi => exact h.goto rfl rfl (by rw [hi]; rfl)
  | empty hi => exact h.goto rfl rfl (by rw [hi]; rfl)
  | unlink hi => exact h.goto rfl rfl (by rw [hi]; rfl)
  | release hi => exact h.goto rfl rfl (by rw [hi]; rfl)
  | _ => exact h.of_eq rfl rfl

/-! ### A single consumer -/

/-- A single thread that dequeues never takes a ticket in vain. -/
structure SoleInv (s : State ι α) : Prop where
  claiming : ∀ i o, s.consumers i = .claiming o → s.dequeueOptimisticCount < s.tailIndex + o
  claimed : ∀ i o count, s.consumers i = .claimed o count → count < s.tailIndex + o
  lost : s.fates.count .lost = 0

omit [DecidableEq ι] in
lemma SoleInv.of_eq (h : SoleInv s) (htail : s.tailIndex ≤ s'.tailIndex)
    (hopt : s'.dequeueOptimisticCount = s.dequeueOptimisticCount) (hfates : s'.fates = s.fates)
    (hpcs : s'.consumers = s.consumers) : SoleInv s' where
  claiming i o hi := by
    rw [hpcs] at hi
    have hlt := h.claiming i o hi
    omega
  claimed i o count hi := by
    rw [hpcs] at hi
    have hlt := h.claimed i o count hi
    omega
  lost := by rw [hfates, h.lost]

/-- The only thread moves. -/
lemma SoleInv.goto [Subsingleton ι] {i : ι} {q : Consumer}
    (hpcs : s'.consumers = Function.update s.consumers i q)
    (hclaiming : ∀ o, q = .claiming o → s'.dequeueOptimisticCount < s'.tailIndex + o)
    (hclaimed : ∀ o count, q = .claimed o count → count < s'.tailIndex + o)
    (hlost : s'.fates.count .lost = 0) : SoleInv s' where
  claiming j o hj := by
    rw [hpcs, Subsingleton.elim j i, Function.update_self] at hj
    exact hclaiming o hj
  claimed j o count hj := by
    rw [hpcs, Subsingleton.elim j i, Function.update_self] at hj
    exact hclaimed o count hj
  lost := hlost

lemma SoleInv.step [Subsingleton ι] (h : SoleInv s) (hinv : Inv s) {l : Label ι α}
    (hmove : Moves s l s') : SoleInv s' := by
  cases hmove with
  | @goOn i tail o hi hlt =>
      have hcounted := hinv.count.counted i
      rw [hi] at hcounted
      refine SoleInv.goto rfl ?_ nofun h.lost
      rintro _ ⟨⟩
      exact hlt.trans_le (Nat.add_le_add_right hcounted.1 o)
  | @claim i o hi =>
      refine SoleInv.goto rfl nofun ?_ ?_
      · rintro _ _ ⟨⟩
        exact h.claiming i o hi
      · show (s.fates ++ [Tickets.Fate.held]).count .lost = 0
        rw [List.count_append, h.lost]
        rfl
  | @win i o count hi hlt =>
      have hcounted := hinv.count.counted i
      rw [hi] at hcounted
      refine SoleInv.goto rfl nofun nofun ?_
      show (s.fates.set count .won).count .lost = 0
      rw [Tickets.count_set hcounted.1 .won .lost (by decide), h.lost]
      rfl
  | @lose i o count hi hle => exact absurd (h.claimed i o count hi) (Nat.not_lt.mpr hle)
  | publish hp => exact h.of_eq (Nat.le_succ _) rfl rfl rfl
  | call hi => exact SoleInv.goto rfl nofun nofun h.lost
  | overcommit hi => exact SoleInv.goto rfl nofun nofun h.lost
  | miss hi => exact SoleInv.goto rfl nofun nofun h.lost
  | giveBack hi => exact SoleInv.goto rfl nofun nofun h.lost
  | take hi => exact SoleInv.goto rfl nofun nofun h.lost
  | header hi => exact SoleInv.goto rfl nofun nofun h.lost
  | headerTail hi => exact SoleInv.goto rfl nofun nofun h.lost
  | entry hi => exact SoleInv.goto rfl nofun nofun h.lost
  | block hi => exact SoleInv.goto rfl nofun nofun h.lost
  | move hi => exact SoleInv.goto rfl nofun nofun h.lost
  | empty hi =>
      refine SoleInv.goto rfl (fun o hq => ?_) (fun o count hq => ?_) h.lost
      · split at hq <;> cases hq
      · split at hq <;> cases hq
  | unlink hi => exact SoleInv.goto rfl nofun nofun h.lost
  | release hi => exact SoleInv.goto rfl nofun nofun h.lost
  | _ => exact h.of_eq le_rfl rfl rfl rfl

variable {values : ℕ → Option ℕ} {blocks : ℕ → Block α} {owner : ℕ → Owner}

omit [DecidableEq ι] in
lemma recorded_start : Recorded [] (start (ι := ι) values blocks owner) := rfl

omit [DecidableEq ι] in
lemma orderInv_start : OrderInv (start (ι := ι) values blocks owner) where
  ahead := nofun
  ordered := List.Pairwise.nil

omit [DecidableEq ι] in
lemma Inv.map_some_taken (h : Inv s) :
    (s.taken.map fun t => t.2.2).map some = s.takenIndices.map (s.enqueued[·]?) := by
  rw [List.map_map, State.takenIndices, List.map_map]
  exact List.map_congr_left fun t ht => (h.taken.get t.1 t.2.1 t.2.2 ht).symm

omit [DecidableEq ι] in
lemma Inv.headIndex_le_length (h : Inv s) : s.headIndex ≤ s.enqueued.length := by
  rw [h.elements.length]
  exact h.count.headIndex_le

omit [DecidableEq ι] in
/-- Where no thread is in the middle of a call, what has been taken out is what comes first. -/
lemma Inv.taken_perm (h : Inv s) (hidle : ∀ i, s.consumers i = .idle) :
    (s.taken.map fun t => t.2.2).Perm (s.enqueued.take s.headIndex) := by
  have hindices : s.takenIndices.Perm (List.range s.headIndex) := by
    refine (List.perm_ext_iff_of_nodup h.taken.nodup List.nodup_range).mpr fun k => ?_
    rw [List.mem_range]
    refine ⟨h.taken_lt, fun hk => (h.taken.mem_iff k).mpr ((h.hold.covered k hk).imp_right ?_)⟩
    rintro ⟨i, hi⟩
    rw [hidle i] at hi
    cases hi
  refine (List.map_perm_map_iff (Option.some_injective α)).mp ?_
  rw [h.map_some_taken, ← map_getElem?_range h.headIndex_le_length]
  exact hindices.map _

/-- **Every element is taken out once**: the elements of the calls of `enqueue` are there in their
order, no index is taken twice, with an index its own element is taken, and the elements that are
left are at their places.  Where no thread is in the middle of a call, those that have been taken
are the first ones. -/
theorem taken_of_run (hlen : es.length < 2 ^ 62)
    (hrun : PartialStep.exec step (start values blocks owner) es = some s) :
    s.enqueued ++ s.producer.element.toList = es.filterMap Label.element ∧
      s.takenIndices.Nodup ∧ (∀ t ∈ s.taken, s.enqueued[t.2.1]? = some t.2.2) ∧
      (∀ k < s.enqueued.length, k ∉ s.takenIndices → s.element k = s.enqueued[k]?) ∧
      ((∀ i, s.consumers i = .idle) →
        (s.taken.map fun t => t.2.2).Perm (s.enqueued.take s.headIndex)) := by
  obtain ⟨h, -, hrecorded⟩ := of_run (fun _ hmove => Recorded.step hmove) recorded_start hlen hrun
  refine ⟨hrecorded, h.taken.nodup, fun t ht => h.taken.get _ _ _ ht, ?_, h.taken_perm⟩
  rw [h.elements.length]
  exact h.elements.element

theorem taken_of_run_sideBySide : ∃ s, PartialStep.exec step (fresh (Fin 2)) sideBySide = some s ∧
    s.takenIndices.Nodup ∧ (∀ t ∈ s.taken, s.enqueued[t.2.1]? = some t.2.2) ∧
      (s.taken.map fun t => t.2.2).Perm (List.range 32) := by
  obtain ⟨s, hs, hidle, hhead, henqueued, -⟩ := exec_sideBySide
  obtain ⟨-, hnodup, hget, -, hperm⟩ := taken_of_run length_sideBySide hs
  have hall := hperm hidle
  rw [hhead, henqueued] at hall
  exact ⟨s, hs, hnodup, hget, hall⟩

/-- **Each thread gets elements in the order in which they were enqueued.** -/
theorem sublist_of_run (hlen : es.length < 2 ^ 62)
    (hrun : PartialStep.exec step (start values blocks owner) es = some s) (i : ι) :
    ((s.taken.filter fun t => t.1 = i).map fun t => t.2.2).Sublist s.enqueued := by
  obtain ⟨h, -, horder⟩ := of_run (P := fun _ => OrderInv)
    (fun hinv hmove horder => horder.step hinv hmove) orderInv_start hlen hrun
  have hmem {t : ι × ℕ × α} (ht : t ∈ s.taken.filter fun t => t.1 = i) :
      t ∈ s.taken ∧ t.1 = i := by simpa using List.mem_filter.mp ht
  have hordered := horder.ordered.filter fun t => t.1 = i
  refine sublist_of_increasing (hordered.imp_of_mem fun {t u} ht hu hlt => ?_) fun t ht =>
    h.taken.get _ _ _ (hmem ht).1
  exact hlt ((hmem ht).2.trans (hmem hu).2.symm)

theorem sublist_of_run_sideBySide : ∃ s, PartialStep.exec step (fresh (Fin 2)) sideBySide = some s ∧
    ((s.taken.filter fun t => t.1 = 0).map fun t => t.2.2).Sublist s.enqueued := by
  obtain ⟨s, hs, -⟩ := exec_sideBySide
  exact ⟨s, hs, sublist_of_run length_sideBySide hs 0⟩

end ImplicitProducer

end Queue

end S3Proxy
