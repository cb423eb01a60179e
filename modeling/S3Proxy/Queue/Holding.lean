import S3Proxy.Queue.Counts

/-!
# Who holds what

Each index is taken by one thread, which holds it until its element is out.  The thread that empties
the last place of a block is the one that closes the block: it clears the entry and gives the block
back.

## Main result

`HoldInv.step`: every step keeps the invariant `HoldInv`.  It has two parts.  An index below the
head is emptied or held by one thread, never by two and never both; and a block is closed, unlinked
and released by one thread, after all of its 32 places are empty.  `HoldInv.not_mem_unlinked` and
`HoldInv.not_mem_released` draw the conclusions that are used most: a block of which an index is
held is still in the block index and not in the pool.

There is a lemma for each of the four steps that change who holds what: `HoldInv.take`,
`HoldInv.empty`, `HoldInv.unlink` and `HoldInv.release`.  `HoldInv.goto` and `HoldInv.of_eq` are for
all others.  That the last place is emptied by one thread is counting: `card_insert_inter` adds the
place to the empty ones of its block, and `emptied_iff` says when these are all.

## Hypotheses

The step is one of `Moves`, and the counter of a block counts its empty places (`CountsPlaces`).
The latter is a fact about memory, proved in `Queue.Storage` from this invariant for the state
before the step.

## Where it is used

`Queue.BlockIndex`, `Queue.Storage` and `Queue.SubQueue`, where `blocks_of_run` is mostly this
invariant.
-/

namespace S3Proxy

namespace Queue

namespace ImplicitProducer

open Threads

variable {ι α : Type*}

/-- The index whose element a thread is about to take out. -/
def Consumer.index : Consumer → Option ℕ
  | .took k | .atHeader k _ | .atTail k _ _ | .atEntry k _ | .atBlock k _ _ | .moved k _ _ => some k
  | _ => none

/-- The block that a thread is about to give back. -/
def Consumer.closing : Consumer → Option ℕ
  | .unlinking k _ _ | .releasing k _ => some (k / blockSize)
  | _ => none

/-- The indices of a block. -/
def indices (n : ℕ) : Finset ℕ := Finset.Ico (n * blockSize) (n * blockSize + blockSize)

@[simp] lemma mem_indices {k n : ℕ} : k ∈ indices n ↔ k / blockSize = n := by
  rw [indices, Finset.mem_Ico]
  unfold blockSize
  omega

lemma card_indices (n : ℕ) : (indices n).card = blockSize := by simp [indices]

/-- How many places of a block are empty. -/
def emptiedIn (s : State ι α) (n : ℕ) : ℕ := (s.emptied ∩ indices n).card

def Emptied (s : State ι α) (n : ℕ) : Prop := indices n ⊆ s.emptied

lemma emptied_iff {s : State ι α} {n : ℕ} : Emptied s n ↔ emptiedIn s n = blockSize := by
  rw [Emptied, emptiedIn, ← Finset.inter_eq_right]
  constructor
  · intro h
    rw [h, card_indices]
  · intro h
    exact Finset.eq_of_subset_of_card_le Finset.inter_subset_right (by rw [h, card_indices])

structure HoldInv (s : State ι α) : Prop where
  index : ∀ i k, (s.consumers i).index = some k → k < s.headIndex ∧ k ∉ s.emptied
  index_distinct : Distinct Consumer.index s.consumers
  emptied_lt : ∀ k ∈ s.emptied, k < s.headIndex
  covered : ∀ k < s.headIndex, k ∈ s.emptied ∨ Occurs Consumer.index s.consumers k
  closing : ∀ i n, (s.consumers i).closing = some n → Emptied s n ∧ n ∉ s.released
  closing_distinct : Distinct Consumer.closing s.consumers
  unlinking : ∀ i k e b, s.consumers i = .unlinking k e b → k / blockSize ∉ s.unlinked
  releasing : ∀ i k b, s.consumers i = .releasing k b → k / blockSize ∈ s.unlinked
  unlinked : ∀ n ∈ s.unlinked, Emptied s n
  released : s.released ⊆ s.unlinked
  /-- No block is forgotten. -/
  closed : ∀ n, Emptied s n → n ∈ s.released ∨ Occurs Consumer.closing s.consumers n

variable {s s' : State ι α}

/-- A block of which an index is held is not closed. -/
lemma HoldInv.not_mem_unlinked (h : HoldInv s) {i : ι} {k : ℕ}
    (hk : (s.consumers i).index = some k) : k / blockSize ∉ s.unlinked := by
  intro hmem
  exact (h.index i k hk).2 (h.unlinked _ hmem (mem_indices.mpr rfl))

lemma HoldInv.not_mem_released (h : HoldInv s) {k : ℕ} (hk : k ∉ s.emptied) :
    k / blockSize ∉ s.released :=
  fun hmem => hk (h.unlinked _ (h.released hmem) (mem_indices.mpr rfl))

lemma Emptied.mono {n : ℕ} (h : Emptied s n) (hle : s.emptied ⊆ s'.emptied) : Emptied s' n :=
  h.trans hle

variable [DecidableEq ι]

/-- A step of a thread that keeps what it holds. -/
lemma HoldInv.goto (h : HoldInv s) {i : ι} {q : Consumer} (hhead : s'.headIndex = s.headIndex)
    (hemptied : s'.emptied = s.emptied) (hunlinked : s'.unlinked = s.unlinked)
    (hreleased : s'.released = s.released)
    (hpcs : s'.consumers = Function.update s.consumers i q)
    (hindex : q.index = (s.consumers i).index) (hclosing : q.closing = none)
    (hclosing' : (s.consumers i).closing = none) : HoldInv s' := by
  have hemptied' (n : ℕ) : Emptied s' n ↔ Emptied s n := by rw [Emptied, Emptied, hemptied]
  have hview (j : ι) : (s'.consumers j).index = (s.consumers j).index := by
    rw [hpcs]
    by_cases hj : j = i
    · rw [hj, Function.update_self, hindex]
    · rw [Function.update_of_ne hj]
  have hold {n : ℕ} (j : ι) (hj : (s'.consumers j).closing = some n) :
      s'.consumers j = s.consumers j := by
    rw [hpcs] at hj ⊢
    by_cases hji : j = i
    · rw [hji, Function.update_self, hclosing] at hj
      cases hj
    · rw [Function.update_of_ne hji]
  exact {
    index := by
      intro j k hj
      rw [hview] at hj
      rw [hhead, hemptied]
      exact h.index j k hj
    index_distinct := by
      rw [hpcs]
      exact h.index_distinct.update_keep hindex
    emptied_lt := by
      rw [hemptied, hhead]
      exact h.emptied_lt
    covered := by
      intro k hk
      rw [hhead] at hk
      rw [hemptied]
      refine (h.covered k hk).imp_right fun ⟨j, hj⟩ => ⟨j, by rw [hview, hj]⟩
    closing := by
      intro j n hj
      rw [hold j hj] at hj
      rw [hemptied', hreleased]
      exact h.closing j n hj
    closing_distinct := by
      rw [hpcs]
      exact h.closing_distinct.update_none hclosing
    unlinking := by
      intro j k e b hj
      rw [hold j (by rw [hj]; rfl)] at hj
      rw [hunlinked]
      exact h.unlinking j k e b hj
    releasing := by
      intro j k b hj
      rw [hold j (by rw [hj]; rfl)] at hj
      rw [hunlinked]
      exact h.releasing j k b hj
    unlinked := by
      intro n hn
      rw [hunlinked] at hn
      exact (hemptied' n).mpr (h.unlinked n hn)
    released := by
      rw [hreleased, hunlinked]
      exact h.released
    closed := by
      intro n hn
      rw [hreleased, hpcs]
      exact (h.closed n ((hemptied' n).mp hn)).imp_right fun hoccurs =>
        hoccurs.update_none hclosing' }

omit [DecidableEq ι] in
/-- A step of the producer or of the rest of the queue. -/
lemma HoldInv.of_eq (h : HoldInv s) (hhead : s'.headIndex = s.headIndex)
    (hemptied : s'.emptied = s.emptied) (hunlinked : s'.unlinked = s.unlinked)
    (hreleased : s'.released = s.released) (hpcs : s'.consumers = s.consumers) : HoldInv s' := by
  have hemptied' (n : ℕ) : Emptied s' n ↔ Emptied s n := by rw [Emptied, Emptied, hemptied]
  constructor
  all_goals simp only [hhead, hemptied, hunlinked, hreleased, hpcs, hemptied']
  exacts [h.index, h.index_distinct, h.emptied_lt, h.covered, h.closing, h.closing_distinct,
    h.unlinking, h.releasing, h.unlinked, h.released, h.closed]

/-- The places of a block after one more is empty. -/
lemma card_insert_inter {emptied : Finset ℕ} {k : ℕ} (hk : k ∉ emptied) (n : ℕ) :
    (insert k emptied ∩ indices n).card =
      (emptied ∩ indices n).card + if k / blockSize = n then 1 else 0 := by
  by_cases hn : k / blockSize = n
  · rw [Finset.insert_inter_of_mem (mem_indices.mpr hn), if_pos hn, Finset.card_insert_of_notMem]
    exact fun hmem => hk (Finset.mem_inter.mp hmem).1
  · rw [Finset.insert_inter_of_notMem (fun hmem => hn (mem_indices.mp hmem)), if_neg hn, add_zero]

lemma HoldInv.take (h : HoldInv s) {i : ι} (hi : s.consumers i = .taking) :
    HoldInv ({ s with
      headIndex := s.headIndex + 1
      takers := s.takers.erase i }.goto i (.took s.headIndex)) where
  index := by
    refine (Function.forall_update_iff _
      fun _ q => ∀ k, Consumer.index q = some k → k < s.headIndex + 1 ∧ k ∉ s.emptied).mpr
      ⟨?_, fun j _ k hk => ?_⟩
    · rintro k ⟨⟩
      exact ⟨Nat.lt_succ_self _, fun hmem => (h.emptied_lt _ hmem).false⟩
    · obtain ⟨hlt, hmem⟩ := h.index j k hk
      exact ⟨Nat.lt_succ_of_lt hlt, hmem⟩
  index_distinct := by
    refine h.index_distinct.update_new rfl fun j _ hj => ?_
    exact (h.index j _ hj).1.false
  emptied_lt k hk := Nat.lt_succ_of_lt (h.emptied_lt k hk)
  covered k hk := by
    rcases Nat.lt_succ_iff_lt_or_eq.mp hk with hlt | rfl
    · exact (h.covered k hlt).imp_right fun hoccurs => hoccurs.update_none (by rw [hi]; rfl)
    · exact .inr (occurs_update_self rfl)
  closing := (Function.forall_update_iff _
    fun _ q => ∀ n, Consumer.closing q = some n → Emptied s n ∧ n ∉ s.released).mpr
    ⟨nofun, fun j _ => h.closing j⟩
  closing_distinct := h.closing_distinct.update_none rfl
  unlinking := (Function.forall_update_iff _
    fun _ q => ∀ k e b, q = Consumer.unlinking k e b → k / blockSize ∉ s.unlinked).mpr
    ⟨nofun, fun j _ => h.unlinking j⟩
  releasing := (Function.forall_update_iff _
    fun _ q => ∀ k b, q = Consumer.releasing k b → k / blockSize ∈ s.unlinked).mpr
    ⟨nofun, fun j _ => h.releasing j⟩
  unlinked := h.unlinked
  released := h.released
  closed n hn := (h.closed n hn).imp_right fun hoccurs => hoccurs.update_none (by rw [hi]; rfl)

lemma HoldInv.empty (h : HoldInv s) {i : ι} {k e b : ℕ} (hi : s.consumers i = .moved k e b)
    (hcount : (s.blocks b).elementsCompletelyDequeued = emptiedIn s (k / blockSize))
    (hemptied : s'.emptied = insert k s.emptied) (hhead : s'.headIndex = s.headIndex)
    (hunlinked : s'.unlinked = s.unlinked) (hreleased : s'.released = s.released)
    (hpcs : s'.consumers = Function.update s.consumers i
      (if (s.blocks b).elementsCompletelyDequeued = blockSize - 1 then .unlinking k e b
        else .idle)) : HoldInv s' := by
  obtain ⟨hlt, hk⟩ := h.index i k (by rw [hi]; rfl)
  have hmono : s.emptied ⊆ s'.emptied := by
    rw [hemptied]
    exact Finset.subset_insert ..
  have hother (j : ι) (hj : j ≠ i) {k' : ℕ} (hk' : (s.consumers j).index = some k') : k' ≠ k := by
    rintro rfl
    exact hj (h.index_distinct j i k' hk' (by rw [hi]; rfl))
  have hcard (n : ℕ) : emptiedIn s' n = emptiedIn s n + if k / blockSize = n then 1 else 0 := by
    rw [emptiedIn, hemptied, card_insert_inter hk, emptiedIn]
  have hopen : ¬ Emptied s (k / blockSize) := fun hall => hk (hall (mem_indices.mpr rfl))
  have hnot (n : ℕ) (hn : n ∈ s.unlinked) : n ≠ k / blockSize := by
    rintro rfl
    exact hopen (h.unlinked _ hn)
  -- The thread closes the block exactly if it emptied its last place.
  have hlast : (s.blocks b).elementsCompletelyDequeued = blockSize - 1 ↔
      Emptied s' (k / blockSize) := by
    rw [emptied_iff, hcard, hcount, if_pos rfl]
    unfold blockSize
    omega
  have hview (j : ι) (hj : j ≠ i) : s'.consumers j = s.consumers j := by
    rw [hpcs, Function.update_of_ne hj]
  have hself : s'.consumers i = .unlinking k e b ∧ Emptied s' (k / blockSize) ∨
      s'.consumers i = .idle ∧ ¬ Emptied s' (k / blockSize) := by
    rw [hpcs, Function.update_self]
    split
    · rename_i hc
      exact .inl ⟨rfl, hlast.mp hc⟩
    · rename_i hc
      exact .inr ⟨rfl, fun hall => hc (hlast.mpr hall)⟩
  constructor
  case index =>
    intro j k' hj
    by_cases hji : j = i
    · rw [hji] at hj
      rcases hself with ⟨hq, -⟩ | ⟨hq, -⟩ <;> · rw [hq] at hj; cases hj
    · rw [hview j hji] at hj
      obtain ⟨hlt', hk'⟩ := h.index j k' hj
      rw [hhead, hemptied, Finset.mem_insert, not_or]
      exact ⟨hlt', hother j hji hj, hk'⟩
  case index_distinct =>
    rw [hpcs]
    apply h.index_distinct.update_none
    split <;> rfl
  case emptied_lt =>
    intro k' hk'
    rw [hemptied] at hk'
    rw [hhead]
    rcases Finset.mem_insert.mp hk' with rfl | hk'
    · exact hlt
    · exact h.emptied_lt k' hk'
  case covered =>
    intro k' hk'
    rw [hhead] at hk'
    rcases h.covered k' hk' with hmem | ⟨j, hj⟩
    · exact .inl (hmono hmem)
    · by_cases hji : j = i
      · left
        rw [hji, hi] at hj
        cases hj
        rw [hemptied]
        exact Finset.mem_insert_self ..
      · exact .inr ⟨j, by rw [hview j hji, hj]⟩
  case closing =>
    intro j n hj
    by_cases hji : j = i
    · rw [hji] at hj
      rcases hself with ⟨hq, hall⟩ | ⟨hq, -⟩
      · rw [hq] at hj
        cases hj
        rw [hreleased]
        exact ⟨hall, h.not_mem_released hk⟩
      · rw [hq] at hj
        cases hj
    · rw [hview j hji] at hj
      rw [hreleased]
      exact ⟨(h.closing j n hj).1.mono hmono, (h.closing j n hj).2⟩
  case closing_distinct =>
    rw [hpcs]
    split
    · refine h.closing_distinct.update_new rfl fun j _ hj => ?_
      exact hopen (h.closing j _ hj).1
    · exact h.closing_distinct.update_none rfl
  case unlinking =>
    intro j k' e' b' hj
    rw [hunlinked]
    by_cases hji : j = i
    · rw [hji] at hj
      rcases hself with ⟨hq, -⟩ | ⟨hq, -⟩
      · rw [hq] at hj
        cases hj
        exact fun hmem => hnot _ hmem rfl
      · rw [hq] at hj
        cases hj
    · rw [hview j hji] at hj
      exact h.unlinking j k' e' b' hj
  case releasing =>
    intro j k' b' hj
    rw [hunlinked]
    by_cases hji : j = i
    · rw [hji] at hj
      rcases hself with ⟨hq, -⟩ | ⟨hq, -⟩ <;> · rw [hq] at hj; cases hj
    · rw [hview j hji] at hj
      exact h.releasing j k' b' hj
  case unlinked =>
    intro n hn
    rw [hunlinked] at hn
    exact (h.unlinked n hn).mono hmono
  case released =>
    rw [hreleased, hunlinked]
    exact h.released
  case closed =>
    intro n hn
    rw [hreleased]
    by_cases hnk : k / blockSize = n
    · subst hnk
      right
      rcases hself with ⟨hq, -⟩ | ⟨-, hall⟩
      · exact ⟨i, by rw [hq]; rfl⟩
      · exact absurd hn hall
    · have hn' : Emptied s n := by
        rw [emptied_iff] at hn ⊢
        rw [← hn, hcard, if_neg hnk, add_zero]
      rw [hpcs]
      exact (h.closed n hn').imp_right fun hoccurs => hoccurs.update_none (by rw [hi]; rfl)

lemma HoldInv.unlink (h : HoldInv s) {i : ι} {k e b : ℕ} (hi : s.consumers i = .unlinking k e b)
    (hhead : s'.headIndex = s.headIndex) (hemptied : s'.emptied = s.emptied)
    (hunlinked : s'.unlinked = insert (k / blockSize) s.unlinked)
    (hreleased : s'.released = s.released)
    (hpcs : s'.consumers = Function.update s.consumers i (.releasing k b)) : HoldInv s' := by
  have hclosing : (s.consumers i).closing = some (k / blockSize) := by rw [hi]; rfl
  have hview (j : ι) : (s'.consumers j).closing = (s.consumers j).closing := by
    rw [hpcs]
    by_cases hj : j = i
    · rw [hj, Function.update_self, hclosing]
      rfl
    · rw [Function.update_of_ne hj]
  have hemptied' (n : ℕ) : Emptied s' n ↔ Emptied s n := by rw [Emptied, Emptied, hemptied]
  constructor
  case index =>
    rw [hpcs, hhead, hemptied]
    exact (Function.forall_update_iff _
      fun _ q => ∀ k, Consumer.index q = some k → k < s.headIndex ∧ k ∉ s.emptied).mpr
      ⟨nofun, fun j _ => h.index j⟩
  case index_distinct =>
    rw [hpcs]
    exact h.index_distinct.update_none rfl
  case emptied_lt =>
    rw [hemptied, hhead]
    exact h.emptied_lt
  case covered =>
    intro k' hk'
    rw [hhead] at hk'
    rw [hemptied, hpcs]
    exact (h.covered k' hk').imp_right fun hoccurs => hoccurs.update_none (by rw [hi]; rfl)
  case closing =>
    intro j n hj
    rw [hview] at hj
    rw [hemptied', hreleased]
    exact h.closing j n hj
  case closing_distinct =>
    rw [hpcs]
    exact h.closing_distinct.update_keep hclosing.symm
  case unlinking =>
    intro j k' e' b' hj
    have hji : j ≠ i := by
      rintro rfl
      rw [hpcs, Function.update_self] at hj
      cases hj
    rw [hpcs, Function.update_of_ne hji] at hj
    rw [hunlinked, Finset.mem_insert, not_or]
    refine ⟨fun heq => hji ?_, h.unlinking j k' e' b' hj⟩
    exact h.closing_distinct j i _ (by rw [hj]; exact congrArg some heq) hclosing
  case releasing =>
    intro j k' b' hj
    rw [hunlinked, Finset.mem_insert]
    by_cases hji : j = i
    · rw [hji, hpcs, Function.update_self] at hj
      cases hj
      exact .inl rfl
    · rw [hpcs, Function.update_of_ne hji] at hj
      exact .inr (h.releasing j k' b' hj)
  case unlinked =>
    intro n hn
    rw [hunlinked] at hn
    rw [hemptied']
    rcases Finset.mem_insert.mp hn with rfl | hn
    · exact (h.closing i _ hclosing).1
    · exact h.unlinked n hn
  case released =>
    rw [hreleased, hunlinked]
    exact h.released.trans (Finset.subset_insert ..)
  case closed =>
    intro n hn
    rw [hreleased]
    exact (h.closed n ((hemptied' n).mp hn)).imp_right fun ⟨j, hj⟩ => ⟨j, by rw [hview, hj]⟩

lemma HoldInv.release (h : HoldInv s) {i : ι} {k b : ℕ} (hi : s.consumers i = .releasing k b)
    (hhead : s'.headIndex = s.headIndex) (hemptied : s'.emptied = s.emptied)
    (hunlinked : s'.unlinked = s.unlinked)
    (hreleased : s'.released = insert (k / blockSize) s.released)
    (hpcs : s'.consumers = Function.update s.consumers i .idle) : HoldInv s' := by
  have hclosing : (s.consumers i).closing = some (k / blockSize) := by rw [hi]; rfl
  have hemptied' (n : ℕ) : Emptied s' n ↔ Emptied s n := by rw [Emptied, Emptied, hemptied]
  constructor
  case index =>
    rw [hpcs, hhead, hemptied]
    exact (Function.forall_update_iff _
      fun _ q => ∀ k, Consumer.index q = some k → k < s.headIndex ∧ k ∉ s.emptied).mpr
      ⟨nofun, fun j _ => h.index j⟩
  case index_distinct =>
    rw [hpcs]
    exact h.index_distinct.update_none rfl
  case emptied_lt =>
    rw [hemptied, hhead]
    exact h.emptied_lt
  case covered =>
    intro k' hk'
    rw [hhead] at hk'
    rw [hemptied, hpcs]
    exact (h.covered k' hk').imp_right fun hoccurs => hoccurs.update_none (by rw [hi]; rfl)
  case closing =>
    rw [hpcs]
    refine (Function.forall_update_iff _
      fun _ q => ∀ n, Consumer.closing q = some n → Emptied s' n ∧ n ∉ s'.released).mpr
      ⟨nofun, fun j hj n hn => ?_⟩
    obtain ⟨hall, hnot⟩ := h.closing j n hn
    rw [hemptied', hreleased, Finset.mem_insert, not_or]
    refine ⟨hall, fun heq => hj ?_, hnot⟩
    exact h.closing_distinct j i n hn (by rw [hclosing, heq])
  case closing_distinct =>
    rw [hpcs]
    exact h.closing_distinct.update_none rfl
  case unlinking =>
    rw [hpcs, hunlinked]
    exact (Function.forall_update_iff _
      fun _ q => ∀ k e b, q = Consumer.unlinking k e b → k / blockSize ∉ s.unlinked).mpr
      ⟨nofun, fun j _ => h.unlinking j⟩
  case releasing =>
    rw [hpcs, hunlinked]
    exact (Function.forall_update_iff _
      fun _ q => ∀ k b, q = Consumer.releasing k b → k / blockSize ∈ s.unlinked).mpr
      ⟨nofun, fun j _ => h.releasing j⟩
  case unlinked =>
    intro n hn
    rw [hunlinked] at hn
    exact (hemptied' n).mpr (h.unlinked n hn)
  case released =>
    rw [hreleased, hunlinked]
    exact Finset.insert_subset (h.releasing i k b hi) h.released
  case closed =>
    intro n hn
    rw [hreleased, Finset.mem_insert]
    rcases h.closed n ((hemptied' n).mp hn) with hmem | hoccurs
    · exact .inl (.inr hmem)
    · rcases hoccurs.update (i := i) (q := Consumer.idle) with hself | hoccurs
      · rw [hclosing] at hself
        cases hself
        exact .inl (.inl rfl)
      · rw [hpcs]
        exact .inr hoccurs

/-- The counter of a block counts its empty places. -/
def CountsPlaces (s : State ι α) : Prop :=
  ∀ i k e b, s.consumers i = .moved k e b →
    (s.blocks b).elementsCompletelyDequeued = emptiedIn s (k / blockSize)

lemma HoldInv.step (h : HoldInv s) (hcount : CountsPlaces s) {e : Label ι α}
    (hmove : Moves s e s') : HoldInv s' := by
  cases hmove with
  | take hi => exact h.take hi
  | empty hi => exact h.empty hi (hcount _ _ _ _ hi) rfl rfl rfl rfl rfl
  | unlink hi => exact h.unlink hi rfl rfl rfl rfl rfl
  | release hi => exact h.release hi rfl rfl rfl rfl rfl
  | call hi | overcommit hi | goOn hi | miss hi | claim hi | win hi | lose hi | giveBack hi
  | header hi | headerTail hi | entry hi | block hi | move hi =>
      exact h.goto rfl rfl rfl rfl rfl (by rw [hi]; rfl) rfl (by rw [hi]; rfl)
  | _ => exact h.of_eq rfl rfl rfl rfl rfl

end ImplicitProducer

end Queue

end S3Proxy
