import S3Proxy.Queue.BlockIndex

/-!
# The blocks

From the time a block is taken from the pool until it goes back it belongs to the sub-queue, and no
index outside of it lies there; an element stays at its place until it is taken out.

## Main results

Three invariants, each with its step lemma.

* `BlocksInv.step`: the blocks of the sub-queue that are not given back belong to it and are
  different ones, and the counter of each counts its empty places (`BlocksInv.countsPlaces`).
* `ElementsInv.step`: the element of every index that is not taken is at the place of the index, in
  the block that the block index has for it.
* `TakenInv.step`: what has been taken is recorded with its index and its thread, once for each
  index, and is the element that was enqueued under it.

`BlocksInv.setElement_of_ne` is the frame: writing at the place of one index leaves those of all
others alone, because two indices that are not emptied never share a place (`BlocksInv.place_ne`).
`ElementsInv.get_of_atBlock` reads off what a consumer finds when it has come to its block.

## Hypotheses

The step is one of `Moves`, and the invariants of `Queue.Counts`, `Queue.Holding` and
`Queue.BlockIndex` hold before it.  The rest of the queue may do what it likes with the blocks that
do not belong to this sub-queue.

## Where it is used

`Queue.SubQueue` has all invariants together and proves them for every run; `Queue.Fifo` states with
the record what comes out.
-/

namespace S3Proxy

namespace Queue

namespace ImplicitProducer

open Threads

variable {ι α : Type*}

/-- The index whose element a thread has just taken out. -/
def Consumer.emptying : Consumer → Option ℕ
  | .moved k _ _ => some k
  | _ => none

def State.takenIndices (s : State ι α) : List ℕ := s.taken.map fun t => t.2.1

def State.counter (s : State ι α) (b : ℕ) : ℕ := (s.blocks b).elementsCompletelyDequeued

/-- What is at the place of an index. -/
def State.element (s : State ι α) (k : ℕ) : Option α :=
  (s.blocks (s.blockOf (k / blockSize))).elements (k % blockSize)

structure BlocksInv (s : State ι α) : Prop where
  owned : ∀ n < s.linked, n ∉ s.released →
    s.owner (s.blockOf n) = .mine ∧ s.counter (s.blockOf n) = emptiedIn s n
  distinct : ∀ m < s.linked, ∀ n < s.linked, m ∉ s.released → n ∉ s.released →
    s.blockOf m = s.blockOf n → m = n
  linking : ∀ x e b, s.producer = .linking x e b →
    s.owner b = .mine ∧ s.counter b = 0 ∧ ∀ n < s.linked, n ∉ s.released → s.blockOf n ≠ b
  tailBlock : ∀ n, s.linked = n + 1 → s.tailBlock = some (s.blockOf n)

structure ElementsInv (s : State ι α) : Prop where
  length : s.enqueued.length = s.tailIndex
  element : ∀ k < s.tailIndex, k ∉ s.takenIndices → s.element k = s.enqueued[k]?
  publishing : ∀ x, s.producer = .publishing x → s.element s.tailIndex = some x

structure TakenInv (s : State ι α) : Prop where
  mem_iff : ∀ k, k ∈ s.takenIndices ↔ k ∈ s.emptied ∨ Occurs Consumer.emptying s.consumers k
  get : ∀ i k x, (i, k, x) ∈ s.taken → s.enqueued[k]? = some x
  nodup : s.takenIndices.Nodup

variable {s s' : State ι α}

lemma IndexInv.linked_eq_of_constructing (h : IndexInv s) {x : α}
    (hp : s.producer = .constructing x) : s.linked = s.tailIndex / blockSize + 1 := by
  have hplaced := h.placed
  rw [hp] at hplaced
  exact hplaced.2.symm

lemma IndexInv.linked_eq_of_publishing (h : IndexInv s) {x : α}
    (hp : s.producer = .publishing x) : s.linked = s.tailIndex / blockSize + 1 := by
  have hplaced := h.placed
  rw [hp] at hplaced
  exact hplaced.2.symm

/-- An index that is not emptied lies in a block that is still there. -/
lemma HoldInv.not_mem_emptied (h : HoldInv s) (hcount : CountInv s) {k : ℕ}
    (hk : s.tailIndex ≤ k) : k ∉ s.emptied := by
  intro hmem
  have hlt := h.emptied_lt k hmem
  have hle := hcount.headIndex_le
  omega

/-! ### The blocks -/

/-- A step that neither takes a block nor gives one back. -/
lemma BlocksInv.of_eq (h : BlocksInv s) (hlinked : s'.linked = s.linked)
    (hblock : s'.blockOf = s.blockOf) (hreleased : s'.released = s.released)
    (htailBlock : s'.tailBlock = s.tailBlock) (hemptied : s'.emptied = s.emptied)
    (hmine : ∀ b, s.owner b = .mine → s'.owner b = .mine ∧ s'.counter b = s.counter b)
    (hlinking : ∀ x e b, s'.producer = .linking x e b → s.producer = .linking x e b) :
    BlocksInv s' where
  owned n hn hmem := by
    rw [hlinked] at hn
    rw [hreleased] at hmem
    obtain ⟨howner, hcounter⟩ := h.owned n hn hmem
    rw [hblock, emptiedIn, hemptied, (hmine _ howner).2, hcounter]
    exact ⟨(hmine _ howner).1, rfl⟩
  distinct := by
    rw [hlinked, hreleased, hblock]
    exact h.distinct
  linking x e b hp := by
    obtain ⟨howner, hcounter, hne⟩ := h.linking x e b (hlinking x e b hp)
    rw [hlinked, hreleased, hblock, (hmine b howner).2]
    exact ⟨(hmine b howner).1, hcounter, hne⟩
  tailBlock := by
    rw [hlinked, hblock, htailBlock]
    exact h.tailBlock

/-- The counter of a block counts its empty places. -/
lemma BlocksInv.countsPlaces (h : BlocksInv s) (hindex : IndexInv s) (hhold : HoldInv s) :
    CountsPlaces s := by
  intro i k e b hi
  have hlocated := hindex.located i
  rw [hi] at hlocated
  obtain ⟨hk, -, rfl⟩ := hlocated
  exact (h.owned _ hk (hhold.not_mem_released (hhold.index i k (by rw [hi]; rfl)).2)).2

lemma BlocksInv.step [DecidableEq ι] (h : BlocksInv s) (hcount : CountInv s) (hhold : HoldInv s)
    (hindex : IndexInv s) {l : Label ι α} (hmove : Moves s l s') : BlocksInv s' := by
  cases hmove with
  | @requisition x e b hp hpool =>
      have hne (c : ℕ) (hc : s.owner c = .mine) : c ≠ b := by
        rintro rfl
        rw [hpool] at hc
        cases hc
      have hcounter (c : ℕ) (hc : c ≠ b) : (Function.update s.blocks b
          { s.blocks b with elementsCompletelyDequeued := 0 } c).elementsCompletelyDequeued =
            s.counter c := by
        rw [Function.update_of_ne hc]
        rfl
      constructor
      case owned =>
        intro n hn hmem
        obtain ⟨howner, hcount'⟩ := h.owned n hn hmem
        refine ⟨?_, (hcounter _ (hne _ howner)).trans hcount'⟩
        show Function.update s.owner b .mine (s.blockOf n) = .mine
        rw [Function.update_of_ne (hne _ howner), howner]
      case distinct => exact h.distinct
      case linking =>
        rintro x' e' b' ⟨⟩
        refine ⟨Function.update_self .., ?_, fun n hn hmem => hne _ (h.owned n hn hmem).1⟩
        show (Function.update s.blocks b _ b).elementsCompletelyDequeued = 0
        rw [Function.update_self]
      case tailBlock => exact h.tailBlock
  | @link x e b hp =>
      obtain ⟨howner, hcounter, hne⟩ := h.linking x e b hp
      have hplaced := hindex.placed
      rw [hp] at hplaced
      have hold (n : ℕ) (hn : n < s.linked) :
          Function.update s.blockOf s.linked b n = s.blockOf n := Function.update_of_ne hn.ne ..
      have hnew : Function.update s.blockOf s.linked b s.linked = b := Function.update_self ..
      -- Nothing of the new block is emptied.
      have hempty : emptiedIn s s.linked = 0 := by
        refine Finset.card_eq_zero.mpr (Finset.eq_empty_of_forall_notMem fun k hk => ?_)
        obtain ⟨hk, hk'⟩ := Finset.mem_inter.mp hk
        rw [mem_indices] at hk'
        refine hhold.not_mem_emptied hcount ?_ hk
        have := hplaced.2.1
        unfold blockSize at *
        omega
      constructor
      case owned =>
        intro n hn hmem
        show s.owner (Function.update s.blockOf s.linked b n) = .mine ∧
          s.counter (Function.update s.blockOf s.linked b n) = emptiedIn s n
        rcases Nat.lt_succ_iff_lt_or_eq.mp hn with hlt | rfl
        · rw [hold n hlt]
          exact h.owned n hlt hmem
        · rw [hnew, hempty]
          exact ⟨howner, hcounter⟩
      case distinct =>
        intro m hm n hn hm' hn'
        show Function.update s.blockOf s.linked b m = Function.update s.blockOf s.linked b n → _
        rcases Nat.lt_succ_iff_lt_or_eq.mp hm with hlt | rfl <;>
          rcases Nat.lt_succ_iff_lt_or_eq.mp hn with hlt' | rfl
        · rw [hold m hlt, hold n hlt']
          exact h.distinct m hlt n hlt' hm' hn'
        · rw [hold m hlt, hnew]
          exact fun heq => absurd heq (hne m hlt hm')
        · rw [hold n hlt', hnew]
          exact fun heq => absurd heq.symm (hne n hlt' hn')
        · exact fun _ => rfl
      case linking => nofun
      case tailBlock =>
        intro n hn
        obtain rfl : s.linked = n := Nat.succ_injective hn
        exact congrArg some hnew.symm
  | @empty i k e b hi =>
      have hlocated := hindex.located i
      rw [hi] at hlocated
      obtain ⟨hk, -, rfl⟩ := hlocated
      obtain ⟨-, hkmem⟩ := hhold.index i k (by rw [hi]; rfl)
      have hmem := hhold.not_mem_released hkmem
      set b := s.blockOf (k / blockSize) with hb
      have hother (c : ℕ) (hc : c ≠ b) : (Function.update s.blocks b
          { s.blocks b with elementsCompletelyDequeued := s.counter b + 1 } c) = s.blocks c :=
        Function.update_of_ne hc ..
      have hself : (Function.update s.blocks b { s.blocks b with
          elementsCompletelyDequeued := s.counter b + 1 } b).elementsCompletelyDequeued =
            s.counter b + 1 := by rw [Function.update_self]
      constructor
      case owned =>
        intro n hn hmem'
        obtain ⟨howner, hcounter⟩ := h.owned n hn hmem'
        refine ⟨howner, ?_⟩
        show (Function.update s.blocks b _ (s.blockOf n)).elementsCompletelyDequeued =
          (insert k s.emptied ∩ indices n).card
        rw [card_insert_inter hkmem]
        by_cases hkn : k / blockSize = n
        · rw [if_pos hkn, ← hkn]
          apply hself.trans
          rw [← hkn] at hcounter
          exact congrArg (· + 1) hcounter
        · have hne : s.blockOf n ≠ b := fun heq =>
            hkn (h.distinct n hn _ hk hmem' hmem heq).symm
          rw [if_neg hkn]
          exact (congrArg Block.elementsCompletelyDequeued (hother _ hne)).trans hcounter
      case distinct => exact h.distinct
      case linking =>
        intro x e' b' hp
        obtain ⟨howner, hcounter, hne⟩ := h.linking x e' b' hp
        refine ⟨howner, ?_, hne⟩
        exact (congrArg Block.elementsCompletelyDequeued
          (hother b' (hne _ hk hmem).symm)).trans hcounter
      case tailBlock => exact h.tailBlock
  | @release i k b hi =>
      have hlocated := hindex.located i
      rw [hi] at hlocated
      obtain ⟨hk, rfl⟩ := hlocated
      obtain ⟨-, hmem⟩ := hhold.closing i (k / blockSize) (by rw [hi]; rfl)
      have hnot {n : ℕ} (hn : n ∉ insert (k / blockSize) s.released) :
          n ≠ k / blockSize ∧ n ∉ s.released := by rwa [Finset.mem_insert, not_or] at hn
      constructor
      case owned =>
        intro n hn hmem'
        obtain ⟨hne, hmem'⟩ := hnot hmem'
        obtain ⟨howner, hcounter⟩ := h.owned n hn hmem'
        refine ⟨?_, hcounter⟩
        show Function.update s.owner _ _ (s.blockOf n) = .mine
        rw [Function.update_of_ne, howner]
        exact fun heq => hne (h.distinct n hn _ hk hmem' hmem heq)
      case distinct =>
        intro m hm n hn hm' hn'
        exact h.distinct m hm n hn (hnot hm').2 (hnot hn').2
      case linking =>
        intro x e' b' hp
        obtain ⟨howner, hcounter, hne⟩ := h.linking x e' b' hp
        refine ⟨?_, hcounter, fun n hn hn' => hne n hn (hnot hn').2⟩
        show Function.update s.owner _ _ b' = .mine
        rw [Function.update_of_ne (hne _ hk hmem).symm, howner]
      case tailBlock => exact h.tailBlock
  | @move i k e b x hi _ =>
      refine h.of_eq rfl rfl rfl rfl rfl (fun c hc => ⟨hc, ?_⟩) fun _ _ _ => id
      show (Function.update s.blocks b _ c).elementsCompletelyDequeued = s.counter c
      by_cases hcb : c = b
      · rw [hcb, Function.update_self]
        rfl
      · rw [Function.update_of_ne hcb]
        rfl
  | @construct x b hp _ =>
      refine h.of_eq rfl rfl rfl rfl rfl (fun c hc => ⟨hc, ?_⟩) nofun
      show (Function.update s.blocks b _ c).elementsCompletelyDequeued = s.counter c
      by_cases hcb : c = b
      · rw [hcb, Function.update_self]
        rfl
      · rw [Function.update_of_ne hcb]
        rfl
  | @othersTake b hb | @othersGive b hb =>
      refine h.of_eq rfl rfl rfl rfl rfl (fun c hc => ⟨?_, rfl⟩) fun _ _ _ => id
      show Function.update s.owner b _ c = .mine
      rw [Function.update_of_ne, hc]
      rintro rfl
      rw [hb] at hc
      cases hc
  | @othersUse b contents hb =>
      refine h.of_eq rfl rfl rfl rfl rfl (fun c hc => ⟨hc, ?_⟩) fun _ _ _ => id
      show (Function.update s.blocks b contents c).elementsCompletelyDequeued = s.counter c
      rw [Function.update_of_ne]
      · rfl
      · rintro rfl
        rw [hb] at hc
        cases hc
  | enqueue | enqueueInside | checked | reuse | grow | key | advance | publish =>
      exact h.of_eq rfl rfl rfl rfl rfl (fun _ hc => ⟨hc, rfl⟩) nofun
  | _ => exact h.of_eq rfl rfl rfl rfl rfl (fun _ hc => ⟨hc, rfl⟩) fun _ _ _ => id

/-! ### The elements -/

/-- The block of an index belongs to the sub-queue until the index is emptied. -/
lemma BlocksInv.mine (h : BlocksInv s) (hhold : HoldInv s) {k : ℕ} (hk : k / blockSize < s.linked)
    (hmem : k ∉ s.emptied) : s.owner (s.blockOf (k / blockSize)) = .mine :=
  (h.owned _ hk (hhold.not_mem_released hmem)).1

/-- Different indices have different places. -/
lemma BlocksInv.place_ne (h : BlocksInv s) (hhold : HoldInv s) {k m : ℕ} (hne : m ≠ k)
    (hk : k / blockSize < s.linked) (hkmem : k ∉ s.emptied) (hm : m / blockSize < s.linked)
    (hmmem : m ∉ s.emptied) (hblock : s.blockOf (m / blockSize) = s.blockOf (k / blockSize)) :
    m % blockSize ≠ k % blockSize := by
  have heq := h.distinct _ hm _ hk (hhold.not_mem_released hmmem) (hhold.not_mem_released hkmem)
    hblock
  unfold blockSize at *
  omega

/-- The blocks after something is put at a place, or taken from there. -/
def State.setElement (s : State ι α) (b k : ℕ) (x : Option α) : ℕ → Block α :=
  Function.update s.blocks b { s.blocks b with
    elements := Function.update (s.blocks b).elements (k % blockSize) x }

lemma setElement_self (s : State ι α) (b k : ℕ) (x : Option α) :
    (s.setElement b k x b).elements (k % blockSize) = x := by
  rw [State.setElement, Function.update_self]
  exact Function.update_self ..

lemma BlocksInv.setElement_of_ne (h : BlocksInv s) (hhold : HoldInv s) {k m : ℕ} {x : Option α}
    (hne : m ≠ k) (hk : k / blockSize < s.linked) (hkmem : k ∉ s.emptied)
    (hm : m / blockSize < s.linked) (hmmem : m ∉ s.emptied) :
    (s.setElement (s.blockOf (k / blockSize)) k x (s.blockOf (m / blockSize))).elements
      (m % blockSize) = s.element m := by
  rw [State.setElement, State.element]
  by_cases hblock : s.blockOf (m / blockSize) = s.blockOf (k / blockSize)
  · rw [hblock, Function.update_self]
    exact Function.update_of_ne (h.place_ne hhold hne hk hkmem hm hmmem hblock) ..
  · rw [Function.update_of_ne hblock]

/-- A step that puts no element anywhere and takes none. -/
lemma ElementsInv.of_eq (h : ElementsInv s) (hcount : CountInv s) (hhold : HoldInv s)
    (hindex : IndexInv s) (htaken : TakenInv s) (htail : s'.tailIndex = s.tailIndex)
    (henqueued : s'.enqueued = s.enqueued) (hindices : s'.takenIndices = s.takenIndices)
    (helement : ∀ k, k / blockSize < s.linked → k ∉ s.emptied → s'.element k = s.element k)
    (hpublishing : ∀ x, s'.producer = .publishing x → s.producer = .publishing x) :
    ElementsInv s' where
  length := by rw [henqueued, htail, h.length]
  element k hk hmem := by
    rw [htail] at hk
    rw [hindices] at hmem
    rw [henqueued, helement k (hindex.linked_of_lt hk)
      fun hempty => hmem ((htaken.mem_iff k).mpr (.inl hempty))]
    exact h.element k hk hmem
  publishing x hp := by
    have hp' := hpublishing x hp
    rw [htail, helement _ (by rw [hindex.linked_eq_of_publishing hp']; exact Nat.lt_succ_self _)
      (hhold.not_mem_emptied hcount le_rfl)]
    exact h.publishing x hp'

lemma ElementsInv.step [DecidableEq ι] (h : ElementsInv s) (hcount : CountInv s)
    (hhold : HoldInv s) (hindex : IndexInv s) (hblocks : BlocksInv s) (htaken : TakenInv s)
    {l : Label ι α} (hmove : Moves s l s') : ElementsInv s' := by
  have hempty {k : ℕ} (hk : k ∉ s.takenIndices) : k ∉ s.emptied :=
    fun hmem => hk ((htaken.mem_iff k).mpr (.inl hmem))
  cases hmove with
  | @construct x b hp hb =>
      have hlinked := hindex.linked_eq_of_constructing hp
      have htail := hhold.not_mem_emptied hcount le_rfl
      obtain rfl : s.blockOf (s.tailIndex / blockSize) = b :=
        Option.some.inj ((hblocks.tailBlock _ hlinked).symm.trans hb)
      have hlt : s.tailIndex / blockSize < s.linked := by
        rw [hlinked]
        exact Nat.lt_succ_self _
      constructor
      case length => exact h.length
      case element =>
        intro k hk hmem
        refine Eq.trans ?_ (h.element k hk hmem)
        exact hblocks.setElement_of_ne hhold hk.ne hlt htail (hindex.linked_of_lt hk) (hempty hmem)
      case publishing =>
        rintro x' ⟨⟩
        exact setElement_self s _ _ _
  | @publish x hp =>
      constructor
      case length =>
        show (s.enqueued ++ [x]).length = s.tailIndex + 1
        rw [List.length_append, h.length]
        rfl
      case element =>
        intro k hk hmem
        show s.element k = (s.enqueued ++ [x])[k]?
        rcases Nat.lt_succ_iff_lt_or_eq.mp hk with hlt | rfl
        · rw [List.getElem?_append_left (by rwa [h.length])]
          exact h.element k hlt hmem
        · rw [← h.length, List.getElem?_concat_length, h.length]
          exact h.publishing x hp
      case publishing => nofun
  | @move i k e b x hi _ =>
      obtain ⟨hk, hkmem⟩ := hhold.index i k (by rw [hi]; rfl)
      have hle := hcount.headIndex_le
      have hlocated := hindex.located i
      rw [hi] at hlocated
      obtain ⟨hlt, -, rfl⟩ := hlocated
      constructor
      case length => exact h.length
      case element =>
        intro m hm hmem
        have hmem' : m ∉ s.takenIndices ∧ m ≠ k := by
          have hnot : m ∉ (s.taken ++ [(i, k, x)]).map fun t => t.2.1 := hmem
          rw [List.map_append, List.mem_append, not_or] at hnot
          exact ⟨hnot.1, by simpa using hnot.2⟩
        refine Eq.trans ?_ (h.element m hm hmem'.1)
        exact hblocks.setElement_of_ne hhold hmem'.2 hlt hkmem (hindex.linked_of_lt hm)
          (hempty hmem'.1)
      case publishing =>
        intro y hp
        refine Eq.trans ?_ (h.publishing y hp)
        have hlinked := hindex.linked_eq_of_publishing hp
        refine hblocks.setElement_of_ne hhold (hk.trans_le hle).ne' hlt hkmem ?_
          (hhold.not_mem_emptied hcount le_rfl)
        rw [hlinked]
        exact Nat.lt_succ_self _
  | @requisition x e b hp hb =>
      refine h.of_eq hcount hhold hindex htaken rfl rfl rfl (fun k _ _ => ?_) nofun
      show (Function.update s.blocks b _ (s.blockOf (k / blockSize))).elements _ = s.element k
      by_cases hc : s.blockOf (k / blockSize) = b
      · rw [hc, Function.update_self, ← hc]
        rfl
      · rw [Function.update_of_ne hc]
        rfl
  | @empty i k e b hi =>
      refine h.of_eq hcount hhold hindex htaken rfl rfl rfl (fun m _ _ => ?_) fun _ => id
      show (Function.update s.blocks b _ (s.blockOf (m / blockSize))).elements _ = s.element m
      by_cases hc : s.blockOf (m / blockSize) = b
      · rw [hc, Function.update_self, ← hc]
        rfl
      · rw [Function.update_of_ne hc]
        rfl
  | @link x e b hp =>
      refine h.of_eq hcount hhold hindex htaken rfl rfl rfl (fun k hk _ => ?_) nofun
      show (s.blocks (Function.update s.blockOf s.linked b (k / blockSize))).elements _ = _
      rw [Function.update_of_ne hk.ne]
      rfl
  | @othersUse b contents hb =>
      refine h.of_eq hcount hhold hindex htaken rfl rfl rfl (fun k hk hmem => ?_) fun _ => id
      have hmine := hblocks.mine hhold hk hmem
      have hne : s.blockOf (k / blockSize) ≠ b := by
        intro heq
        rw [heq, hb] at hmine
        cases hmine
      exact congrArg (fun x : Block α => x.elements (k % blockSize)) (Function.update_of_ne hne ..)
  | enqueue | enqueueInside | checked | reuse | grow | key | advance =>
      exact h.of_eq hcount hhold hindex htaken rfl rfl rfl (fun _ _ _ => rfl) nofun
  | _ => exact h.of_eq hcount hhold hindex htaken rfl rfl rfl (fun _ _ _ => rfl) fun _ => id

/-- The element whose index a consumer holds is at its place. -/
lemma ElementsInv.get_of_atBlock (h : ElementsInv s) (hcount : CountInv s) (hhold : HoldInv s)
    (hindex : IndexInv s) (htaken : TakenInv s) {i : ι} {k e b : ℕ}
    (hi : s.consumers i = .atBlock k e b) :
    k ∉ s.takenIndices ∧ (s.blocks b).elements (k % blockSize) = s.enqueued[k]? := by
  obtain ⟨hk, hkmem⟩ := hhold.index i k (by rw [hi]; rfl)
  have hle := hcount.headIndex_le
  have hlocated := hindex.located i
  rw [hi] at hlocated
  obtain ⟨-, -, rfl⟩ := hlocated
  have hnot : k ∉ s.takenIndices := by
    rw [htaken.mem_iff]
    rintro (hmem | ⟨j, hj⟩)
    · exact hkmem hmem
    · have hj' : (s.consumers j).index = some k := by
        cases hq : s.consumers j <;> simp_all [Consumer.emptying, Consumer.index]
      obtain rfl := hhold.index_distinct j i k hj' (by rw [hi]; rfl)
      rw [hi] at hj
      cases hj
  exact ⟨hnot, h.element k (hk.trans_le hle) hnot⟩

/-! ### What is taken -/

variable [DecidableEq ι]

/-- A step that neither takes an element out nor empties its place. -/
lemma TakenInv.goto (h : TakenInv s) {i : ι} {q : Consumer} (htaken : s'.taken = s.taken)
    (hemptied : s'.emptied = s.emptied) (henqueued : s'.enqueued = s.enqueued)
    (hpcs : s'.consumers = Function.update s.consumers i q) (hq : q.emptying = none)
    (hi : (s.consumers i).emptying = none) : TakenInv s' where
  mem_iff k := by
    rw [State.takenIndices, htaken, hemptied, hpcs]
    refine (h.mem_iff k).trans (or_congr_right ⟨fun hoccurs => hoccurs.update_none hi, ?_⟩)
    exact fun hoccurs => hoccurs.of_update_none hq
  get := by
    rw [htaken, henqueued]
    exact h.get
  nodup := by
    rw [State.takenIndices, htaken]
    exact h.nodup

omit [DecidableEq ι] in
lemma TakenInv.of_eq (h : TakenInv s) (htaken : s'.taken = s.taken)
    (hemptied : s'.emptied = s.emptied) (henqueued : s.enqueued <+: s'.enqueued)
    (hpcs : s'.consumers = s.consumers) : TakenInv s' where
  mem_iff k := by
    rw [State.takenIndices, htaken, hemptied, hpcs]
    exact h.mem_iff k
  get i k x hmem := by
    rw [htaken] at hmem
    have hget := h.get i k x hmem
    obtain ⟨ys, hys⟩ := henqueued
    rw [← hys, List.getElem?_append_left (List.getElem?_eq_some_iff.mp hget).1, hget]
  nodup := by
    rw [State.takenIndices, htaken]
    exact h.nodup

lemma TakenInv.step (h : TakenInv s) (hcount : CountInv s) (hhold : HoldInv s)
    (hindex : IndexInv s) (helements : ElementsInv s) {l : Label ι α} (hmove : Moves s l s') :
    TakenInv s' := by
  cases hmove with
  | @move i k e b x hi hx =>
      obtain ⟨hnot, hget⟩ := helements.get_of_atBlock hcount hhold hindex h hi
      have hindices : (s.taken ++ [(i, k, x)]).map (fun t => t.2.1) = s.takenIndices ++ [k] := by
        rw [List.map_append]
        rfl
      constructor
      case mem_iff =>
        intro m
        show m ∈ (s.taken ++ [(i, k, x)]).map (fun t => t.2.1) ↔ _
        rw [hindices, List.mem_append, List.mem_singleton]
        constructor
        · rintro (hmem | rfl)
          · exact ((h.mem_iff m).mp hmem).imp_right fun hoccurs =>
              hoccurs.update_none (by rw [hi]; rfl)
          · exact .inr (occurs_update_self rfl)
        · rintro (hmem | hoccurs)
          · exact .inl ((h.mem_iff m).mpr (.inl hmem))
          · rcases hoccurs.of_update with hself | hoccurs
            · cases hself
              exact .inr rfl
            · exact .inl ((h.mem_iff m).mpr (.inr hoccurs))
      case get =>
        intro j m y hmem
        rcases List.mem_append.mp hmem with hmem | hmem
        · exact h.get j m y hmem
        · cases List.mem_singleton.mp hmem
          exact hget.symm.trans hx
      case nodup =>
        show ((s.taken ++ [(i, k, x)]).map (fun t => t.2.1)).Nodup
        rw [hindices]
        exact List.nodup_append.mpr ⟨h.nodup, List.nodup_singleton k, by
          rintro m hm n hn rfl
          rw [List.mem_singleton.mp hn] at hm
          exact hnot hm⟩
  | @empty i k e b hi =>
      constructor
      case mem_iff =>
        intro m
        refine (h.mem_iff m).trans ?_
        show _ ↔ m ∈ insert k s.emptied ∨ _
        rw [Finset.mem_insert]
        constructor
        · rintro (hmem | hoccurs)
          · exact .inl (.inr hmem)
          · rcases hoccurs.update with hself | hoccurs
            · rw [hi] at hself
              cases hself
              exact .inl (.inl rfl)
            · exact .inr hoccurs
        · rintro ((rfl | hmem) | hoccurs)
          · exact .inr ⟨i, by rw [hi]; rfl⟩
          · exact .inl hmem
          · refine .inr (hoccurs.of_update_none ?_)
            split <;> rfl
      case get => exact h.get
      case nodup => exact h.nodup
  | publish => exact h.of_eq rfl rfl (List.prefix_append ..) rfl
  | call hi | overcommit hi | goOn hi | miss hi | claim hi | win hi | lose hi | giveBack hi
  | take hi | header hi | headerTail hi | entry hi | block hi | unlink hi | release hi =>
      exact h.goto rfl rfl rfl rfl rfl (by rw [hi]; rfl)
  | _ => exact h.of_eq rfl rfl List.prefix_rfl rfl

end ImplicitProducer

end Queue

end S3Proxy
