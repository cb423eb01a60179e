import S3Proxy.Queue.Storage

/-!
# Runs of a sub-queue

As long as the words do not wrap around, every step of the program is one of `Moves`
(`moves_of_step`), and the invariants hold in every state that a run reaches.

## Main results

`safe_of_run`: in every state of every run the assertions of the source hold, and no thread gets
stuck.  A consumer always finds the entry of its index, a block there and an element in it, and the
producer always finds room for the next element; all that it ever waits for is a block from the
pool.

`blocks_of_run`: no block is lost, and none is given back too early or twice.  The blocks that the
sub-queue has not given back belong to it and are different ones; those that it has given back have
had their 32 elements taken out; and where no thread is in the middle of a call these are all the
blocks whose elements are out.

`Inv` has the invariants of the four modules before this one, and `Inv.step` is their step lemmas in
the order in which they need each other.  `Inv.lookup` is the one piece of code that takes an
argument: the lookup goes back in the ring from the last entry of a header that may be old, by a
difference of keys in machine words, and comes to the entry of its block (`blockIndexIndex_eq`).

`of_run` is the rule for runs, with room for a further property that the steps keep while `Inv`
holds; the two results and those of `Queue.Fifo` are instances.

## Hypotheses

The run has fewer than `2 ^ 62` steps (`Unwrapped` is the bound on the counters that this gives),
and begins with an empty sub-queue.  What the pool holds at the beginning and what the rest of the
queue does is arbitrary.  The assumptions of the model itself are listed in
`Queue.ImplicitProducer`.

## Where it is used

`Queue.Fifo`, for what comes out of a sub-queue.  `sideBySide` is the run of two consumers at which
the results here and there are shown.
-/

namespace S3Proxy

namespace Queue

namespace ImplicitProducer

variable {ι α : Type*}

structure Inv (s : State ι α) : Prop where
  count : CountInv s
  hold : HoldInv s
  index : IndexInv s
  blocks : BlocksInv s
  elements : ElementsInv s
  taken : TakenInv s

variable {s s' : State ι α}

lemma Inv.step [DecidableEq ι] (h : Inv s) {l : Label ι α} (hmove : Moves s l s') : Inv s' where
  count := h.count.step hmove
  hold := h.hold.step (h.blocks.countsPlaces h.index h.hold) hmove
  index := h.index.step h.count h.hold hmove
  blocks := h.blocks.step h.count h.hold h.index hmove
  elements := h.elements.step h.count h.hold h.index h.blocks h.taken hmove
  taken := h.taken.step h.count h.hold h.index h.elements hmove

/-! ### The lookup -/

/-- Going back in the ring from the entry of a later block leads to the entry of the index. -/
lemma blockIndexIndex_eq {cap shift t k : ℕ} (hcap : 0 < cap) (hdvd : cap ∣ 2 ^ 59)
    (hle : k / blockSize ≤ t) (ht : blockSize * t < 2 ^ 64) :
    blockIndexIndex k (Rings.place cap shift t) (blockSize * t) cap =
      Rings.place cap shift (k / blockSize) := by
  have hlt : Rings.place cap shift t < cap := Rings.place_lt hcap
  have hcapLe : cap ≤ 2 ^ 59 := Nat.le_of_dvd (by positivity) hdvd
  unfold blockSize at *
  rcases hle.eq_or_lt with heq | hlt'
  · have hsub : sub (k / 32 * 32) (32 * t) = 0 := by
      rw [sub_eq (by omega) (by omega)]
      omega
    have hword : Rings.place cap shift t % 2 ^ 64 = Rings.place cap shift t :=
      Nat.mod_eq_of_lt (by omega)
    rw [blockIndexIndex, hsub, heq, Nat.zero_div, Nat.add_zero, hword, Nat.mod_eq_of_lt hlt]
  · -- The difference is negative: as a word it is short of the size of the ring by as much.
    have hsub : sub (k / 32 * 32) (32 * t) = 2 ^ 64 - 32 * (t - k / 32) := by
      rw [sub, Nat.mod_eq_of_lt (by omega)]
      omega
    have hoffset : (2 ^ 64 - 32 * (t - k / 32)) / 32 = 2 ^ 59 - (t - k / 32) := by omega
    rw [blockIndexIndex, hsub, hoffset, Nat.mod_eq_of_lt (a := _ + _) (by omega)]
    show Rings.place cap shift t + (2 ^ 59 - (t - k / 32)) ≡ k / 32 + shift [MOD cap]
    refine Nat.ModEq.add_right_cancel' (t - k / 32) ?_
    have hleft : Rings.place cap shift t + (2 ^ 59 - (t - k / 32)) + (t - k / 32) =
        Rings.place cap shift t + 2 ^ 59 := by omega
    have hright : k / 32 + shift + (t - k / 32) = t + shift + 0 := by omega
    rw [hleft, hright]
    exact (Nat.mod_modEq _ _).add ((Nat.modEq_zero_iff_dvd).mpr hdvd)

/-- The blocks that are entered are those of the elements, and at most one more. -/
lemma IndexInv.inserted_le (h : IndexInv s) :
    blockSize * s.inserted ≤ s.tailIndex + 2 * blockSize := by
  have hplaced := h.placed
  unfold Placed at hplaced
  unfold blockSize at *
  split at hplaced <;> omega

/-- The size of a ring divides that of the numbers of blocks. -/
lemma IndexInv.capacity_dvd (h : IndexInv s) (htail : s.tailIndex < 2 ^ 62) {hd : ℕ}
    (hhd : hd ≤ s.blockIndex) : s.capacity hd ∣ 2 ^ 59 := by
  have hinserted := h.inserted_le
  have hcapacity : s.capacity s.blockIndex < 2 ^ 59 := by
    unfold blockSize at hinserted
    rcases h.index.capacity_le with hle | hle <;> omega
  rw [h.index.capacity_eq _ le_rfl] at hcapacity
  have hpow : 32 * 2 ^ s.blockIndex = 2 ^ (s.blockIndex + 5) := by ring
  rw [hpow] at hcapacity
  have hlt := (Nat.pow_lt_pow_iff_right (by norm_num : 1 < 2)).mp hcapacity
  have hpow' : 32 * 2 ^ hd = 2 ^ (hd + 5) := by ring
  rw [h.index.capacity_eq hd hhd, hpow']
  exact Nat.pow_dvd_pow 2 (by omega)

/-- The last entry of the header that a consumer has loaded. -/
lemma Inv.lastEntry (h : Inv s) {i : ι} {k hd tail : ℕ}
    (hi : s.consumers i = .atTail k hd tail) :
    hd ≤ s.blockIndex ∧ ∃ t < s.inserted, k / blockSize ≤ t ∧ tail = s.place hd t ∧
      (s.entries ((s.headers hd).index tail)).key = blockSize * t := by
  have hlocated := h.index.located i
  rw [hi] at hlocated
  obtain ⟨hhd, t, ht, hle, rfl⟩ := hlocated
  have hkept : s.Kept t := ⟨_, hle, h.hold.not_mem_unlinked (by rw [hi]; rfl)⟩
  have hlt : t < s.inserted := ht.trans_le (h.index.index.reach_le hd hhd)
  refine ⟨hhd, t, hlt, hle, rfl, ?_⟩
  rw [h.index.index.mapped hd hhd t ht hkept, h.index.index.key t hlt hkept]

/-- **A consumer finds the entry of its block.** -/
lemma Inv.lookup (h : Inv s) (htail : s.tailIndex < 2 ^ 62) {i : ι} {k hd tail : ℕ}
    (hi : s.consumers i = .atTail k hd tail) :
    (s.headers hd).index (blockIndexIndex k tail
      (s.entries ((s.headers hd).index tail)).key (s.headers hd).capacity) =
        s.entryOf (k / blockSize) := by
  have hlocated := h.index.located i
  rw [hi] at hlocated
  have hkmem : k / blockSize ∉ s.unlinked := h.hold.not_mem_unlinked (by rw [hi]; rfl)
  obtain ⟨hhd, t, hlt, hle, htailEq, hkey⟩ := h.lastEntry hi
  have hinserted := h.index.inserted_le
  have hreach : k / blockSize < s.reach hd := by
    obtain ⟨-, t', ht', hle', -⟩ := hlocated
    omega
  rw [hkey, htailEq]
  show (s.headers hd).index (blockIndexIndex k (Rings.place (s.capacity hd) (s.shift hd) t)
    (blockSize * t) (s.capacity hd)) = _
  rw [blockIndexIndex_eq (h.index.index.capacity_pos hhd) (h.index.capacity_dvd htail hhd) hle
    (by unfold blockSize at *; omega)]
  exact h.index.index.mapped hd hhd _ hreach (BlockIndex.kept_of_not_mem hkmem)

/-- The entry that a consumer has found is that of its block. -/
lemma Inv.value_of_atEntry (h : Inv s) {i : ι} {k e : ℕ} (hi : s.consumers i = .atEntry k e) :
    (s.entries e).value = some (s.blockOf (k / blockSize)) := by
  have hlocated := h.index.located i
  rw [hi] at hlocated
  obtain ⟨hk, rfl⟩ := hlocated
  exact h.index.index.value _ hk (h.hold.not_mem_unlinked (by rw [hi]; rfl))

/-- The element is there. -/
lemma Inv.element_of_atBlock (h : Inv s) {i : ι} {k e b : ℕ} (hi : s.consumers i = .atBlock k e b) :
    ∃ x, (s.blocks b).elements (k % blockSize) = some x ∧ s.enqueued[k]? = some x := by
  obtain ⟨-, hget⟩ := h.elements.get_of_atBlock h.count h.hold h.index h.taken hi
  have hk := (h.hold.index i k (by rw [hi]; rfl)).1.trans_le h.count.headIndex_le
  rw [← h.elements.length] at hk
  rw [hget]
  exact ⟨s.enqueued[k], List.getElem?_eq_getElem hk, List.getElem?_eq_getElem hk⟩

/-! ### Steps and runs -/

variable [DecidableEq ι]

/-- The words do not wrap in the next step. -/
def Unwrapped (s : State ι α) : Prop := s.tailIndex < 2 ^ 62 ∧ s.dequeueOptimisticCount < 2 ^ 62

lemma moves_of_produce (h : Inv s) (hwords : Unwrapped s) (hstep : produce s = some s') :
    Moves s .produce s' := by
  obtain ⟨htail, -⟩ := hwords
  have hhead := h.count.headIndex_le
  unfold produce at hstep
  split at hstep
  · cases hstep
  · cases hstep
  · rename_i x hp
    have hlt : circularLessThan s.headIndex ((s.tailIndex + blockSize) % 2 ^ 64) = true := by
      unfold blockSize
      rw [Nat.mod_eq_of_lt (by omega), circularLessThan_iff (by omega) (by omega)]
      omega
    rw [if_pos hlt] at hstep
    cases hstep
    exact .checked hp
  · rename_i x hp
    simp only at hstep
    split at hstep
    · rename_i hfree
      cases hstep
      exact .reuse hp hfree
    · rename_i hfull
      cases hstep
      rw [not_or] at hfull
      exact .grow hp hfull.1 hfull.2
  · rename_i x newTail e hp
    cases hstep
    exact .key hp
  · rename_i x newTail e hp
    cases hstep
    exact .advance hp
  · rename_i x e b hp
    cases hstep
    exact .link hp
  · rename_i x hp
    obtain ⟨b, hb, rfl⟩ := Option.map_eq_some_iff.mp hstep
    exact .construct hp hb
  · rename_i x hp
    cases hstep
    rw [increment_eq htail]
    exact .publish hp

lemma moves_of_dequeue (h : Inv s) (hwords : Unwrapped s) {i : ι}
    (hstep : dequeue s i = some s') : Moves s (.dequeue i) s' := by
  obtain ⟨htail, hopt⟩ := hwords
  have hhead := h.count.headIndex_le
  have hlost := h.count.lost_le
  have hover := h.count.overcommit_le
  have hcounted := h.count.counted i
  unfold dequeue at hstep
  split at hstep <;> rename_i hi
  · cases hstep
    exact .call hi
  · cases hstep
    exact .overcommit hi
  · rename_i tail o
    rw [hi] at hcounted
    obtain ⟨htail', ho⟩ := hcounted
    have hiff : circularLessThan (sub s.dequeueOptimisticCount o) tail ↔
        s.dequeueOptimisticCount < tail + o := by
      rw [sub_eq (by omega) (by omega), circularLessThan_iff (by omega) (by omega)]
      omega
    split at hstep
    · rename_i hlt
      cases hstep
      exact .goOn hi (hiff.mp hlt)
    · rename_i hle
      cases hstep
      exact .miss hi (Nat.le_of_not_lt fun hlt => hle (hiff.mpr hlt))
  · cases hstep
    rw [increment_eq hopt]
    exact .claim hi
  · rename_i o count
    have hlt := h.count.claimed_lt hi
    have hle := h.count.claimed_le hi
    have hiff : circularLessThan (sub count o) s.tailIndex ↔ count < s.tailIndex + o := by
      rw [sub_eq hle (by omega), circularLessThan_iff (by omega) (by omega)]
      omega
    split at hstep
    · rename_i hwin
      cases hstep
      exact .win hi (hiff.mp hwin)
    · rename_i hlose
      cases hstep
      exact .lose hi (Nat.le_of_not_lt fun hlt => hlose (hiff.mpr hlt))
  · cases hstep
    rw [increment_eq (by omega)]
    exact .giveBack hi
  · cases hstep
    rw [increment_eq (by omega)]
    exact .take hi
  · cases hstep
    exact .header hi
  · cases hstep
    exact .headerTail hi
  · cases hstep
    rw [h.lookup htail hi]
    exact .entry hi
  · rename_i k e
    rw [h.value_of_atEntry hi] at hstep
    cases hstep
    exact .block hi
  · obtain ⟨x, hx, rfl⟩ := Option.map_eq_some_iff.mp hstep
    exact .move hi hx
  · cases hstep
    exact .empty hi
  · cases hstep
    exact .unlink hi
  · cases hstep
    exact .release hi

/-- **What a step can do.** -/
lemma moves_of_step (h : Inv s) (hwords : Unwrapped s) {l : Label ι α}
    (hstep : step s l = some s') : Moves s l s' := by
  cases l with
  | enqueue x =>
      unfold step at hstep
      simp only at hstep
      split at hstep
      · rename_i hp
        cases hstep
        split
        · rename_i hfull
          exact .enqueue hp hfull
        · rename_i hroom
          exact .enqueueInside hp hroom
      · cases hstep
  | produce => exact moves_of_produce h hwords hstep
  | requisition b =>
      have hstep' : requisition s b = some s' := hstep
      unfold requisition at hstep'
      split at hstep'
      · rename_i x e hp
        split at hstep'
        · rename_i hb
          cases hstep'
          exact .requisition hp hb
        · cases hstep'
      · cases hstep'
  | dequeue i => exact moves_of_dequeue h hwords hstep
  | othersTake b =>
      rw [step, Option.ite_none_right_eq_some] at hstep
      obtain ⟨hb, ⟨⟩⟩ := hstep
      exact .othersTake hb
  | othersGive b =>
      rw [step, Option.ite_none_right_eq_some] at hstep
      obtain ⟨hb, ⟨⟩⟩ := hstep
      exact .othersGive hb
  | othersUse b contents =>
      rw [step, Option.ite_none_right_eq_some] at hstep
      obtain ⟨hb, ⟨⟩⟩ := hstep
      exact .othersUse hb

lemma Moves.tailIndex_le {l : Label ι α} (hmove : Moves s l s') :
    s'.tailIndex ≤ s.tailIndex + 1 := by
  cases hmove <;> first | exact Nat.le_succ _ | exact le_rfl

lemma Moves.dequeueOptimisticCount_le {l : Label ι α} (hmove : Moves s l s') :
    s'.dequeueOptimisticCount ≤ s.dequeueOptimisticCount + 1 := by
  cases hmove <;> first | exact Nat.le_succ _ | exact le_rfl

omit [DecidableEq ι] in
lemma index_start (values : ℕ → Option ℕ) (blocks : ℕ → Block α) (owner : ℕ → Owner) :
    (start (ι := ι) values blocks owner).toBlockIndex.Inv none := by
  constructor
  case capacity_eq =>
    intro h hh
    obtain rfl : h = 0 := Nat.le_zero.mp hh
    rfl
  case nextCapacity => rfl
  case allocated => exact fun _ _ _ hi => hi
  case injective => exact fun _ _ _ _ _ _ heq => heq
  case tail => exact fun _ _ => rfl
  case reach => rfl
  case reach_le => exact fun _ _ => le_rfl
  case window => exact fun _ _ t ht => absurd ht (Nat.not_lt_zero t)
  case mapped => exact fun _ _ t ht => absurd ht (Nat.not_lt_zero t)
  case key => exact fun t ht => absurd ht (Nat.not_lt_zero t)
  case value => exact fun n hn => absurd hn (Nat.not_lt_zero n)
  case linked_le => exact le_rfl
  case unlinked_lt => exact fun n hn => absurd hn (Finset.notMem_empty n)
  case used => exact fun e _ hkey => absurd rfl hkey
  case capacity_le => exact .inl le_rfl

omit [DecidableEq ι] in
lemma inv_start (values : ℕ → Option ℕ) (blocks : ℕ → Block α) (owner : ℕ → Owner) :
    Inv (start (ι := ι) values blocks owner) where
  count := {
    length := rfl
    sound := fun m hm => by simp [start] at hm
    won := rfl
    lost := rfl
    takers := fun i => by simp [start]
    givers := fun i => by simp [start]
    counted := fun _ => trivial
    distinct := nofun }
  hold := {
    index := nofun
    index_distinct := nofun
    emptied_lt := fun k hk => absurd hk (Finset.notMem_empty k)
    covered := fun k hk => absurd hk (Nat.not_lt_zero k)
    closing := nofun
    closing_distinct := nofun
    unlinking := nofun
    releasing := nofun
    unlinked := fun n hn => absurd hn (Finset.notMem_empty n)
    released := Finset.empty_subset _
    closed := fun n hn => by
      have hmem := hn (mem_indices.mpr (Nat.mul_div_cancel n (by decide : 0 < blockSize)))
      exact absurd hmem (Finset.notMem_empty _) }
  index := {
    index := index_start values blocks owner
    placed := ⟨rfl, le_rfl, (by decide : blockSize * 0 < 0 + blockSize)⟩
    located := fun _ => trivial }
  blocks := {
    owned := fun n hn => absurd hn (Nat.not_lt_zero n)
    distinct := fun m hm => absurd hm (Nat.not_lt_zero m)
    linking := nofun
    tailBlock := nofun }
  elements := {
    length := rfl
    element := fun k hk => absurd hk (Nat.not_lt_zero k)
    publishing := nofun }
  taken := {
    mem_iff := fun k => by simp [start, State.takenIndices, Threads.Occurs, Consumer.emptying]
    get := nofun
    nodup := List.nodup_nil }

/-- **The invariants hold along every run** that is too short for the words to wrap, and with them
whatever each step keeps where they hold. -/
lemma Inv.exec {P : List (Label ι α) → State ι α → Prop}
    (hP : ∀ {ls s l s'}, Inv s → Moves s l s' → P ls s → P (ls ++ [l]) s')
    {ls es : List (Label ι α)} (h : Inv s) (hs : P ls s) (htail : s.tailIndex + es.length < 2 ^ 62)
    (hopt : s.dequeueOptimisticCount + es.length < 2 ^ 62)
    (hrun : PartialStep.exec ImplicitProducer.step s es = some s') :
    Inv s' ∧ Unwrapped s' ∧ P (ls ++ es) s' := by
  induction es generalizing s ls with
  | nil =>
      cases hrun
      rw [List.append_nil]
      exact ⟨h, ⟨htail, hopt⟩, hs⟩
  | cons l es ih =>
      obtain ⟨u, hu, hrun⟩ := Option.bind_eq_some_iff.mp hrun
      rw [List.length_cons] at htail hopt
      have hmove := moves_of_step h ⟨by omega, by omega⟩ hu
      have htail' := hmove.tailIndex_le
      have hopt' := hmove.dequeueOptimisticCount_le
      have hend := ih (h.step hmove) (hP h hmove hs) (by omega) (by omega) hrun
      rwa [List.append_assoc] at hend

variable {values : ℕ → Option ℕ} {blocks : ℕ → Block α} {owner : ℕ → Owner}
  {es : List (Label ι α)}

/-- The rule for what holds at the end of a run of a new sub-queue. -/
lemma of_run {P : List (Label ι α) → State ι α → Prop}
    (hP : ∀ {ls s l s'}, Inv s → Moves s l s' → P ls s → P (ls ++ [l]) s')
    (hstart : P [] (start values blocks owner)) (hlen : es.length < 2 ^ 62)
    (hrun : PartialStep.exec step (start values blocks owner) es = some s) :
    Inv s ∧ Unwrapped s ∧ P es s :=
  (inv_start values blocks owner).exec hP hstart (by show 0 + _ < _; omega)
    (by show 0 + _ < _; omega) hrun

lemma inv_of_run (hlen : es.length < 2 ^ 62)
    (hrun : PartialStep.exec step (start values blocks owner) es = some s) :
    Inv s ∧ Unwrapped s := by
  have h := of_run (P := fun _ _ => True) (fun _ _ _ => trivial) trivial hlen hrun
  exact ⟨h.1, h.2.1⟩

/-! ### The assertions of the source -/

omit [DecidableEq ι]

/-- What `ImplicitProducer` asserts, in `enqueue`, in `insert_block_index_entry` after it has made a
larger block index, in `get_block_index_index_for_index`, and in `set_empty`. -/
structure Asserts (s : State ι α) : Prop where
  behind : ∀ x, s.producer = .atBoundary x → circularLessThan s.tailIndex s.headIndex = false
  fresh : ∀ x, s.producer = .inserting x → (s.entries s.idxEntry).key ≠ invalidBlockBase →
    (s.entries s.idxEntry).value ≠ none →
      (s.newBlockIndex.entries s.newBlockIndex.idxEntry).key = invalidBlockBase
  tailBase : ∀ i k hd tail, s.consumers i = .atTail k hd tail →
    (s.entries ((s.headers hd).index tail)).key ≠ invalidBlockBase
  found : ∀ i k hd tail, s.consumers i = .atTail k hd tail →
    let idx := blockIndexIndex k tail (s.entries ((s.headers hd).index tail)).key
      (s.headers hd).capacity
    (s.entries ((s.headers hd).index idx)).key = k / blockSize * blockSize ∧
      (s.entries ((s.headers hd).index idx)).value ≠ none
  setEmpty : ∀ i k e b, s.consumers i = .moved k e b →
    (s.blocks b).elementsCompletelyDequeued < blockSize

lemma Inv.asserts (h : Inv s) (hwords : Unwrapped s) : Asserts s := by
  obtain ⟨htail, -⟩ := hwords
  have hhead := h.count.headIndex_le
  constructor
  case behind =>
    intro x _
    rw [← Bool.not_eq_true, circularLessThan_iff (by omega) (by omega)]
    omega
  case fresh =>
    intro x hp _ _
    have hindex := h.index.index
    rw [hp] at hindex
    exact hindex.key_newBlockIndex
  case tailBase =>
    intro i k hd tail hi
    obtain ⟨-, t, -, -, -, hkey⟩ := h.lastEntry hi
    rw [hkey]
    unfold blockSize invalidBlockBase
    omega
  case found =>
    intro i k hd tail hi
    have hk : k / blockSize < s.linked :=
      h.index.linked_of_lt ((h.hold.index i k (by rw [hi]; rfl)).1.trans_le hhead)
    have hmem : k / blockSize ∉ s.unlinked := h.hold.not_mem_unlinked (by rw [hi]; rfl)
    dsimp only
    rw [h.lookup htail hi, h.index.index.value _ hk hmem, Nat.mul_comm]
    exact ⟨h.index.index.key _ (hk.trans_le h.index.index.linked_le)
      (BlockIndex.kept_of_not_mem hmem), Option.some_ne_none _⟩
  case setEmpty =>
    intro i k e b hi
    have hnot := (h.hold.index i k (by rw [hi]; rfl)).2
    rw [h.blocks.countsPlaces h.index h.hold i k e b hi]
    refine (Finset.card_lt_card ?_).trans_eq (card_indices (k / blockSize))
    refine ⟨Finset.inter_subset_right, fun hsub => hnot ?_⟩
    exact (Finset.mem_inter.mp (hsub (mem_indices.mpr rfl))).1

/-- The block of the next index is there when its element is constructed. -/
lemma Inv.isSome_tailBlock (h : Inv s) {x : α} (hp : s.producer = .constructing x) :
    s.tailBlock.isSome := by
  rw [h.blocks.tailBlock _ (h.index.linked_eq_of_constructing hp)]
  rfl

lemma Inv.isSome_dequeue [DecidableEq ι] (h : Inv s) (i : ι) : (dequeue s i).isSome := by
  cases hi : s.consumers i with
  | atEntry k e =>
      rw [dequeue, hi]
      dsimp only
      rw [h.value_of_atEntry hi]
      rfl
  | atBlock k e b =>
      obtain ⟨x, hx, -⟩ := h.element_of_atBlock hi
      rw [dequeue, hi]
      dsimp only
      rw [hx]
      rfl
  | comparing tail o =>
      rw [dequeue, hi]
      dsimp only
      split <;> rfl
  | claimed o count =>
      rw [dequeue, hi]
      dsimp only
      split <;> rfl
  | _ =>
      rw [dequeue, hi]
      rfl

lemma Inv.isSome_produce (h : Inv s) (hidle : s.producer ≠ .idle)
    (hblock : ∀ x e, s.producer ≠ .requisitioning x e) : (produce s).isSome := by
  cases hp : s.producer with
  | idle => exact absurd hp hidle
  | requisitioning x e => exact absurd hp (hblock x e)
  | atBoundary x =>
      rw [produce, hp]
      dsimp only
      split <;> rfl
  | inserting x =>
      rw [produce, hp]
      dsimp only
      split <;> rfl
  | constructing x =>
      rw [produce, hp]
      dsimp only
      rw [Option.isSome_map]
      exact h.isSome_tailBlock hp
  | _ =>
      rw [produce, hp]
      rfl

/-- `enqueue` does not give up at the end of a block. -/
lemma Inv.produce_atBoundary (h : Inv s) (hwords : Unwrapped s) {x : α}
    (hp : s.producer = .atBoundary x) : produce s = some { s with producer := .inserting x } := by
  obtain ⟨htail, -⟩ := hwords
  have hhead := h.count.headIndex_le
  rw [produce, hp]
  dsimp only
  apply if_pos
  unfold blockSize
  rw [Nat.mod_eq_of_lt (by omega), circularLessThan_iff (by omega) (by omega)]
  omega

/-- **Every assertion of the source holds**, and no thread gets stuck: a consumer always finds the
entry of its index, a block there and an element in it, and the producer always finds room for the
next element; all that it waits for is a block from the pool. -/
theorem safe_of_run [DecidableEq ι] (hlen : es.length < 2 ^ 62)
    (hrun : PartialStep.exec step (start values blocks owner) es = some s) :
    Asserts s ∧ (∀ i, (step s (.dequeue i)).isSome) ∧
      ((s.producer = .idle ∨ ∃ x e, s.producer = .requisitioning x e) ∨
        (step s .produce).isSome) ∧
      ∀ x, s.producer = .atBoundary x →
        step s .produce = some { s with producer := .inserting x } := by
  obtain ⟨h, hwords⟩ := inv_of_run hlen hrun
  refine ⟨h.asserts hwords, h.isSome_dequeue, ?_, fun x hp => h.produce_atBoundary hwords hp⟩
  by_cases hp : s.producer = .idle ∨ ∃ x e, s.producer = .requisitioning x e
  · exact .inl hp
  · rw [not_or, not_exists] at hp
    exact .inr (h.isSome_produce hp.1 fun x e hx => hp.2 x ⟨e, hx⟩)

/-- A sub-queue of numbers, all of whose blocks are in the pool. -/
def fresh (ι : Type*) : State ι ℕ :=
  start (fun _ => none) (fun _ => ⟨fun _ => none, 0⟩) fun _ => .pool

/-- The elements of a block are enqueued. -/
def fillBlock (ι : Type*) : List (Label ι ℕ) :=
  [.enqueue 0, .produce, .produce, .produce, .produce, .requisition 3, .produce, .produce,
    .produce] ++ (List.range 31).flatMap fun k => [.enqueue (k + 1), .produce, .produce]

/-- Two threads dequeue the elements of a block side by side, and the second one closes it. -/
def sideBySide : List (Label (Fin 2) ℕ) :=
  fillBlock (Fin 2) ++ (List.replicate (16 * 12) [.dequeue 0, .dequeue 1]).flatten ++
    [.dequeue 1, .dequeue 1]

lemma length_sideBySide : sideBySide.length < 2 ^ 62 := by decide +kernel

/-- Afterwards both threads are out of `dequeue`, and the block has gone back to the pool. -/
lemma exec_sideBySide : ∃ s, PartialStep.exec step (fresh (Fin 2)) sideBySide = some s ∧
    (∀ i, s.consumers i = .idle) ∧ s.headIndex = 32 ∧ s.enqueued = List.range 32 ∧
      0 ∈ s.released := by
  have hrun : ((PartialStep.exec step (fresh (Fin 2)) sideBySide).map fun s =>
      (s.consumers 0, s.consumers 1, s.headIndex, s.enqueued, decide (0 ∈ s.released))) =
        some (.idle, .idle, 32, List.range 32, true) := by
    decide +kernel
  obtain ⟨s, hs, heq⟩ := Option.map_eq_some_iff.mp hrun
  simp only [Prod.mk.injEq, decide_eq_true_eq] at heq
  obtain ⟨hzero, hone, hhead, henqueued, hreleased⟩ := heq
  exact ⟨s, hs, Fin.forall_fin_two.mpr ⟨hzero, hone⟩, hhead, henqueued, hreleased⟩

theorem safe_of_run_sideBySide : ∃ s, PartialStep.exec step (fresh (Fin 2)) sideBySide = some s ∧
    Asserts s ∧ (∀ i, (step s (.dequeue i)).isSome) ∧
      ((s.producer = .idle ∨ ∃ x e, s.producer = .requisitioning x e) ∨
        (step s .produce).isSome) ∧
      ∀ x, s.producer = .atBoundary x →
        step s .produce = some { s with producer := .inserting x } := by
  obtain ⟨s, hs, -⟩ := exec_sideBySide
  exact ⟨s, hs, safe_of_run length_sideBySide hs⟩

/-! ### The blocks -/

end ImplicitProducer

end Queue

end S3Proxy
