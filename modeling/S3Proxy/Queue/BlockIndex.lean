import S3Proxy.Queue.Holding

/-!
# The block index

As long as a block is in the block index, its entry and those of the later blocks keep their places
in every header, so that a consumer finds the entry through whichever header it has loaded, and from
whichever last entry of it.

A header is a ring of pointers to entries, with the place of its newest entry (`tail`).  When the
next entry is in use, a header of twice the size takes its place and the old one stays as it is,
since a consumer may be reading it.  Blocks are numbered, and a block is `Kept` if it or an earlier
one is in use.

## Main result

`IndexInv.step`: every step keeps the invariant `IndexInv`.  `Inv` is the part about the memory of
the block index.  For every header, also the old ones, it says how many blocks the header knows,
that the kept ones among them are no more than it has places, and that the entry of each is at its
place.  `Located` is what a consumer on its way to an entry has found so far, and `Placed` how far
the producer has got with a new one.

One lemma each says what the operations on the block index do to `Inv`: `Inv.setKey`, `Inv.insert`,
`Inv.newBlockIndex`, `Inv.link` and `Inv.unlink`.  `free_of_reuse` is why an entry may be reused at
all: the code looks at this entry alone, and the invariant says that then no block in use is as far
back (`Free`).

## Hypotheses

The step is one of `Moves`, and `CountInv` and `HoldInv` hold before it.

## Where it is used

The arithmetic of the rings is in `Library.Rings`.  `Queue.Storage` knows through
`IndexInv.linked_of_lt` that the block of an element is there, and `Queue.SubQueue` proves the
lookup of the source right (`Inv.lookup`).
-/

namespace S3Proxy

namespace Queue

namespace ImplicitProducer

namespace BlockIndex

/-- Block `t` or an earlier one is in use. -/
def Kept (x : BlockIndex) (t : ℕ) : Prop := ∃ n ≤ t, n ∉ x.unlinked

def capacity (x : BlockIndex) (h : ℕ) : ℕ := (x.headers h).capacity

/-- Where the entry of a block is in a header. -/
def place (x : BlockIndex) (h t : ℕ) : ℕ := Rings.place (x.capacity h) (x.shift h) t

/-- The entry that comes next is that of no block in use. -/
def Free (x : BlockIndex) : Prop :=
  ∀ t < x.inserted, x.Kept t → x.inserted < t + x.capacity x.blockIndex

/-- `pending` is the entry that is about to become that of a block. -/
structure Inv (x : BlockIndex) (pending : Option ℕ) : Prop where
  capacity_eq : ∀ h ≤ x.blockIndex, x.capacity h = 32 * 2 ^ h
  nextCapacity : x.nextBlockIndexCapacity = 32 * 2 ^ (x.blockIndex + 1)
  allocated : ∀ h ≤ x.blockIndex, ∀ i < x.capacity h, (x.headers h).index i < x.entryCount
  injective : ∀ h ≤ x.blockIndex, ∀ i < x.capacity h, ∀ j < x.capacity h,
    (x.headers h).index i = (x.headers h).index j → i = j
  tail : ∀ h ≤ x.blockIndex, (x.headers h).tail = x.place h (x.reach h + x.capacity h - 1)
  reach : x.reach x.blockIndex = x.inserted
  reach_le : ∀ h ≤ x.blockIndex, x.reach h ≤ x.inserted
  window : ∀ h ≤ x.blockIndex, ∀ t < x.reach h, x.Kept t → x.reach h ≤ t + x.capacity h
  mapped : ∀ h ≤ x.blockIndex, ∀ t < x.reach h, x.Kept t →
    (x.headers h).index (x.place h t) = x.entryOf t
  key : ∀ t < x.inserted, x.Kept t → (x.entries (x.entryOf t)).key = blockSize * t
  value : ∀ n < x.linked, n ∉ x.unlinked → (x.entries (x.entryOf n)).value = some (x.blockOf n)
  linked_le : x.linked ≤ x.inserted
  unlinked_lt : ∀ n ∈ x.unlinked, n < x.linked
  used : ∀ e, pending ≠ some e → (x.entries e).key ≠ invalidBlockBase →
    (x.entries e).value ≠ none → ∃ n < x.linked, n ∉ x.unlinked ∧ x.entryOf n = e
  capacity_le : x.capacity x.blockIndex ≤ 32 ∨ x.capacity x.blockIndex ≤ 2 * x.inserted

variable {x : BlockIndex} {p : Option ℕ} {t u h : ℕ}

lemma Kept.mono (ht : x.Kept t) (hle : t ≤ u) : x.Kept u :=
  ht.imp fun _ hn => ⟨hn.1.trans hle, hn.2⟩

lemma kept_of_not_mem (ht : t ∉ x.unlinked) : x.Kept t := ⟨t, le_rfl, ht⟩

namespace Inv

variable (hx : x.Inv p)

include hx

lemma capacity_pos (hh : h ≤ x.blockIndex) : 0 < x.capacity h := by
  rw [hx.capacity_eq h hh]
  positivity

lemma nextCapacity_eq : x.nextBlockIndexCapacity = 2 * x.capacity x.blockIndex := by
  rw [hx.nextCapacity, hx.capacity_eq _ le_rfl, pow_succ]
  ring

lemma place_lt (hh : h ≤ x.blockIndex) : x.place h t < x.capacity h :=
  Rings.place_lt (hx.capacity_pos hh)

/-- Blocks in use have different entries. -/
lemma entryOf_injective (hle : t ≤ u) (hu : u < x.inserted) (ht : x.Kept t)
    (heq : x.entryOf t = x.entryOf u) : t = u := by
  have hwindow := hx.window _ le_rfl t (by rw [hx.reach]; omega) ht
  rw [hx.reach] at hwindow
  rw [← hx.mapped _ le_rfl t (by rw [hx.reach]; omega) ht,
    ← hx.mapped _ le_rfl u (by rwa [hx.reach]) (ht.mono hle)] at heq
  have hplace := hx.injective _ le_rfl _ (hx.place_lt le_rfl) _ (hx.place_lt le_rfl) heq
  exact Rings.eq_of_place_eq hle (by omega) hplace

/-! ### The entry that comes next -/

lemma newTail_eq : x.newTail = x.place x.blockIndex x.inserted := by
  rw [newTail, hx.tail _ le_rfl, hx.reach]
  exact Rings.place_next (hx.capacity_pos le_rfl)

/-- An entry that is not in use is reused. -/
lemma free_of_reuse (hlinked : x.linked = x.inserted)
    (hfree : (x.entries x.idxEntry).key = invalidBlockBase ∨
      (x.entries x.idxEntry).value = none) : x.Free := by
  intro t ht hkept
  have hwindow := hx.window _ le_rfl t (by rwa [hx.reach]) hkept
  rw [hx.reach] at hwindow
  refine lt_of_le_of_ne hwindow fun heq => ?_
  -- Otherwise the place is that of the oldest block in use, whose entry has a block.
  obtain ⟨n, hn, hmem⟩ := hkept
  have hwindow' := hx.window _ le_rfl n (by rw [hx.reach]; omega) (kept_of_not_mem hmem)
  rw [hx.reach] at hwindow'
  obtain rfl : n = t := by omega
  have hplace : x.newTail = x.place x.blockIndex n := by
    rw [hx.newTail_eq, place, heq]
    exact Rings.place_add_cap
  have hentry : x.idxEntry = x.entryOf n := by
    rw [idxEntry, hplace, hx.mapped _ le_rfl n (by rwa [hx.reach]) (kept_of_not_mem hmem)]
  rw [hentry] at hfree
  rcases hfree with hkey | hvalue
  · rw [hx.key n ht (kept_of_not_mem hmem)] at hkey
    unfold blockSize invalidBlockBase at hkey
    omega
  · rw [hx.value n (by omega) hmem] at hvalue
    cases hvalue

/-- The entry that comes next is that of no block in use. -/
lemma idxEntry_ne (hfree : x.Free) (ht : t < x.inserted) (hkept : x.Kept t) :
    x.entryOf t ≠ x.idxEntry := by
  intro heq
  rw [idxEntry, hx.newTail_eq, ← hx.mapped _ le_rfl t (by rwa [hx.reach]) hkept] at heq
  have hplace := hx.injective _ le_rfl _ (hx.place_lt le_rfl) _ (hx.place_lt le_rfl) heq
  have := Rings.eq_of_place_eq ht.le (hfree t ht hkept) hplace
  omega

/-- There are as many blocks as entries when the block index grows. -/
lemma capacity_le_inserted (hpending : p = none)
    (hkey : (x.entries x.idxEntry).key ≠ invalidBlockBase)
    (hvalue : (x.entries x.idxEntry).value ≠ none) : x.capacity x.blockIndex ≤ x.inserted := by
  obtain ⟨n, hn, hmem, heq⟩ := hx.used x.idxEntry (by simp [hpending]) hkey hvalue
  have hlt : n < x.inserted := hn.trans_le hx.linked_le
  rw [idxEntry, hx.newTail_eq, ← hx.mapped _ le_rfl n (by rwa [hx.reach]) (kept_of_not_mem hmem)]
    at heq
  have hplace := hx.injective _ le_rfl _ (hx.place_lt le_rfl) _ (hx.place_lt le_rfl) heq
  have hdvd := Rings.dvd_of_place_eq hlt.le hplace
  have := Nat.le_of_dvd (by omega) hdvd
  omega

end Inv

/-! ### What is done with it -/

/-- The key of an entry of no block in use. -/
lemma Inv.setKey (hx : x.Inv none) (hfree : x.Free) (key : ℕ) :
    (x.setKey x.idxEntry key).Inv (some x.idxEntry) := by
  have hne {t : ℕ} (ht : t < x.inserted) (hkept : x.Kept t) :
      (x.setKey x.idxEntry key).entries (x.entryOf t) = x.entries (x.entryOf t) :=
    Function.update_of_ne (hx.idxEntry_ne hfree ht hkept) ..
  exact { hx with
    key := fun t ht hkept => by
      show ((x.setKey x.idxEntry key).entries (x.entryOf t)).key = blockSize * t
      rw [hne ht hkept, hx.key t ht hkept]
    value := fun n hn hmem => by
      show ((x.setKey x.idxEntry key).entries (x.entryOf n)).value = some (x.blockOf n)
      rw [hne (hn.trans_le hx.linked_le) (kept_of_not_mem hmem), hx.value n hn hmem]
    used := fun e hpending => by
      show ((x.setKey x.idxEntry key).entries e).key ≠ _ →
        ((x.setKey x.idxEntry key).entries e).value ≠ none → _
      have he : e ≠ x.idxEntry := fun he => hpending (by rw [he])
      have heq : (x.setKey x.idxEntry key).entries e = x.entries e := Function.update_of_ne he ..
      rw [heq]
      exact hx.used e (by simp) }

lemma insert_index (tail e h : ℕ) : ((x.insert tail e).headers h).index = (x.headers h).index := by
  show (Function.update x.headers x.blockIndex _ h).index = _
  by_cases hh : h = x.blockIndex
  · rw [hh, Function.update_self]
  · rw [Function.update_of_ne hh]

lemma insert_capacity (tail e h : ℕ) : (x.insert tail e).capacity h = x.capacity h := by
  show (Function.update x.headers x.blockIndex _ h).capacity = (x.headers h).capacity
  by_cases hh : h = x.blockIndex
  · rw [hh, Function.update_self]
  · rw [Function.update_of_ne hh]

lemma insert_place (tail e h t : ℕ) : (x.insert tail e).place h t = x.place h t := by
  rw [place, insert_capacity]
  rfl

/-- The entry becomes that of the next block. -/
lemma Inv.insert (hx : x.Inv (some x.idxEntry)) (hfree : x.Free)
    (hkey : (x.entries x.idxEntry).key = blockSize * x.inserted) :
    (x.insert x.newTail x.idxEntry).Inv (some x.idxEntry) := by
  set y := x.insert x.newTail x.idxEntry with hy
  have hold (h : ℕ) (hh : h ≠ x.blockIndex) : y.headers h = x.headers h :=
    Function.update_of_ne hh ..
  have hcur : y.headers x.blockIndex = { x.headers x.blockIndex with tail := x.newTail } :=
    Function.update_self ..
  have hindex (h : ℕ) : (y.headers h).index = (x.headers h).index := insert_index ..
  have hcapacity (h : ℕ) : y.capacity h = x.capacity h := insert_capacity ..
  have hplace (h t : ℕ) : y.place h t = x.place h t := insert_place ..
  have hreach (h : ℕ) (hh : h ≠ x.blockIndex) : y.reach h = x.reach h := Function.update_of_ne hh ..
  have hreachCur : y.reach x.blockIndex = x.inserted + 1 := Function.update_self ..
  have hentry (t : ℕ) (ht : t < x.inserted) : y.entryOf t = x.entryOf t :=
    Function.update_of_ne ht.ne ..
  have hentryNew : y.entryOf x.inserted = x.idxEntry := Function.update_self ..
  have hkept (t : ℕ) : y.Kept t ↔ x.Kept t := Iff.rfl
  constructor
  case capacity_eq =>
    simp only [hcapacity]
    exact hx.capacity_eq
  case nextCapacity => exact hx.nextCapacity
  case allocated =>
    simp only [hcapacity, hindex]
    exact hx.allocated
  case injective =>
    simp only [hcapacity, hindex]
    exact hx.injective
  case tail =>
    intro h hh
    rw [hcapacity, hplace]
    by_cases hcase : h = x.blockIndex
    · subst hcase
      rw [hcur, hreachCur, Nat.add_right_comm, Nat.add_sub_cancel]
      exact hx.newTail_eq.trans Rings.place_add_cap.symm
    · rw [hold h hcase, hreach h hcase]
      exact hx.tail h hh
  case reach => exact hreachCur
  case reach_le =>
    intro h hh
    show y.reach h ≤ x.inserted + 1
    by_cases hcase : h = x.blockIndex
    · rw [hcase, hreachCur]
    · rw [hreach h hcase]
      exact (hx.reach_le h hh).trans (Nat.le_succ _)
  case window =>
    intro h hh t ht hkeep
    rw [hcapacity]
    by_cases hcase : h = x.blockIndex
    · subst hcase
      rw [hreachCur] at ht ⊢
      rcases Nat.lt_succ_iff_lt_or_eq.mp ht with hlt | rfl
      · exact hfree t hlt hkeep
      · exact Nat.add_le_add_left (hx.capacity_pos le_rfl) _
    · rw [hreach h hcase] at ht ⊢
      exact hx.window h hh t ht hkeep
  case mapped =>
    intro h hh t ht hkeep
    rw [hindex, hplace]
    by_cases hcase : h = x.blockIndex
    · subst hcase
      rw [hreachCur] at ht
      rcases Nat.lt_succ_iff_lt_or_eq.mp ht with hlt | rfl
      · rw [hentry t hlt]
        exact hx.mapped _ le_rfl t (by rwa [hx.reach]) hkeep
      · rw [hentryNew, ← hx.newTail_eq]
        rfl
    · rw [hreach h hcase] at ht
      rw [hentry t (ht.trans_le (hx.reach_le h hh))]
      exact hx.mapped h hh t ht hkeep
  case key =>
    intro t ht hkeep
    show (x.entries (y.entryOf t)).key = _
    rcases Nat.lt_succ_iff_lt_or_eq.mp ht with hlt | rfl
    · rw [hentry t hlt]
      exact hx.key t hlt hkeep
    · rw [hentryNew, hkey]
  case value =>
    intro n hn hmem
    show (x.entries (y.entryOf n)).value = _
    rw [hentry n (Nat.lt_of_lt_of_le hn hx.linked_le)]
    exact hx.value n hn hmem
  case linked_le => exact hx.linked_le.trans (Nat.le_succ _)
  case unlinked_lt => exact hx.unlinked_lt
  case used =>
    intro e hpending hkey' hvalue
    obtain ⟨n, hn, hmem, heq⟩ := hx.used e hpending hkey' hvalue
    exact ⟨n, hn, hmem, by rw [hentry n (hn.trans_le hx.linked_le), heq]⟩
  case capacity_le =>
    show y.capacity x.blockIndex ≤ 32 ∨ y.capacity x.blockIndex ≤ 2 * (x.inserted + 1)
    rw [hcapacity]
    exact hx.capacity_le.imp_right fun hle => by omega

lemma newBlockIndex_headers (hh : h ≤ x.blockIndex) :
    x.newBlockIndex.headers h = x.headers h := Function.update_of_ne (by omega) ..

lemma newBlockIndex_place (hh : h ≤ x.blockIndex) (t : ℕ) :
    x.newBlockIndex.place h t = x.place h t := by
  rw [place, capacity, newBlockIndex_headers hh, place, capacity]
  congr 1
  exact Function.update_of_ne (by omega) ..

lemma newBlockIndex_reach (hh : h ≤ x.blockIndex) : x.newBlockIndex.reach h = x.reach h :=
  Function.update_of_ne (by omega) ..

/-- The block index grows when all its entries are in use. -/
lemma Inv.newBlockIndex (hx : x.Inv none)
    (hfull : x.capacity x.blockIndex ≤ x.inserted) : x.newBlockIndex.Inv none := by
  set y := x.newBlockIndex with hy
  set cap := x.capacity x.blockIndex with hcap
  have hpos : 0 < cap := hx.capacity_pos le_rfl
  have hdouble : x.nextBlockIndexCapacity = 2 * cap := hx.nextCapacity_eq
  have hold (h : ℕ) (hh : h ≤ x.blockIndex) : y.headers h = x.headers h := newBlockIndex_headers hh
  have hnew : y.headers (x.blockIndex + 1) =
      { capacity := x.nextBlockIndexCapacity
        tail := cap - 1
        index := fun i =>
          if i < cap then
            (x.headers x.blockIndex).index (((x.headers x.blockIndex).tail + 1 + i) % cap)
          else x.entryCount + (i - cap) } := Function.update_self ..
  have hcapacity (h : ℕ) (hh : h ≤ x.blockIndex) : y.capacity h = x.capacity h := by
    rw [capacity, hold h hh, capacity]
  have hcapacityNew : y.capacity (x.blockIndex + 1) = 2 * cap := by rw [capacity, hnew, hdouble]
  have hplace (h t : ℕ) (hh : h ≤ x.blockIndex) : y.place h t = x.place h t :=
    newBlockIndex_place hh t
  have hplaceNew (t : ℕ) : y.place (x.blockIndex + 1) t =
      Rings.place (2 * cap) (Rings.doubledShift cap x.inserted) t := by
    rw [place, hcapacityNew]
    congr 1
    exact Function.update_self ..
  have hreach (h : ℕ) (hh : h ≤ x.blockIndex) : y.reach h = x.reach h := newBlockIndex_reach hh
  have hreachNew : y.reach (x.blockIndex + 1) = x.inserted := Function.update_self ..
  have hkept (t : ℕ) : y.Kept t ↔ x.Kept t := Iff.rfl
  -- The first half of the new ring are the entries of the old one, the second half are new.
  have hfirst (i : ℕ) (hi : i < cap) : (y.headers (x.blockIndex + 1)).index i =
      (x.headers x.blockIndex).index (((x.headers x.blockIndex).tail + 1 + i) % cap) := by
    rw [hnew]
    exact if_pos hi
  have hsecond (i : ℕ) (hi : cap ≤ i) :
      (y.headers (x.blockIndex + 1)).index i = x.entryCount + (i - cap) := by
    rw [hnew]
    exact if_neg (by omega)
  have hallocated (i : ℕ) (hi : i < cap) :
      (y.headers (x.blockIndex + 1)).index i < x.entryCount := by
    rw [hfirst i hi]
    exact hx.allocated _ le_rfl _ (Nat.mod_lt _ hpos)
  have hentries (e : ℕ) (he : e < x.entryCount) : y.entries e = x.entries e :=
    if_neg fun hc => by omega
  have hentryLt (t : ℕ) (ht : t < x.inserted) (hkeep : x.Kept t) : x.entryOf t < x.entryCount := by
    rw [← hx.mapped _ le_rfl t (by rwa [hx.reach]) hkeep]
    exact hx.allocated _ le_rfl _ (hx.place_lt le_rfl)
  have hcases {P : ℕ → Prop} (hle : ∀ h ≤ x.blockIndex, P h) (hcur : P (x.blockIndex + 1)) :
      ∀ h ≤ y.blockIndex, P h := by
    intro h hh
    rcases Nat.lt_succ_iff_lt_or_eq.mp (Nat.lt_succ_of_le hh) with hlt | rfl
    · exact hle h (Nat.le_of_lt_succ hlt)
    · exact hcur
  constructor
  case capacity_eq =>
    refine hcases (fun h hh => ?_) ?_
    · rw [hcapacity h hh, hx.capacity_eq h hh]
    · rw [hcapacityNew, ← hdouble, hx.nextCapacity]
  case nextCapacity =>
    show 2 * x.nextBlockIndexCapacity = 32 * 2 ^ (x.blockIndex + 1 + 1)
    rw [hx.nextCapacity, pow_succ 2 (x.blockIndex + 1)]
    ring
  case allocated =>
    refine hcases (fun h hh i hi => ?_) fun i hi => ?_
    · rw [hcapacity h hh] at hi
      rw [hold h hh]
      exact (hx.allocated h hh i hi).trans_le (Nat.le_add_right _ _)
    · show _ < x.entryCount + cap
      rw [hcapacityNew] at hi
      rcases Nat.lt_or_ge i cap with hlt | hge
      · exact (hallocated i hlt).trans_le (Nat.le_add_right _ _)
      · rw [hsecond i hge]
        omega
  case injective =>
    refine hcases (fun h hh i hi j hj heq => ?_) fun i hi j hj heq => ?_
    · rw [hcapacity h hh] at hi hj
      rw [hold h hh] at heq
      exact hx.injective h hh i hi j hj heq
    · rcases Nat.lt_or_ge i cap with hi' | hi' <;> rcases Nat.lt_or_ge j cap with hj' | hj'
      · rw [hfirst i hi', hfirst j hj'] at heq
        have hmod := hx.injective _ le_rfl _ (Nat.mod_lt _ hpos) _ (Nat.mod_lt _ hpos) heq
        have hplaceEq : Rings.place cap ((x.headers x.blockIndex).tail + 1) i =
            Rings.place cap ((x.headers x.blockIndex).tail + 1) j := by
          rw [Rings.place, Rings.place, Nat.add_comm i, Nat.add_comm j]
          exact hmod
        rcases le_total i j with hle | hle
        · exact Rings.eq_of_place_eq hle (by omega) hplaceEq
        · exact (Rings.eq_of_place_eq hle (by omega) hplaceEq.symm).symm
      · have hlt := hallocated i hi'
        rw [heq, hsecond j hj'] at hlt
        omega
      · have hlt := hallocated j hj'
        rw [← heq, hsecond i hi'] at hlt
        omega
      · rw [hsecond i hi', hsecond j hj'] at heq
        omega
  case tail =>
    refine hcases (fun h hh => ?_) ?_
    · rw [hold h hh, hcapacity h hh, hplace h _ hh, hreach h hh]
      exact hx.tail h hh
    · rw [hplaceNew, hreachNew, hcapacityNew, Rings.place_doubled_newest hpos, hnew]
  case reach => exact hreachNew
  case reach_le =>
    refine hcases (fun h hh => ?_) ?_
    · rw [hreach h hh]
      exact hx.reach_le h hh
    · exact hreachNew.le
  case window =>
    refine hcases (fun h hh t ht hkeep => ?_) fun t ht hkeep => ?_
    · rw [hreach h hh] at ht ⊢
      rw [hcapacity h hh]
      exact hx.window h hh t ht hkeep
    · rw [hreachNew] at ht ⊢
      have hwindow := hx.window _ le_rfl t (by rwa [hx.reach]) hkeep
      rw [hx.reach] at hwindow
      rw [hcapacityNew]
      omega
  case mapped =>
    refine hcases (fun h hh t ht hkeep => ?_) fun t ht hkeep => ?_
    · rw [hreach h hh] at ht
      rw [hold h hh, hplace h t hh]
      exact hx.mapped h hh t ht hkeep
    · rw [hreachNew] at ht
      have hwindow := hx.window _ le_rfl t (by rwa [hx.reach]) hkeep
      rw [hx.reach] at hwindow
      rw [hplaceNew, Rings.place_doubled hpos hwindow (by omega), hfirst _ (by omega),
        hx.tail _ le_rfl, hx.reach]
      show (x.headers x.blockIndex).index
        ((Rings.place cap (x.shift x.blockIndex) (x.inserted + cap - 1) + 1 +
          (t + cap - x.inserted)) % cap) = x.entryOf t
      rw [Rings.place_copied hwindow hpos]
      exact hx.mapped _ le_rfl t (by rwa [hx.reach]) hkeep
  case key =>
    intro t ht hkeep
    show (y.entries (x.entryOf t)).key = _
    rw [hentries _ (hentryLt t ht hkeep)]
    exact hx.key t ht hkeep
  case value =>
    intro n hn hmem
    show (y.entries (x.entryOf n)).value = _
    rw [hentries _ (hentryLt n (hn.trans_le hx.linked_le) (kept_of_not_mem hmem))]
    exact hx.value n hn hmem
  case linked_le => exact hx.linked_le
  case unlinked_lt => exact hx.unlinked_lt
  case used =>
    intro e _ hkey hvalue
    have heq : y.entries e = if x.entryCount ≤ e ∧ e < x.entryCount + cap then
        { x.entries e with key := invalidBlockBase } else x.entries e := rfl
    rw [heq] at hkey hvalue
    split at hkey
    · exact absurd rfl hkey
    · rename_i hnot
      rw [if_neg hnot] at hvalue
      exact hx.used e (by simp) hkey hvalue
  case capacity_le =>
    right
    show y.capacity (x.blockIndex + 1) ≤ 2 * x.inserted
    rw [hcapacityNew]
    omega

/-- The next entry of a block index that has grown is a new one. -/
lemma Inv.free_newBlockIndex (hx : x.Inv none) : x.newBlockIndex.Free := by
  intro t ht hkept
  have hpos := hx.capacity_pos le_rfl
  have hwindow := hx.window _ le_rfl t (by rwa [hx.reach]) hkept
  rw [hx.reach] at hwindow
  have hcapacity : x.newBlockIndex.capacity (x.blockIndex + 1) = x.nextBlockIndexCapacity := by
    show (Function.update x.headers (x.blockIndex + 1) _ (x.blockIndex + 1)).capacity = _
    rw [Function.update_self]
  show x.inserted < t + x.newBlockIndex.capacity (x.blockIndex + 1)
  rw [hcapacity, hx.nextCapacity_eq]
  omega

lemma Inv.key_newBlockIndex (hx : x.Inv none) :
    (x.newBlockIndex.entries x.newBlockIndex.idxEntry).key = invalidBlockBase := by
  set cap := x.capacity x.blockIndex with hcap
  have hpos : 0 < cap := hx.capacity_pos le_rfl
  have hheader : x.newBlockIndex.headers (x.blockIndex + 1) = _ := Function.update_self ..
  have htail : x.newBlockIndex.newTail = cap := by
    show ((x.newBlockIndex.headers (x.blockIndex + 1)).tail + 1) %
      (x.newBlockIndex.headers (x.blockIndex + 1)).capacity = cap
    rw [hheader]
    show (cap - 1 + 1) % x.nextBlockIndexCapacity = cap
    rw [hx.nextCapacity_eq, ← hcap, Nat.mod_eq_of_lt (by omega)]
    omega
  have hentry : x.newBlockIndex.idxEntry = x.entryCount := by
    show (x.newBlockIndex.headers (x.blockIndex + 1)).index x.newBlockIndex.newTail = _
    rw [htail, hheader]
    show (if cap < cap then _ else x.entryCount + (cap - cap)) = _
    rw [if_neg (lt_irrefl cap), Nat.sub_self, Nat.add_zero]
  rw [hentry]
  show (if x.entryCount ≤ x.entryCount ∧ x.entryCount < x.entryCount + cap then
    { x.entries x.entryCount with key := invalidBlockBase } else x.entries x.entryCount).key = _
  rw [if_pos ⟨le_rfl, by omega⟩]

/-- The entry gets its block. -/
lemma Inv.link {e : ℕ} (hx : x.Inv (some e)) (hinserted : x.inserted = x.linked + 1)
    (he : e = x.entryOf x.linked) (b : ℕ) : (x.link e b).Inv none := by
  have hblock (n : ℕ) (hn : n < x.linked) : (x.link e b).blockOf n = x.blockOf n :=
    Function.update_of_ne hn.ne ..
  have hkeys (f : ℕ) : ((x.link e b).entries f).key = (x.entries f).key := by
    show (Function.update x.entries e _ f).key = _
    by_cases hf : f = e
    · rw [hf, Function.update_self]
    · rw [Function.update_of_ne hf]
  have hother (f : ℕ) (hf : f ≠ e) : (x.link e b).entries f = x.entries f :=
    Function.update_of_ne hf ..
  exact { hx with
    key := fun t ht hkept => (hkeys _).trans (hx.key t ht hkept)
    value := fun n hn hmem => by
      show ((x.link e b).entries (x.entryOf n)).value = some ((x.link e b).blockOf n)
      rcases Nat.lt_succ_iff_lt_or_eq.mp hn with hlt | rfl
      · have hne : x.entryOf n ≠ e := by
          rw [he]
          intro heq
          have := hx.entryOf_injective hlt.le (by omega) (kept_of_not_mem hmem) heq
          omega
        rw [hother _ hne, hblock n hlt]
        exact hx.value n hlt hmem
      · show (Function.update x.entries e _ (x.entryOf x.linked)).value =
          some (Function.update x.blockOf x.linked b x.linked)
        rw [← he, Function.update_self, Function.update_self]
    linked_le := hinserted.ge
    unlinked_lt := fun n hn => Nat.lt_succ_of_lt (hx.unlinked_lt n hn)
    used := fun f _ hkey hvalue => by
      by_cases hf : f = e
      · exact ⟨x.linked, Nat.lt_succ_self _, fun hmem => (hx.unlinked_lt _ hmem).false,
          by rw [hf, he]; rfl⟩
      · rw [hkeys] at hkey
        rw [hother f hf] at hvalue
        obtain ⟨n, hn, hmem, heq⟩ := hx.used f (by simpa using Ne.symm hf) hkey hvalue
        exact ⟨n, Nat.lt_succ_of_lt hn, hmem, heq⟩ }

/-- A block leaves. -/
lemma Inv.unlink {n : ℕ} (hx : x.Inv p) (hn : n < x.linked) (hmem : n ∉ x.unlinked) :
    (x.unlink n (x.entryOf n)).Inv p := by
  set y := x.unlink n (x.entryOf n) with hy
  have hkeys (f : ℕ) : (y.entries f).key = (x.entries f).key := by
    show (Function.update x.entries _ _ f).key = _
    by_cases hf : f = x.entryOf n
    · rw [hf, Function.update_self]
    · rw [Function.update_of_ne hf]
  have hother (f : ℕ) (hf : f ≠ x.entryOf n) : y.entries f = x.entries f :=
    Function.update_of_ne hf ..
  have hself : (y.entries (x.entryOf n)).value = none := by
    show (Function.update x.entries _ _ _).value = none
    rw [Function.update_self]
  have hnot {m : ℕ} (hm : m ∉ y.unlinked) : m ≠ n ∧ m ∉ x.unlinked := by
    have hm' : m ∉ Insert.insert n x.unlinked := hm
    rwa [Finset.mem_insert, not_or] at hm'
  have hkept (t : ℕ) (ht : y.Kept t) : x.Kept t := ht.imp fun _ hm => ⟨hm.1, (hnot hm.2).2⟩
  have hne (m : ℕ) (hm : m < x.linked) (hmn : m ≠ n) (hm' : m ∉ x.unlinked) :
      x.entryOf m ≠ x.entryOf n := by
    intro heq
    have hle := hx.linked_le
    rcases le_total m n with hmn' | hmn'
    · exact hmn (hx.entryOf_injective hmn' (by omega) (kept_of_not_mem hm') heq)
    · exact hmn (hx.entryOf_injective hmn' (by omega) (kept_of_not_mem hmem) heq.symm).symm
  exact { hx with
    window := fun h hh t ht hkeep => hx.window h hh t ht (hkept t hkeep)
    mapped := fun h hh t ht hkeep => hx.mapped h hh t ht (hkept t hkeep)
    key := fun t ht hkeep => (hkeys _).trans (hx.key t ht (hkept t hkeep))
    value := fun m hm hm' => by
      obtain ⟨hmn, hm'⟩ := hnot hm'
      show (y.entries (x.entryOf m)).value = some (x.blockOf m)
      rw [hother _ (hne m hm hmn hm')]
      exact hx.value m hm hm'
    unlinked_lt := fun m hm => by
      rcases Finset.mem_insert.mp hm with rfl | hm
      · exact hn
      · exact hx.unlinked_lt m hm
    used := fun f hpending hkey hvalue => by
      have hf : f ≠ x.entryOf n := by
        rintro rfl
        exact hvalue hself
      rw [hkeys] at hkey
      rw [hother f hf] at hvalue
      obtain ⟨m, hm, hm', heq⟩ := hx.used f hpending hkey hvalue
      refine ⟨m, hm, fun hmem' => ?_, heq⟩
      rcases Finset.mem_insert.mp hmem' with rfl | hmem'
      · exact hf heq.symm
      · exact hm' hmem' }

lemma Free.unlink {n e : ℕ} (hfree : x.Free) : (x.unlink n e).Free :=
  fun t ht hkept => hfree t ht
    (hkept.imp fun _ hm => ⟨hm.1, fun hmem => hm.2 (Finset.mem_insert_of_mem hmem)⟩)

end BlockIndex

variable {ι α : Type*}

/-- The entry that is about to become that of a block. -/
def Producer.pending : Producer α → Option ℕ
  | .advancing _ _ e | .requisitioning _ e | .linking _ e _ => some e
  | _ => none

/-- How far the thread that enqueues has got with the block of the next index. -/
def Placed (x : BlockIndex) (tailIndex : ℕ) : Producer α → Prop
  | .idle =>
      x.inserted = x.linked ∧ tailIndex ≤ blockSize * x.linked ∧
        blockSize * x.linked < tailIndex + blockSize
  | .atBoundary _ | .inserting _ => x.inserted = x.linked ∧ tailIndex = blockSize * x.linked
  | .keying _ newTail e =>
      x.inserted = x.linked ∧ tailIndex = blockSize * x.linked ∧ x.Free ∧ newTail = x.newTail ∧
        e = x.idxEntry
  | .advancing _ newTail e =>
      x.inserted = x.linked ∧ tailIndex = blockSize * x.linked ∧ x.Free ∧ newTail = x.newTail ∧
        e = x.idxEntry ∧ (x.entries e).key = tailIndex
  | .requisitioning _ e | .linking _ e _ =>
      x.inserted = x.linked + 1 ∧ tailIndex = blockSize * x.linked ∧ e = x.entryOf x.linked
  | .constructing _ | .publishing _ =>
      x.inserted = x.linked ∧ tailIndex / blockSize + 1 = x.linked

/-- What the local variables of a thread that dequeues have to do with the block index. -/
def Located (x : BlockIndex) : Consumer → Prop
  | .atHeader k h => h ≤ x.blockIndex ∧ k / blockSize < x.reach h
  | .atTail k h tail =>
      h ≤ x.blockIndex ∧ ∃ t < x.reach h, k / blockSize ≤ t ∧ tail = x.place h t
  | .atEntry k e => k / blockSize < x.linked ∧ e = x.entryOf (k / blockSize)
  | .atBlock k e b | .moved k e b | .unlinking k e b =>
      k / blockSize < x.linked ∧ e = x.entryOf (k / blockSize) ∧ b = x.blockOf (k / blockSize)
  | .releasing k b => k / blockSize < x.linked ∧ b = x.blockOf (k / blockSize)
  | _ => True

structure IndexInv (s : State ι α) : Prop where
  index : s.toBlockIndex.Inv s.producer.pending
  placed : Placed s.toBlockIndex s.tailIndex s.producer
  located : ∀ i, Located s.toBlockIndex (s.consumers i)

lemma Located.mono {x y : BlockIndex} {q : Consumer} (hq : Located x q)
    (hcur : x.blockIndex ≤ y.blockIndex) (hlinked : x.linked ≤ y.linked)
    (hplace : ∀ h ≤ x.blockIndex, ∀ t, y.place h t = x.place h t)
    (hreach : ∀ h ≤ x.blockIndex, x.reach h ≤ y.reach h)
    (hentry : ∀ n < x.linked, y.entryOf n = x.entryOf n)
    (hblock : ∀ n < x.linked, y.blockOf n = x.blockOf n) : Located y q := by
  cases q with
  | atHeader k h => exact ⟨hq.1.trans hcur, hq.2.trans_le (hreach h hq.1)⟩
  | atTail k h tail =>
      obtain ⟨hh, t, ht, hk, htail⟩ := hq
      exact ⟨hh.trans hcur, t, ht.trans_le (hreach h hh), hk, by rw [htail, hplace h hh]⟩
  | atEntry k e => exact ⟨hq.1.trans_le hlinked, by rw [hq.2, hentry _ hq.1]⟩
  | atBlock k e b | moved k e b | unlinking k e b =>
      exact ⟨hq.1.trans_le hlinked, by rw [hq.2.1, hentry _ hq.1], by rw [hq.2.2, hblock _ hq.1]⟩
  | releasing k b => exact ⟨hq.1.trans_le hlinked, by rw [hq.2, hblock _ hq.1]⟩
  | _ => trivial

variable {s s' : State ι α}

/-- The block of an element is linked. -/
lemma IndexInv.linked_of_lt (h : IndexInv s) {k : ℕ} (hk : k < s.tailIndex) :
    k / blockSize < s.linked := by
  have hplaced := h.placed
  unfold Placed at hplaced
  unfold blockSize at *
  split at hplaced <;> omega

lemma Placed.unlink {x : BlockIndex} {tail n e : ℕ} {p : Producer α} (hp : Placed x tail p) :
    Placed (x.unlink n e) tail p := by
  cases p with
  | keying => exact ⟨hp.1, hp.2.1, hp.2.2.1.unlink, hp.2.2.2⟩
  | advancing y newTail f =>
      refine ⟨hp.1, hp.2.1, hp.2.2.1.unlink, hp.2.2.2.1, hp.2.2.2.2.1, ?_⟩
      show (Function.update x.entries e _ f).key = _
      by_cases hf : f = e
      · rw [hf, Function.update_self, ← hf]
        exact hp.2.2.2.2.2
      · rw [Function.update_of_ne hf]
        exact hp.2.2.2.2.2
  | _ => exact hp

variable [DecidableEq ι]

/-- A step of a consumer that leaves the block index alone. -/
lemma IndexInv.goto (h : IndexInv s) {i : ι} {q : Consumer}
    (hindex : s'.toBlockIndex = s.toBlockIndex) (htail : s'.tailIndex = s.tailIndex)
    (hproducer : s'.producer = s.producer)
    (hpcs : s'.consumers = Function.update s.consumers i q) (hq : Located s.toBlockIndex q) :
    IndexInv s' where
  index := by rw [hindex, hproducer]; exact h.index
  placed := by rw [hindex, htail, hproducer]; exact h.placed
  located := by
    rw [hindex, hpcs]
    exact (Function.forall_update_iff _ fun _ q => Located s.toBlockIndex q).mpr
      ⟨hq, fun j _ => h.located j⟩

omit [DecidableEq ι] in
/-- A step of the producer, or of the rest of the queue, that leaves the block index alone. -/
lemma IndexInv.of_eq (h : IndexInv s) (hindex : s'.toBlockIndex = s.toBlockIndex)
    (hpcs : s'.consumers = s.consumers) (hpending : s'.producer.pending = s.producer.pending)
    (hplaced : Placed s.toBlockIndex s'.tailIndex s'.producer) : IndexInv s' where
  index := by rw [hindex, hpending]; exact h.index
  placed := by rw [hindex]; exact hplaced
  located := by rw [hindex, hpcs]; exact h.located

lemma IndexInv.step (h : IndexInv s) (hcount : CountInv s) (hhold : HoldInv s) {l : Label ι α}
    (hmove : Moves s l s') : IndexInv s' := by
  have hlinked {i : ι} {k : ℕ} (hk : (s.consumers i).index = some k) :
      k / blockSize < s.linked :=
    h.linked_of_lt ((hhold.index i k hk).1.trans_le hcount.headIndex_le)
  cases hmove with
  | @enqueue x hp hfull =>
      have hplaced := h.placed
      rw [hp] at hplaced
      refine h.of_eq rfl rfl (by rw [hp]; rfl) ⟨hplaced.1, ?_⟩
      show s.tailIndex = _
      have := hplaced.2
      unfold blockSize at *
      omega
  | @enqueueInside x hp hroom =>
      have hplaced := h.placed
      rw [hp] at hplaced
      refine h.of_eq rfl rfl (by rw [hp]; rfl) ⟨hplaced.1, ?_⟩
      show s.tailIndex / blockSize + 1 = _
      have := hplaced.2
      unfold blockSize at *
      omega
  | checked hp =>
      have hplaced := h.placed
      rw [hp] at hplaced
      exact h.of_eq rfl rfl (by rw [hp]; rfl) hplaced
  | reuse hp hfree =>
      have hplaced := h.placed
      have hindex := h.index
      rw [hp] at hplaced hindex
      exact h.of_eq rfl rfl (by rw [hp]; rfl)
        ⟨hplaced.1, hplaced.2, hindex.free_of_reuse hplaced.1.symm hfree, rfl, rfl⟩
  | grow hp hkey hvalue =>
      have hplaced := h.placed
      have hindex := h.index
      rw [hp] at hplaced hindex
      have hfull := hindex.capacity_le_inserted rfl hkey hvalue
      exact {
        index := hindex.newBlockIndex hfull
        placed := ⟨hplaced.1, hplaced.2, hindex.free_newBlockIndex, rfl, rfl⟩
        located := fun j => (h.located j).mono (Nat.le_succ _) le_rfl
          (fun _ hh => BlockIndex.newBlockIndex_place hh)
          (fun _ hh => (BlockIndex.newBlockIndex_reach hh).ge) (fun _ _ => rfl) fun _ _ => rfl }
  | @key x newTail e hp =>
      have hplaced := h.placed
      have hindex := h.index
      rw [hp] at hplaced hindex
      obtain ⟨hinserted, htail, hfree, rfl, rfl⟩ := hplaced
      exact {
        index := hindex.setKey hfree s.tailIndex
        placed := by
          refine ⟨hinserted, htail, hfree, rfl, rfl, ?_⟩
          show (Function.update s.entries _ _ _).key = _
          rw [Function.update_self]
        located := fun j => (h.located j).mono le_rfl le_rfl (fun _ _ _ => rfl) (fun _ _ => le_rfl)
          (fun _ _ => rfl) fun _ _ => rfl }
  | @advance x newTail e hp =>
      have hplaced := h.placed
      have hindex := h.index
      rw [hp] at hplaced hindex
      obtain ⟨hinserted, htail, hfree, rfl, rfl, hkey⟩ := hplaced
      exact {
        index := hindex.insert hfree (by rw [hkey, htail, hinserted])
        placed := by
          refine ⟨congrArg (· + 1) hinserted, htail, ?_⟩
          show _ = Function.update s.entryOf s.inserted _ s.linked
          rw [hinserted, Function.update_self]
        located := fun j => (h.located j).mono le_rfl le_rfl
          (fun _ _ _ => BlockIndex.insert_place ..)
          (fun g hg => by
            show _ ≤ Function.update s.reach s.blockIndex _ g
            by_cases hcase : g = s.blockIndex
            · rw [hcase, Function.update_self, hindex.reach]
              exact Nat.le_succ _
            · rw [Function.update_of_ne hcase])
          (fun n hn => Function.update_of_ne (by omega) ..) fun _ _ => rfl }
  | requisition hp _ =>
      have hplaced := h.placed
      rw [hp] at hplaced
      exact h.of_eq rfl rfl (by rw [hp]; rfl) hplaced
  | @link x e b hp =>
      have hplaced := h.placed
      have hindex := h.index
      rw [hp] at hplaced hindex
      obtain ⟨hinserted, htail, hentry⟩ := hplaced
      exact {
        index := hindex.link hinserted hentry b
        placed := by
          refine ⟨hinserted, ?_⟩
          show s.tailIndex / blockSize + 1 = s.linked + 1
          unfold blockSize at *
          omega
        located := fun j => (h.located j).mono le_rfl (Nat.le_succ _) (fun _ _ _ => rfl)
          (fun _ _ => le_rfl) (fun _ _ => rfl) fun n hn => Function.update_of_ne hn.ne .. }
  | construct hp _ =>
      have hplaced := h.placed
      rw [hp] at hplaced
      exact h.of_eq rfl rfl (by rw [hp]; rfl) hplaced
  | publish hp =>
      have hplaced := h.placed
      rw [hp] at hplaced
      refine h.of_eq rfl rfl (by rw [hp]; rfl) ⟨hplaced.1, ?_⟩
      show s.tailIndex + 1 ≤ _ ∧ _ < s.tailIndex + 1 + _
      have := hplaced.2
      unfold blockSize at *
      omega
  | @header i k hi =>
      refine h.goto rfl rfl rfl rfl ⟨le_rfl, ?_⟩
      rw [h.index.reach]
      exact (hlinked (by rw [hi]; rfl)).trans_le h.index.linked_le
  | @headerTail i k hd hi =>
      have hlocated := h.located i
      rw [hi] at hlocated
      obtain ⟨hh, hk⟩ := hlocated
      refine h.goto rfl rfl rfl rfl
        ⟨hh, s.reach hd - 1, Nat.sub_one_lt_of_lt hk, Nat.le_sub_one_of_lt hk, ?_⟩
      rw [h.index.tail hd hh]
      exact Rings.place_newest (Nat.zero_lt_of_lt hk)
  | entry hi => exact h.goto rfl rfl rfl rfl ⟨hlinked (by rw [hi]; rfl), rfl⟩
  | @block i k e hi =>
      have hlocated := h.located i
      rw [hi] at hlocated
      exact h.goto rfl rfl rfl rfl ⟨hlocated.1, hlocated.2, rfl⟩
  | @move i k e b _ hi _ =>
      have hlocated := h.located i
      rw [hi] at hlocated
      exact h.goto rfl rfl rfl rfl hlocated
  | @empty i k e b hi =>
      have hlocated := h.located i
      rw [hi] at hlocated
      refine h.goto rfl rfl rfl rfl ?_
      split
      · exact hlocated
      · trivial
  | @unlink i k e b hi =>
      have hlocated := h.located i
      rw [hi] at hlocated
      obtain ⟨hk, rfl, hb⟩ := hlocated
      have hmem := hhold.unlinking i k _ b hi
      exact {
        index := h.index.unlink hk hmem
        placed := h.placed.unlink
        located := (Function.forall_update_iff _ fun _ q => Located _ q).mpr
          ⟨⟨hk, hb⟩, fun j _ => (h.located j).mono le_rfl le_rfl (fun _ _ _ => rfl)
            (fun _ _ => le_rfl) (fun _ _ => rfl) fun _ _ => rfl⟩ }
  | call hi | overcommit hi | goOn hi | miss hi | claim hi | win hi | lose hi | giveBack hi
  | take hi | release hi => exact h.goto rfl rfl rfl rfl trivial
  | _ => exact h.of_eq rfl rfl rfl h.placed

end ImplicitProducer

end Queue

end S3Proxy
