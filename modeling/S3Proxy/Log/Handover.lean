import S3Proxy.Log.QueueBuffer

/-!
# What the threads that log agree on

The slot of a thread is its own from the claim to the count: `Owns`.  So the counts of a buffer come
from different slots, and the thread that counts the last one finds nobody else in the buffer; until
it resets the write index nobody claims a slot of the next one.

## Main result

`WriteInv.step`: every step keeps the invariant `WriteInv`, unless it uses a freed buffer.  It says
of each thread that its program point fits the buffers (`Fits`), that at most one thread is setting
up the next buffer, and that some thread is doing so when the last slot is counted.

`WriteInv.count_eq` is the argument about the count: it is the number of the slots that are counted,
which are different ones, so the last count of a buffer finds all slots counted.
`WriteInv.of_switching` says what the thread that sets up the next buffer may rely on.

Each kind of step has a lemma of its own: `WriteInv.claim_of_lt` and `WriteInv.claim_of_le`,
`WriteInv.construct`, `WriteInv.store`, `WriteInv.count_step`, `WriteInv.allocate` and
`WriteInv.reset`.  The first two are the claims that find a slot and those that come too late.
`Fits.mono`, `Fits.setBuffer` and `Fits.move` are what the other threads do not notice.

## Hypotheses

A buffer has a slot, and no step of the run has used a freed buffer.

## Where it is used

`Log.Delivery` proves the reader's side from it, and `Log.Release` asks who is left in a buffer that
is freed.
-/

namespace S3Proxy

namespace Log

namespace QueueBuffer

variable {ι α : Type*}

/-- The slot that a thread is working on. -/
def Writer.slot : Writer α → Option ℕ
  | .claimed _ k | .loaded _ _ k | .constructed _ k | .stored _ k => some k
  | _ => none

/-- In `setup_next_write_buffer`. -/
def Writer.inSetup : Writer α → Bool
  | .switching | .linking | .linked => true
  | _ => false

/-- In `setup_next_write_buffer`, with the pointer to the new buffer set. -/
def Writer.handing : Writer α → Bool
  | .linking | .linked => true
  | _ => false

/-- The slot of the current buffer that a thread has claimed and not counted. -/
structure Owns (size : ℕ) (s : Writing ι α) (i : ι) (line : α) (k : ℕ) : Prop where
  lt : k < size
  notCounted : k ∉ (s.buffers s.current).counted
  claims : s.claims[s.current * size + k]? = some (i, line)

/-- What holds where a thread is. -/
def Fits (size : ℕ) (s : Writing ι α) (i : ι) : Writer α → Prop
  | .outside | .entered _ | .spinning _ => True
  | .claimed line k => Owns size s i line k
  | .loaded line b k => b = s.current ∧ Owns size s i line k
  | .constructed b k =>
      b = s.current ∧ ∃ line, Owns size s i line k ∧ (s.buffers b).items k = some line
  | .stored b k =>
      b = s.current ∧ (∃ line, Owns size s i line k ∧ (s.buffers b).items k = some line) ∧
        (s.buffers b).writeState k = true
  | .switching => (s.buffers s.current).counted = Finset.range size
  | .linking | .linked => s.claims.length = s.current * size ∧ size ≤ s.writeIndex

/-- How the claims, the threads and the buffers belong together. -/
structure WriteInv (size : ℕ) (s : Writing ι α) : Prop where
  threads : ∀ i, Fits size s i (s.pc i)
  alone : ∀ i j, (s.pc i).inSetup = true → (s.pc j).inSetup = true → i = j
  total : (∀ i, (s.pc i).handing = false) →
    s.claims.length = s.current * size + min s.writeIndex size
  covered : ∀ k < size, s.current * size + k < s.claims.length →
    k ∈ (s.buffers s.current).counted ∨ Threads.Occurs Writer.slot s.pc k
  counted : ∀ b, ∀ k ∈ (s.buffers b).counted,
    k < size ∧ b * size + k < s.claims.length ∧ (s.buffers b).writeState k = true
  count : ∀ b, (s.buffers b).count = (s.buffers b).counted.card
  full : ∀ b < s.current, (s.buffers b).counted = Finset.range size
  switching : (s.buffers s.current).counted = Finset.range size → ∃ i, s.pc i = .switching
  contents : ∀ b k, (s.buffers b).writeState k = true → k < size ∧
    ∃ i line, s.claims[b * size + k]? = some (i, line) ∧ (s.buffers b).items k = some line
  fresh : ∀ b, s.current < b → s.buffers b = {}

variable {size : ℕ} {s : Writing ι α} {i j : ι} {line line' : α} {b k : ℕ} {q : Writer α}

/-! ### Owning a slot -/

lemma Owns.unique (h : Owns size s i line k) (h' : Owns size s j line' k) :
    i = j ∧ line = line' := by
  have heq := h.claims.symm.trans h'.claims
  simpa using heq

lemma Owns.lt_length (h : Owns size s i line k) : s.current * size + k < s.claims.length :=
  (List.getElem?_eq_some_iff.mp h.claims).1

/-- A thread that works on a slot owns it. -/
lemma owns_of_slot (h : Fits size s i q) (hslot : q.slot = some k) :
    ∃ line, Owns size s i line k := by
  cases q with
  | claimed line k' =>
      obtain rfl : k' = k := Option.some.inj hslot
      exact ⟨line, h⟩
  | loaded line b k' =>
      obtain rfl : k' = k := Option.some.inj hslot
      exact ⟨line, h.2⟩
  | constructed b k' =>
      obtain rfl : k' = k := Option.some.inj hslot
      obtain ⟨line, hline⟩ := h.2
      exact ⟨line, hline.1⟩
  | stored b k' =>
      obtain rfl : k' = k := Option.some.inj hslot
      obtain ⟨line, hline⟩ := h.2.1
      exact ⟨line, hline.1⟩
  | outside => cases hslot
  | entered line => cases hslot
  | spinning line => cases hslot
  | switching => cases hslot
  | linking => cases hslot
  | linked => cases hslot

lemma Fits.of_handing (h : Fits size s i q) (hq : q.handing = true) :
    s.claims.length = s.current * size ∧ size ≤ s.writeIndex := by
  cases q <;> first | exact h | cases hq

lemma inSetup_of_handing (hq : q.handing = true) : q.inSetup = true := by
  cases q <;> first | rfl | cases hq

/-- While a slot is owned nobody sets up the next buffer. -/
lemma WriteInv.not_inSetup (h : WriteInv size s) (howns : Owns size s i line k) (j : ι) :
    (s.pc j).inSetup = false := by
  have hfits := h.threads j
  have hlt := howns.lt_length
  cases hpc : s.pc j with
  | switching =>
      rw [hpc] at hfits
      exact absurd (hfits ▸ Finset.mem_range.mpr howns.lt) howns.notCounted
  | linking =>
      rw [hpc] at hfits
      have hlength := hfits.1
      omega
  | linked =>
      rw [hpc] at hfits
      have hlength := hfits.1
      omega
  | _ => rfl

/-- The last count of a buffer finds all its slots counted. -/
lemma WriteInv.count_eq (h : WriteInv size s) (howns : Owns size s i line k)
    (hlast : (s.buffers s.current).count + 1 = size) :
    insert k (s.buffers s.current).counted = Finset.range size := by
  apply Finset.eq_of_subset_of_card_le
  · intro k' hk'
    rw [Finset.mem_range]
    rcases Finset.mem_insert.mp hk' with rfl | hmem
    · exact howns.lt
    · exact (h.counted _ k' hmem).1
  · rw [Finset.card_range, Finset.card_insert_of_notMem howns.notCounted, ← h.count, hlast]

/-- Once the last slot is counted all of them have been claimed, and none is in work. -/
lemma WriteInv.of_switching (h : WriteInv size s) (hsize : 0 < size)
    (hpc : s.pc i = .switching) :
    (s.buffers s.current).counted = Finset.range size ∧
      s.claims.length = (s.current + 1) * size ∧ size ≤ s.writeIndex ∧
      (∀ j, (s.pc j).handing = false) ∧ ∀ j, (s.pc j).slot = none := by
  have hfull : (s.buffers s.current).counted = Finset.range size := by
    have hfits := h.threads i
    rwa [hpc] at hfits
  have hnone (j : ι) : (s.pc j).handing = false := by
    by_contra hj
    have hj' : (s.pc j).handing = true := by simpa using hj
    obtain rfl := h.alone i j (by rw [hpc]; rfl) (inSetup_of_handing hj')
    rw [hpc] at hj'
    cases hj'
  have hlast : size - 1 ∈ (s.buffers s.current).counted := by
    rw [hfull, Finset.mem_range]
    omega
  have hlt := (h.counted _ _ hlast).2.1
  have htotal := h.total hnone
  have hmul : (s.current + 1) * size = s.current * size + size := Nat.succ_mul ..
  refine ⟨hfull, by omega, by omega, hnone, fun j => ?_⟩
  rw [Option.eq_none_iff_forall_ne_some]
  intro k hk
  obtain ⟨line, howns⟩ := owns_of_slot (h.threads j) hk
  exact howns.notCounted (hfull ▸ Finset.mem_range.mpr howns.lt)

lemma fits_of_idle (hslot : q.slot = none) (hsetup : q.inSetup = false) : Fits size s i q := by
  cases q <;> trivial

/-- At the beginning. -/
lemma writeInv_init (hsize : 0 < size) : WriteInv size ({} : Writing ι α) where
  threads _ := trivial
  alone _ _ h := by cases h
  total _ := by simp
  covered _ _ hlt := by simp at hlt
  counted _ _ h := by simp at h
  count _ := rfl
  full _ h := by simp at h
  switching h := by
    have hmem : 0 ∈ Finset.range size := Finset.mem_range.mpr hsize
    rw [← h] at hmem
    simp at hmem
  contents _ _ h := by simp at h
  fresh _ _ := rfl

/-! ### What the other threads rely on -/

/-- What others rely on is kept by claims and by a higher index. -/
lemma Fits.mono (h : Fits size s i q) (t : Writing ι α) (hbuffers : t.buffers = s.buffers)
    (hcurrent : t.current = s.current) (hindex : s.writeIndex ≤ t.writeIndex)
    (hclaims : s.claims <+: t.claims) (hhanding : q.handing = true → t.claims = s.claims) :
    Fits size t i q := by
  have howns (line : α) (k : ℕ) (h : Owns size s i line k) : Owns size t i line k := by
    refine ⟨h.lt, ?_, ?_⟩
    · rw [hbuffers, hcurrent]
      exact h.notCounted
    · obtain ⟨rest, hrest⟩ := hclaims
      rw [hcurrent, ← hrest, List.getElem?_append_left h.lt_length]
      exact h.claims
  cases q with
  | claimed line k => exact howns _ _ h
  | loaded line b k => exact ⟨hcurrent ▸ h.1, howns _ _ h.2⟩
  | constructed b k =>
      obtain ⟨hb, line, hline, hitem⟩ := h
      exact ⟨hcurrent ▸ hb, line, howns _ _ hline, hbuffers ▸ hitem⟩
  | stored b k =>
      obtain ⟨hb, ⟨line, hline, hitem⟩, hstate⟩ := h
      exact ⟨hcurrent ▸ hb, ⟨line, howns _ _ hline, hbuffers ▸ hitem⟩, hbuffers ▸ hstate⟩
  | switching =>
      show (t.buffers t.current).counted = _
      rw [hbuffers, hcurrent]
      exact h
  | linking =>
      refine ⟨?_, h.2.trans hindex⟩
      rw [hhanding rfl, hcurrent]
      exact h.1
  | linked =>
      refine ⟨?_, h.2.trans hindex⟩
      rw [hhanding rfl, hcurrent]
      exact h.1
  | outside => trivial
  | entered line => trivial
  | spinning line => trivial

/-- What the other threads rely on is kept by a step in a slot that is not theirs. -/
lemma Fits.setBuffer {buffer : Buffer α} (h : Fits size s j q) (hq : q.inSetup = false)
    (hslot : q.slot ≠ some k)
    (hitems : ∀ k' ≠ k, buffer.items k' = (s.buffers s.current).items k')
    (hstate : ∀ k' ≠ k, buffer.writeState k' = (s.buffers s.current).writeState k')
    (hcounted : ∀ k' ≠ k, k' ∈ buffer.counted ↔ k' ∈ (s.buffers s.current).counted) :
    Fits size (s.setBuffer s.current buffer) j q := by
  have hbuffer := s.buffers_setBuffer s.current buffer
  have howns (line : α) (k' : ℕ) (hk' : k' ≠ k) (h : Owns size s j line k') :
      Owns size (s.setBuffer s.current buffer) j line k' := by
    refine ⟨h.lt, ?_, h.claims⟩
    show k' ∉ ((s.setBuffer s.current buffer).buffers s.current).counted
    rw [hbuffer, hcounted k' hk']
    exact h.notCounted
  cases q with
  | claimed line k' => exact howns _ _ (fun heq => hslot (congrArg some heq)) h
  | loaded line b k' => exact ⟨h.1, howns _ _ (fun heq => hslot (congrArg some heq)) h.2⟩
  | constructed b k' =>
      have hk' : k' ≠ k := fun heq => hslot (congrArg some heq)
      obtain ⟨rfl, line, hline, hitem⟩ := h
      refine ⟨rfl, line, howns _ _ hk' hline, ?_⟩
      rw [hbuffer, hitems k' hk', hitem]
  | stored b k' =>
      have hk' : k' ≠ k := fun heq => hslot (congrArg some heq)
      obtain ⟨rfl, ⟨line, hline, hitem⟩, hmark⟩ := h
      refine ⟨rfl, ⟨line, howns _ _ hk' hline, ?_⟩, ?_⟩
      · rw [hbuffer, hitems k' hk', hitem]
      · rw [hbuffer, hstate k' hk', hmark]
  | switching => cases hq
  | linking => cases hq
  | linked => cases hq
  | outside => trivial
  | entered line => trivial
  | spinning line => trivial

variable [DecidableEq ι]

/-! ### Steps that leave the buffers alone -/

lemma Fits.move {q' : Writer α} (h : Fits size s j q) : Fits size (s.move i q') j q :=
  h.mono _ rfl rfl le_rfl (List.prefix_refl _) fun _ => rfl

/-- A thread that is in a set-up has been in it, or has found nobody there. -/
lemma WriteInv.alone_move (h : WriteInv size s)
    (hq : q.inSetup = true → (s.pc i).inSetup = true ∨ ∀ j, (s.pc j).inSetup = false) (j j' : ι)
    (hj : ((s.move i q).pc j).inSetup = true) (hj' : ((s.move i q).pc j').inSetup = true) :
    j = j' := by
  have hbefore (j : ι) (hj : ((s.move i q).pc j).inSetup = true) :
      (s.pc j).inSetup = true ∨ (j = i ∧ ∀ j, (s.pc j).inSetup = false) := by
    by_cases hji : j = i
    · subst hji
      rw [s.pc_move] at hj
      exact (hq hj).imp_right fun hnone => ⟨rfl, hnone⟩
    · rw [s.pc_move_of_ne hji] at hj
      exact .inl hj
  rcases hbefore j hj with hold | ⟨rfl, hnone⟩
  · rcases hbefore j' hj' with hold' | ⟨rfl, hnone⟩
    · exact h.alone j j' hold hold'
    · simp [hnone j] at hold
  · rcases hbefore j' hj' with hold' | ⟨rfl, -⟩
    · simp [hnone j'] at hold'
    · rfl

/-- The threads other than the one that moves, and that one where it has come to. -/
lemma handing_of_move (hq : q.handing = (s.pc i).handing)
    (h : ∀ j, ((s.move i q).pc j).handing = false) (j : ι) : (s.pc j).handing = false := by
  have hj := h j
  by_cases hji : j = i
  · subst hji
    rwa [s.pc_move, hq] at hj
  · rwa [s.pc_move_of_ne hji] at hj

lemma WriteInv.switching_move (h : WriteInv size s) (hi : s.pc i ≠ .switching)
    (hfull : (s.buffers s.current).counted = Finset.range size) :
    ∃ j, (s.move i q).pc j = .switching := by
  obtain ⟨j, hj⟩ := h.switching hfull
  refine ⟨j, ?_⟩
  rwa [s.pc_move_of_ne]
  rintro rfl
  exact hi hj

/-- A thread that neither takes nor gives up a slot, nor begins or ends a set-up. -/
lemma WriteInv.move (h : WriteInv size s) (hslot : q.slot = (s.pc i).slot)
    (hsetup : q.inSetup = (s.pc i).inSetup) (hhanding : q.handing = (s.pc i).handing)
    (hi : s.pc i ≠ .switching) (hq : Fits size s i q) : WriteInv size (s.move i q) where
  threads := (Function.forall_update_iff s.pc fun j q => Fits size (s.move i _) j q).mpr
    ⟨hq.move, fun j _ => (h.threads j).move⟩
  alone := h.alone_move fun hq => .inl (hsetup ▸ hq)
  total hnone := h.total (handing_of_move hhanding hnone)
  covered k hk hlt := (h.covered k hk hlt).imp_right fun hocc =>
    hocc.update.elim (fun hi => Threads.occurs_update_self (hslot.trans hi)) id
  counted := h.counted
  count := h.count
  full := h.full
  switching := h.switching_move hi
  contents := h.contents
  fresh := h.fresh

/-- A slot is claimed. -/
lemma WriteInv.claim_of_lt (h : WriteInv size s) (hpc : s.pc i = .entered line)
    (hlt : s.writeIndex < size) : WriteInv size (s.claim size i line) := by
  have hhanding (j : ι) : (s.pc j).handing = false := by
    by_contra hj
    have hle := ((h.threads j).of_handing (by simpa using hj)).2
    omega
  have htotal : s.claims.length = s.current * size + s.writeIndex := by
    rw [h.total hhanding, Nat.min_eq_left hlt.le]
  have hnotCounted : s.writeIndex ∉ (s.buffers s.current).counted := by
    intro hmem
    have hlt' := (h.counted _ _ hmem).2.1
    omega
  have hget : (s.claims ++ [(i, line)])[s.current * size + s.writeIndex]? = some (i, line) := by
    rw [← htotal, List.getElem?_concat_length]
  rw [Writing.claim, if_pos hlt]
  constructor
  · refine (Function.forall_update_iff s.pc fun j q => Fits size _ j q).mpr
      ⟨⟨hlt, hnotCounted, hget⟩, fun j _ => ?_⟩
    refine (h.threads j).mono _ rfl rfl (Nat.le_succ _) (List.prefix_append _ _) fun hj => ?_
    rw [hhanding j] at hj
    cases hj
  · exact h.alone_move nofun
  · intro _
    show (s.claims ++ [(i, line)]).length = s.current * size + min (s.writeIndex + 1) size
    rw [List.length_append, htotal, List.length_singleton]
    omega
  · intro k hk hlt'
    change s.current * size + k < (s.claims ++ [(i, line)]).length at hlt'
    rw [List.length_append, List.length_singleton] at hlt'
    by_cases hkw : k = s.writeIndex
    · exact .inr (Threads.occurs_update_self (congrArg some hkw.symm))
    · exact (h.covered k hk (by omega)).imp_right fun hocc => hocc.update_none (by rw [hpc]; rfl)
  · intro b k hk
    obtain ⟨hk', hlt', hstate⟩ := h.counted b k hk
    exact ⟨hk', hlt'.trans_le (List.prefix_append _ _).length_le, hstate⟩
  · exact h.count
  · exact h.full
  · exact h.switching_move (by rw [hpc]; exact nofun)
  · intro b k hk
    obtain ⟨hk', j, line', hget', hitem⟩ := h.contents b k hk
    refine ⟨hk', j, line', ?_, hitem⟩
    show (s.claims ++ [(i, line)])[b * size + k]? = _
    rw [List.getElem?_append_left (List.getElem?_eq_some_iff.mp hget').1, hget']
  · exact h.fresh

/-- A claim that comes too late. -/
lemma WriteInv.claim_of_le (h : WriteInv size s) (hpc : s.pc i = .entered line)
    (hle : size ≤ s.writeIndex) : WriteInv size (s.claim size i line) := by
  have hraise : WriteInv size { s with writeIndex := s.writeIndex + 1 } :=
    { h with
      threads := fun j => (h.threads j).mono _ rfl rfl (Nat.le_succ _) (List.prefix_refl _)
        fun _ => rfl
      total := by
        intro hnone
        show s.claims.length = s.current * size + min (s.writeIndex + 1) size
        rw [h.total hnone]
        omega }
  have hnot : ¬ s.writeIndex < size := by omega
  rw [Writing.claim, if_neg hnot]
  apply hraise.move
  all_goals simp [hpc, Fits, Writer.slot, Writer.inSetup, Writer.handing]

/-! ### Steps in a slot -/

/-- The threads after a step in a slot. -/
lemma WriteInv.threads_setBuffer {buffer : Buffer α} (h : WriteInv size s)
    (howns : Owns size s i line k)
    (hitems : ∀ k' ≠ k, buffer.items k' = (s.buffers s.current).items k')
    (hstate : ∀ k' ≠ k, buffer.writeState k' = (s.buffers s.current).writeState k')
    (hcounted : ∀ k' ≠ k, k' ∈ buffer.counted ↔ k' ∈ (s.buffers s.current).counted)
    (hq : Fits size (s.setBuffer s.current buffer) i q) (j : ι) :
    Fits size ((s.setBuffer s.current buffer).move i q) j
      (((s.setBuffer s.current buffer).move i q).pc j) := by
  by_cases hji : j = i
  · subst hji
    rw [Writing.pc_move]
    exact hq.move
  · rw [Writing.pc_move_of_ne _ hji]
    refine Fits.move ((h.threads j).setBuffer (h.not_inSetup howns j) ?_ hitems hstate hcounted)
    intro hslot
    obtain ⟨line', howns'⟩ := owns_of_slot (h.threads j) hslot
    exact hji (howns'.unique howns).1

/-- **A step in a slot**: of its buffer nothing else changes, and the thread keeps the slot or has
counted it. -/
lemma WriteInv.setBuffer {buffer : Buffer α} (h : WriteInv size s)
    (howns : Owns size s i line k) (hslot : (s.pc i).slot = some k)
    (hitems : ∀ k' ≠ k, buffer.items k' = (s.buffers s.current).items k')
    (hstate : ∀ k' ≠ k, buffer.writeState k' = (s.buffers s.current).writeState k')
    (hcounted : ∀ k' ≠ k, k' ∈ buffer.counted ↔ k' ∈ (s.buffers s.current).counted)
    (hcard : buffer.count = buffer.counted.card) (hitem : buffer.items k = some line)
    (hmarked : k ∈ buffer.counted → buffer.writeState k = true)
    (hq : Fits size (s.setBuffer s.current buffer) i q)
    (hkept : q.slot = some k ∨ k ∈ buffer.counted)
    (hswitching : buffer.counted = Finset.range size → q = .switching) :
    WriteInv size ((s.setBuffer s.current buffer).move i q) := by
  have hself := s.buffers_setBuffer s.current buffer
  have hother (b : ℕ) (hb : b ≠ s.current) := s.buffers_setBuffer_of_ne hb buffer
  have hnone (j : ι) : (s.pc j).handing = false := by
    have hj := h.not_inSetup howns j
    by_contra hhanding
    rw [inSetup_of_handing (by simpa using hhanding)] at hj
    cases hj
  constructor
  · exact h.threads_setBuffer howns hitems hstate hcounted hq
  · exact h.alone_move fun _ => .inr (h.not_inSetup howns)
  · exact fun _ => h.total hnone
  · intro k' hk' hlt
    show k' ∈ ((s.setBuffer s.current buffer).buffers s.current).counted ∨ _
    rw [hself]
    by_cases hkk : k' = k
    · subst hkk
      exact hkept.symm.imp_right Threads.occurs_update_self
    · rw [hcounted k' hkk]
      refine (h.covered k' hk' hlt).imp_right fun hocc => hocc.update.resolve_left ?_
      rw [hslot]
      exact fun heq => hkk (Option.some.inj heq).symm
  · intro b k' hk'
    change k' ∈ ((s.setBuffer s.current buffer).buffers b).counted at hk'
    show k' < size ∧ b * size + k' < s.claims.length ∧
      ((s.setBuffer s.current buffer).buffers b).writeState k' = true
    by_cases hb : b = s.current
    · subst hb
      rw [hself] at hk' ⊢
      by_cases hkk : k' = k
      · subst hkk
        exact ⟨howns.lt, howns.lt_length, hmarked hk'⟩
      · rw [hstate k' hkk]
        exact h.counted _ k' ((hcounted k' hkk).mp hk')
    · rw [hother b hb] at hk' ⊢
      exact h.counted b k' hk'
  · intro b
    show ((s.setBuffer s.current buffer).buffers b).count =
      ((s.setBuffer s.current buffer).buffers b).counted.card
    by_cases hb : b = s.current
    · rw [hb, hself, hcard]
    · rw [hother b hb, h.count b]
  · intro b hb
    show ((s.setBuffer s.current buffer).buffers b).counted = _
    rw [hother b (Nat.ne_of_lt hb)]
    exact h.full b hb
  · intro hfull
    change ((s.setBuffer s.current buffer).buffers s.current).counted = _ at hfull
    rw [hself] at hfull
    exact ⟨i, (Writing.pc_move ..).trans (hswitching hfull)⟩
  · intro b k' hk'
    change ((s.setBuffer s.current buffer).buffers b).writeState k' = true at hk'
    show k' < size ∧ ∃ j line, s.claims[b * size + k']? = some (j, line) ∧
      ((s.setBuffer s.current buffer).buffers b).items k' = some line
    by_cases hb : b = s.current
    · subst hb
      rw [hself] at hk' ⊢
      by_cases hkk : k' = k
      · subst hkk
        exact ⟨howns.lt, i, line, howns.claims, hitem⟩
      · rw [hitems k' hkk]
        exact h.contents _ k' (hstate k' hkk ▸ hk')
    · rw [hother b hb] at hk' ⊢
      exact h.contents b k' hk'
  · intro b hb
    exact (hother b (Nat.ne_of_gt hb)).trans (h.fresh b hb)

lemma WriteInv.construct (h : WriteInv size s) (hpc : s.pc i = .loaded line b k) :
    WriteInv size (s.construct i line b k) := by
  have hfits := h.threads i
  rw [hpc] at hfits
  obtain ⟨rfl, howns⟩ := hfits
  have hitem : Function.update (s.buffers s.current).items k (some line) k = some line :=
    Function.update_self ..
  have hne : (s.buffers s.current).counted ≠ Finset.range size := fun hfull =>
    howns.notCounted (hfull ▸ Finset.mem_range.mpr howns.lt)
  refine h.setBuffer howns (by rw [hpc]; rfl) (fun k' hk' => Function.update_of_ne hk' ..)
    (fun _ _ => rfl) (fun _ _ => Iff.rfl) (h.count _) hitem
    (fun hmem => absurd hmem howns.notCounted) ⟨rfl, line, ⟨howns.lt, ?_, howns.claims⟩, ?_⟩
    (.inl rfl) (fun hfull => absurd hfull hne)
  · rw [show (Writing.setBuffer s s.current _).current = s.current from rfl,
      Writing.buffers_setBuffer]
    exact howns.notCounted
  · rw [Writing.buffers_setBuffer]
    exact hitem

lemma WriteInv.store (h : WriteInv size s) (hpc : s.pc i = .constructed b k) :
    WriteInv size (s.store i b k) := by
  have hfits := h.threads i
  rw [hpc] at hfits
  obtain ⟨rfl, line, howns, hitem⟩ := hfits
  have hmark : Function.update (s.buffers s.current).writeState k true k = true :=
    Function.update_self ..
  have hne : (s.buffers s.current).counted ≠ Finset.range size := fun hfull =>
    howns.notCounted (hfull ▸ Finset.mem_range.mpr howns.lt)
  refine h.setBuffer howns (by rw [hpc]; rfl) (fun _ _ => rfl)
    (fun k' hk' => Function.update_of_ne hk' ..) (fun _ _ => Iff.rfl) (h.count _) hitem
    (fun hmem => absurd hmem howns.notCounted)
    ⟨rfl, ⟨line, ⟨howns.lt, ?_, howns.claims⟩, ?_⟩, ?_⟩
    (.inl rfl) (fun hfull => absurd hfull hne)
  · rw [show (Writing.setBuffer s s.current _).current = s.current from rfl,
      Writing.buffers_setBuffer]
    exact howns.notCounted
  · rw [Writing.buffers_setBuffer]
    exact hitem
  · rw [Writing.buffers_setBuffer]
    exact hmark

lemma WriteInv.count_step (h : WriteInv size s) (hpc : s.pc i = .stored b k) :
    WriteInv size (s.count size i b k) := by
  have hfits := h.threads i
  rw [hpc] at hfits
  obtain ⟨rfl, ⟨line, howns, hitem⟩, hmark⟩ := hfits
  have hcard : (s.buffers s.current).count + 1 =
      (insert k (s.buffers s.current).counted).card := by
    rw [Finset.card_insert_of_notMem howns.notCounted, h.count]
  refine h.setBuffer howns (by rw [hpc]; rfl) (fun _ _ => rfl) (fun _ _ => rfl) (fun k' hk' => ?_)
    hcard hitem (fun _ => hmark) ?_ (.inr (Finset.mem_insert_self ..)) (fun hfull => ?_)
  · show k' ∈ insert k (s.buffers s.current).counted ↔ _
    rw [Finset.mem_insert, or_iff_right hk']
  · by_cases hlast : (s.buffers s.current).count + 1 = size
    · rw [if_pos hlast]
      show ((Writing.setBuffer s s.current _).buffers s.current).counted = Finset.range size
      rw [Writing.buffers_setBuffer]
      exact h.count_eq howns hlast
    · rw [if_neg hlast]
      trivial
  · have hlast : (s.buffers s.current).count + 1 = size := by
      rw [hcard, show insert k (s.buffers s.current).counted = _ from hfull, Finset.card_range]
    exact if_pos hlast

/-! ### Steps of a set-up -/

lemma WriteInv.allocate (h : WriteInv size s) (hsize : 0 < size) (hpc : s.pc i = .switching) :
    WriteInv size (s.allocate i) := by
  obtain ⟨hfull, hlength, hindex, hnone, hslot⟩ := h.of_switching hsize hpc
  have hnew : s.buffers (s.current + 1) = {} := h.fresh _ (Nat.lt_succ_self _)
  constructor
  · intro j
    by_cases hji : j = i
    · subst hji
      rw [Writing.allocate, Writing.pc_move]
      exact ⟨hlength, hindex⟩
    · rw [Writing.allocate, Writing.pc_move_of_ne _ hji]
      refine fits_of_idle (hslot j) ?_
      by_contra hj
      exact hji (h.alone j i (by simpa using hj) (by rw [hpc]; rfl))
  · exact h.alone_move fun _ => .inl (by rw [hpc]; rfl)
  · intro hnone'
    have hi := hnone' i
    rw [Writing.allocate, Writing.pc_move] at hi
    cases hi
  · intro k hk hlt
    change (s.current + 1) * size + k < s.claims.length at hlt
    omega
  · exact h.counted
  · exact h.count
  · intro b hb
    rcases Nat.lt_succ_iff_lt_or_eq.mp hb with hlt | rfl
    · exact h.full b hlt
    · exact hfull
  · intro hfull'
    change (s.buffers (s.current + 1)).counted = Finset.range size at hfull'
    rw [hnew] at hfull'
    have hmem : 0 ∈ Finset.range size := Finset.mem_range.mpr hsize
    rw [← hfull'] at hmem
    cases hmem
  · exact h.contents
  · exact fun b hb => h.fresh b (Nat.lt_of_succ_lt hb)

lemma WriteInv.reset (h : WriteInv size s) (hpc : s.pc i = .linked) :
    WriteInv size (s.reset i) := by
  have hsetup : (s.pc i).inSetup = true := by rw [hpc]; rfl
  have hlength := ((h.threads i).of_handing (by rw [hpc]; rfl)).1
  constructor
  · intro j
    by_cases hji : j = i
    · subst hji
      rw [Writing.reset, Writing.pc_move]
      trivial
    · rw [Writing.reset, Writing.pc_move_of_ne _ hji]
      refine fits_of_idle ?_ ?_
      · rw [Option.eq_none_iff_forall_ne_some]
        intro k hk
        obtain ⟨line, howns⟩ := owns_of_slot (h.threads j) hk
        have hlt := howns.lt_length
        omega
      · by_contra hj
        exact hji (h.alone j i (by simpa using hj) hsetup)
  · exact h.alone_move nofun
  · intro _
    show s.claims.length = s.current * size + min 0 size
    omega
  · intro k hk hlt
    change s.current * size + k < s.claims.length at hlt
    omega
  · exact h.counted
  · exact h.count
  · exact h.full
  · exact h.switching_move (by rw [hpc]; exact nofun)
  · exact h.contents
  · exact h.fresh

/-- **Every step** keeps what the threads that log agree on, unless it uses a freed buffer. -/
lemma WriteInv.step {s t : State ι α} {e : Label ι α} (h : WriteInv size s.toWriting)
    (hsize : 0 < size) (hmoves : Moves size s e t) (hdefined : t.undefined = false) :
    WriteInv size t.toWriting := by
  cases hmoves with
  | push i line hpc =>
      apply h.move
      all_goals simp [hpc, Fits, Writer.slot, Writer.inSetup, Writer.handing]
  | claim i line hpc =>
      rcases Nat.lt_or_ge s.writeIndex size with hlt | hle
      · exact h.claim_of_lt hpc hlt
      · exact h.claim_of_le hpc hle
  | spin i line hpc hlt =>
      apply h.move
      all_goals simp [hpc, Fits, Writer.slot, Writer.inSetup, Writer.handing]
  | load i line k hpc =>
      have hfits := h.threads i
      rw [hpc] at hfits
      apply h.move
      case hq => exact ⟨rfl, hfits⟩
      all_goals simp [hpc, Writer.slot, Writer.inSetup, Writer.handing]
  | construct i line b k hpc hlive => exact h.construct hpc
  | store i b k hpc hlive => exact h.store hpc
  | count i b k hpc hlive => exact h.count_step hpc
  | allocate i hpc => exact h.allocate hsize hpc
  | link i hpc hflag =>
      have hfits := h.threads i
      rw [hpc] at hfits
      apply h.move
      case hq => exact hfits
      all_goals simp [hpc, Writer.slot, Writer.inSetup, Writer.handing]
  | reset i hpc => exact h.reset hpc
  | stray => cases hdefined
  | fetch hreading hreleasing hflag => exact h
  | pop b line hreading hlive hstate hitem =>
      unfold State.take
      split <;> exact h
  | release b queue hreleasing hflag hqueue => exact h

end QueueBuffer

end Log

end S3Proxy
