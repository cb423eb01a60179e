import S3Proxy.Log.Delivery

/-!
# Freeing the buffers of the queue

The reader frees a buffer when it has taken the last line, and a slot is marked before it is
counted.  So a thread may still be about to count a slot of a buffer that is freed (`Dangling`).

## Main results

`not_dangling_iff_settled`: no thread is left with a freed buffer, in any state of a run, exactly if
the reader frees a buffer only when its count is complete (`Settled`).  The code does not see to
that, and `not_dangling_iff_settled_one` has a run in which both sides are false.  Since only such a
thread can use a freed buffer, this also says when the hypothesis of `Log.Delivery` holds
(`defined_of_not_dangling`).

`exists_step_of_full`: threads do not wait for one another.  When the write index is past the end,
some thread is behind its claim and can go on.

`Inv.dangling_release_iff` is the step that frees a buffer: with all of its slots counted nobody is
in it (`WriteInv.counted_eq_range`), and with one that is not, the thread of this slot is
(`Inv.exists_target`).  No other step leads into a freed buffer, since the current buffer is not
freed while slots of it can be claimed (`Inv.current_notMem_freed`).

## Hypotheses

A buffer has a slot.  For the second result no thread has been left with a freed buffer, which is
what the first is about.

## What it rests on

The invariants of `Log.Handover` and `Log.Delivery`, and the exact rule for runs in `Library.Run`.
-/

namespace S3Proxy

namespace Log

namespace QueueBuffer

variable {ι α : Type*}

/-- The buffer that a thread is going to use. -/
def Writer.target (current : ℕ) : Writer α → Option ℕ
  | .claimed _ _ => some current
  | .loaded _ b _ | .constructed b _ | .stored b _ => some b
  | _ => none

/-- Some thread is going to use a buffer that was freed, or has done so. -/
def Dangling (s : State ι α) : Prop :=
  s.undefined = true ∨ ∃ i, ∃ b ∈ (s.pc i).target s.current, b ∈ s.freed

/-- A buffer is freed only when all of its slots are counted. -/
def Settled (size : ℕ) (s : State ι α) : Label ι α → Prop
  | .release => ∀ b ∈ s.queue.head?, (s.buffers b).count = size
  | _ => True

variable {size : ℕ} {s t : State ι α} {i : ι} {b k : ℕ} {q : Writer α}

/-- A count that is complete is the count of all slots. -/
lemma WriteInv.counted_eq_range {s : Writing ι α} (h : WriteInv size s)
    (hcount : (s.buffers b).count = size) : (s.buffers b).counted = Finset.range size := by
  apply Finset.eq_of_subset_of_card_le
  · exact fun k hk => Finset.mem_range.mpr (h.counted b k hk).1
  · rw [Finset.card_range, ← h.count, hcount]

/-- A thread uses the current buffer, in a slot that it owns. -/
lemma Inv.of_target (h : Inv size s) (htarget : (s.pc i).target s.current = some b) :
    b = s.current ∧ ∃ line k, Owns size s.toWriting i line k := by
  have hfits := h.write.threads i
  cases hpc : s.pc i with
  | claimed line k =>
      rw [hpc] at hfits htarget
      exact ⟨(Option.some.inj htarget).symm, line, k, hfits⟩
  | loaded line b' k =>
      rw [hpc] at hfits htarget
      exact ⟨(Option.some.inj htarget).symm.trans hfits.1, line, k, hfits.2⟩
  | constructed b' k =>
      rw [hpc] at hfits htarget
      obtain ⟨hb, line, howns, -⟩ := hfits
      exact ⟨(Option.some.inj htarget).symm.trans hb, line, k, howns⟩
  | stored b' k =>
      rw [hpc] at hfits htarget
      obtain ⟨hb, ⟨line, howns, -⟩, -⟩ := hfits
      exact ⟨(Option.some.inj htarget).symm.trans hb, line, k, howns⟩
  | _ =>
      rw [hpc] at htarget
      cases htarget

lemma target_of_slot (h : Fits size s.toWriting i q) (hslot : q.slot = some k) :
    q.target s.current = some s.current := by
  cases q with
  | claimed line k' => rfl
  | loaded line b k' => exact congrArg some h.1
  | constructed b k' => exact congrArg some h.1
  | stored b k' => exact congrArg some h.1
  | _ => cases hslot

lemma target_of_uses {current : ℕ} (huses : q.uses = some b) : q.target current = some b := by
  cases q with
  | loaded line b' k' => exact huses
  | constructed b' k' => exact huses
  | stored b' k' => exact huses
  | _ => cases huses

lemma defined_of_not_dangling (hnot : ¬ Dangling s) : s.undefined = false := by
  rw [← Bool.not_eq_true]
  exact fun hundefined => hnot (.inl hundefined)

lemma target_eq_none {current : ℕ} (hslot : q.slot = none) : q.target current = none := by
  cases q <;> trivial

/-- Of a buffer that is not counted to its end some thread is left. -/
lemma Inv.exists_target (h : Inv size s) (hlt : (s.buffers s.current).count ≠ size)
    (hlength : (s.current + 1) * size ≤ s.claims.length) :
    ∃ i k, (s.pc i).slot = some k ∧ (s.pc i).target s.current = some s.current := by
  obtain ⟨k, hk, hnot⟩ : ∃ k < size, k ∉ (s.buffers s.current).counted := by
    by_contra hall
    apply hlt
    have hrange : (s.buffers s.current).counted = Finset.range size := by
      ext k
      rw [Finset.mem_range]
      exact ⟨fun hk => (h.write.counted _ k hk).1,
        fun hk => by_contra fun hnot => hall ⟨k, hk, hnot⟩⟩
    rw [h.write.count, hrange, Finset.card_range]
  have hmul : (s.current + 1) * size = s.current * size + size := Nat.succ_mul ..
  obtain ⟨i, hslot⟩ := (h.write.covered k hk (by omega)).resolve_left hnot
  exact ⟨i, k, hslot, target_of_slot (h.write.threads i) hslot⟩

/-- What is freed is what the reader has read to its end. -/
lemma Inv.length_of_freed (h : Inv size s) (hb : b ∈ s.freed) :
    (b + 1) * size ≤ s.claims.length := by
  have hlt : b < s.freed.length := by
    rw [h.read.freed_eq] at hb
    exact List.mem_range.mp hb
  have hread : s.freed.length * size ≤ s.popped.length := by
    cases hreleasing : s.releasing with
    | true =>
        rw [(h.read.releasing hreleasing).2.2]
        exact Nat.mul_le_mul_right _ (Nat.le_succ _)
    | false =>
        cases hreading : s.reading with
        | none => exact (h.read.idle hreading hreleasing).2.ge
        | some b =>
            rw [(h.read.reading b hreading).2.2.2]
            exact Nat.le_add_right _ _
  calc (b + 1) * size ≤ s.freed.length * size := Nat.mul_le_mul_right _ hlt
    _ ≤ s.popped.length := hread
    _ ≤ s.claims.length := h.read.length_le

/-- **Freeing a buffer** leaves a thread behind in it precisely if its count is not complete. -/
lemma Inv.dangling_release_iff (h : Inv size s) (hnot : ¬ Dangling s) {queue : List ℕ}
    (hreleasing : s.releasing = true) (hqueue : s.queue = b :: queue) :
    ¬ Dangling { s with queue := queue, freed := s.freed ++ [b], releasing := false } ↔
      (s.buffers b).count = size := by
  have hb : b = s.freed.length := h.read.head_eq (by rw [hqueue]; rfl)
  have hle : b ≤ s.current := hb ▸ h.freed_le (by simp [hqueue])
  have hlength : (b + 1) * size ≤ s.claims.length := by
    rw [hb, ← (h.read.releasing hreleasing).2.2]
    exact h.read.length_le
  constructor
  · intro hsettled
    by_contra hne
    have hcurrent : b = s.current := by
      by_contra hbc
      apply hne
      rw [h.write.count, h.write.full b (by omega), Finset.card_range]
    subst hcurrent
    obtain ⟨i, k, -, htarget⟩ := h.exists_target hne hlength
    exact hsettled (.inr ⟨i, _, htarget, by simp⟩)
  · rintro hcount (hundefined | ⟨i, b', htarget, hmem⟩)
    · exact hnot (.inl hundefined)
    obtain ⟨rfl, line, k, howns⟩ := h.of_target htarget
    rcases List.mem_append.mp hmem with hfreed | hlast
    · exact hnot (.inr ⟨i, _, htarget, hfreed⟩)
    · obtain rfl : s.current = b := by simpa using hlast
      have hfull := h.write.counted_eq_range hcount
      exact howns.notCounted (hfull ▸ Finset.mem_range.mpr howns.lt)

/-- A thread that claims a slot finds the current buffer there. -/
lemma Inv.current_notMem_freed (h : Inv size s) (hlt : s.writeIndex < size) :
    s.current ∉ s.freed := by
  intro hfreed
  have hlength := h.length_of_freed hfreed
  have hmul : (s.current + 1) * size = s.current * size + size := Nat.succ_mul ..
  have htotal := h.write.total fun j => by
    by_contra hj
    have hle := ((h.write.threads j).of_handing (by simpa using hj)).2
    omega
  omega

variable [DecidableEq ι]

/-- A thread that goes on in its buffer, or leaves it. -/
lemma not_dangling_write {w : Writing ι α} (hnot : ¬ Dangling s) (hcurrent : w.current = s.current)
    (hpc : w.pc = Function.update s.pc i q)
    (hq : ∀ b ∈ q.target s.current, b ∈ (s.pc i).target s.current ∨ b ∉ s.freed) :
    ¬ Dangling (s.write w) := by
  rintro (hundefined | ⟨j, b, htarget, hfreed⟩)
  · exact hnot (.inl hundefined)
  change b ∈ (w.pc j).target w.current at htarget
  rw [hcurrent, hpc] at htarget
  by_cases hji : j = i
  · subst hji
    rw [Function.update_self] at htarget
    rcases hq b htarget with hold | hlive
    · exact hnot (.inr ⟨j, b, hold, hfreed⟩)
    · exact hlive hfreed
  · rw [Function.update_of_ne hji] at htarget
    exact hnot (.inr ⟨j, b, htarget, hfreed⟩)

lemma Inv.not_dangling_allocate (h : Inv size s) (hsize : 0 < size) (hnot : ¬ Dangling s)
    (hpc : s.pc i = .switching) : ¬ Dangling (s.write (s.allocate i)) := by
  obtain ⟨-, -, -, -, hslot⟩ := h.write.of_switching hsize hpc
  rintro (hundefined | ⟨j, b, htarget, -⟩)
  · exact hnot (.inl hundefined)
  change b ∈ (Function.update s.pc i .linking j).target (s.current + 1) at htarget
  by_cases hji : j = i
  · subst hji
    rw [Function.update_self] at htarget
    cases htarget
  · rw [Function.update_of_ne hji] at htarget
    rw [target_eq_none (hslot j)] at htarget
    cases htarget

/-- **One step** leads to a thread with a freed buffer precisely if it frees a buffer too early. -/
lemma Inv.not_dangling_step_iff {e : Label ι α} (h : Inv size s) (hsize : 0 < size)
    (hnot : ¬ Dangling s) (hmoves : Moves size s e t) : ¬ Dangling t ↔ Settled size s e := by
  cases hmoves with
  | push i line hpc => exact iff_of_true (not_dangling_write hnot rfl rfl nofun) trivial
  | claim i line hpc =>
      refine iff_of_true ?_ trivial
      unfold Writing.claim
      split
      · rename_i hlt
        refine not_dangling_write hnot rfl rfl fun b hb => .inr ?_
        obtain rfl : s.current = b := Option.some.inj hb
        exact h.current_notMem_freed hlt
      · exact not_dangling_write hnot rfl rfl nofun
  | spin i line hpc hlt => exact iff_of_true (not_dangling_write hnot rfl rfl nofun) trivial
  | load i line k hpc =>
      exact iff_of_true (not_dangling_write hnot rfl rfl fun b hb => .inl (by rw [hpc]; exact hb))
        trivial
  | construct i line b k hpc hlive =>
      exact iff_of_true (not_dangling_write hnot rfl rfl fun b hb => .inl (by rw [hpc]; exact hb))
        trivial
  | store i b k hpc hlive =>
      exact iff_of_true (not_dangling_write hnot rfl rfl fun b hb => .inl (by rw [hpc]; exact hb))
        trivial
  | count i b k hpc hlive =>
      refine iff_of_true (not_dangling_write hnot rfl rfl fun b hb => ?_) trivial
      split at hb <;> cases hb
  | allocate i hpc => exact iff_of_true (h.not_dangling_allocate hsize hnot hpc) trivial
  | link i hpc hflag =>
      refine iff_of_true ?_ trivial
      show ¬ Dangling (s.write (s.move i .linked))
      exact not_dangling_write hnot rfl rfl nofun
  | reset i hpc =>
      refine iff_of_true ?_ trivial
      show ¬ Dangling (s.write (s.reset i))
      exact not_dangling_write hnot rfl rfl nofun
  | stray i b after huses hfreed =>
      exact absurd (.inr ⟨i, b, target_of_uses huses, hfreed⟩) hnot
  | fetch hreading hreleasing hflag => exact iff_of_true hnot trivial
  | pop b line hreading hlive hstate hitem =>
      unfold State.take
      split <;> exact iff_of_true hnot trivial
  | release b queue hreleasing hflag hqueue =>
      rw [h.dangling_release_iff hnot hreleasing hqueue, Settled, hqueue]
      simp

/-- **No thread is left with a freed buffer** in exactly those runs in which the reader frees a
buffer only when all of its slots are counted. -/
theorem not_dangling_iff_settled (hsize : 0 < size) (es : List (Label ι α)) :
    PartialStep.Visits (step size) (fun s => ¬ Dangling s) {} es ↔
      PartialStep.Along (step size) (Settled size) {} es := by
  apply PartialStep.visits_iff_along (I := Inv size)
  · exact fun _ _ _ h _ hstep hnot => h.step hsize hstep (defined_of_not_dangling hnot)
  · exact fun _ _ _ h hnot hstep => h.not_dangling_step_iff hsize hnot (moves_of_step hstep)
  · exact inv_init hsize
  · rintro (hundefined | ⟨i, b, htarget, -⟩)
    · cases hundefined
    · cases htarget

/-- A thread marks the only slot of a buffer and is held up before it counts it.  The reader frees
the buffer meanwhile. -/
theorem not_dangling_iff_settled_one :
    (PartialStep.Visits (step 1) (fun s : State ℕ ℕ => ¬ Dangling s) {}
        [.push 0 7, .claim 0, .load 0, .construct 0, .store 0, .fetch, .pop, .release] ↔
      PartialStep.Along (step 1) (Settled 1) {}
        [.push 0 7, .claim 0, .load 0, .construct 0, .store 0, .fetch, .pop, .release]) ∧
      ¬ PartialStep.Visits (step 1) (fun s : State ℕ ℕ => ¬ Dangling s) {}
        [.push 0 7, .claim 0, .load 0, .construct 0, .store 0, .fetch, .pop, .release] := by
  refine ⟨not_dangling_iff_settled (by decide) _, fun h => ?_⟩
  have hend := (((((((h.2 _ rfl).2 _ rfl).2 _ rfl).2 _ rfl).2 _ rfl).2 _ rfl).2 _ rfl).2 _ rfl
  exact hend (.inr ⟨0, 0, rfl, List.mem_singleton.mpr rfl⟩)

/-- The steps of `push` behind the claim of a slot. -/
def Label.inPush (i : ι) : List (Label ι α) :=
  [.load i, .construct i, .store i, .count i, .allocate i, .link i, .reset i]

/-- A thread in a set-up can go on. -/
lemma Inv.exists_step_of_inSetup (h : Inv size s) (hi : (s.pc i).inSetup = true) :
    ∃ e ∈ Label.inPush i, (QueueBuffer.step size s e).isSome := by
  cases hpc : s.pc i with
  | switching => exact ⟨.allocate i, by simp [Label.inPush], by simp [QueueBuffer.step, hpc]⟩
  | linking =>
      have hflag : s.flag = false := by
        by_contra hflag
        obtain ⟨j, hj⟩ := h.read.flag.mp (by simpa using hflag)
        obtain rfl := h.write.alone i j hi (by rw [hj]; rfl)
        cases hpc.symm.trans hj
      exact ⟨.link i, by simp [Label.inPush], by simp [QueueBuffer.step, hpc, hflag]⟩
  | linked => exact ⟨.reset i, by simp [Label.inPush], by simp [QueueBuffer.step, hpc]⟩
  | _ =>
      rw [hpc] at hi
      cases hi

/-- A thread in a buffer can go on, unless the buffer was freed. -/
lemma exists_step_of_slot (hnot : ¬ Dangling s) (hslot : (s.pc i).slot = some k) :
    ∃ e ∈ Label.inPush i, (step size s e).isSome := by
  have hlive (b : ℕ) (hb : (s.pc i).target s.current = some b) : b ∉ s.freed :=
    fun hfreed => hnot (.inr ⟨i, b, hb, hfreed⟩)
  cases hpc : s.pc i with
  | claimed line k' => exact ⟨.load i, by simp [Label.inPush], by simp [step, hpc]⟩
  | loaded line b k' =>
      have hb := hlive b (by rw [hpc]; rfl)
      exact ⟨.construct i, by simp [Label.inPush], by simp [step, hpc, hb]⟩
  | constructed b k' =>
      have hb := hlive b (by rw [hpc]; rfl)
      exact ⟨.store i, by simp [Label.inPush], by simp [step, hpc, hb]⟩
  | stored b k' =>
      have hb := hlive b (by rw [hpc]; rfl)
      exact ⟨.count i, by simp [Label.inPush], by simp [step, hpc, hb]⟩
  | _ =>
      rw [hpc] at hslot
      cases hslot

/-- **Threads do not wait for one another**: when the write index is past the end, some thread is
behind its claim and can go on, unless it was left with a freed buffer. -/
theorem exists_step_of_full (hsize : 0 < size) {es : List (Label ι α)}
    (hrun : PartialStep.exec (step size) {} es = some s) (hnot : ¬ Dangling s)
    (hfull : size ≤ s.writeIndex) : ∃ i, ∃ e ∈ Label.inPush i, (step size s e).isSome := by
  have h := inv_of_exec hsize hrun (defined_of_not_dangling hnot)
  by_cases hsetup : ∃ i, (s.pc i).inSetup = true
  · obtain ⟨i, hi⟩ := hsetup
    exact ⟨i, h.exists_step_of_inSetup hi⟩
  · have hnone (i : ι) : (s.pc i).inSetup = false := by simpa using not_exists.mp hsetup i
    have htotal := h.write.total fun i => by
      by_contra hi
      have hi' := inSetup_of_handing (q := s.pc i) (by simpa using hi)
      rw [hnone i] at hi'
      cases hi'
    have hmul : (s.current + 1) * size = s.current * size + size := Nat.succ_mul ..
    have hcount : (s.buffers s.current).count ≠ size := by
      intro hcount
      obtain ⟨i, hi⟩ := h.write.switching (h.write.counted_eq_range hcount)
      have hi' := hnone i
      rw [hi] at hi'
      cases hi'
    obtain ⟨i, k, hslot, -⟩ := h.exists_target hcount (by omega)
    exact ⟨i, exists_step_of_slot hnot hslot⟩

/-- One thread has the only slot, and another one waits. -/
theorem exists_step_of_full_one : ∃ s : State ℕ ℕ,
    PartialStep.exec (step 1) {} [.push 0 7, .claim 0, .push 1 8, .claim 1] = some s ∧
      ∃ i, ∃ e ∈ Label.inPush i, (step 1 s e).isSome := by
  have hrun : PartialStep.exec (step 1) ({} : State ℕ ℕ)
    [.push 0 7, .claim 0, .push 1 8, .claim 1] = some _ := rfl
  refine ⟨_, hrun, exists_step_of_full (by decide) hrun ?_ (by decide)⟩
  rintro (hundefined | ⟨i, b, -, hfreed⟩)
  · cases hundefined
  · cases hfreed

end QueueBuffer

end Log

end S3Proxy
